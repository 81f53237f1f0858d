import Mathlib.Data.String.Basic
import Fsql.Library.Occurrence

/-!
# Positions in bytes

A text in UTF-8 is cut at byte positions, and only where a character begins: `getTo`, `getFrom` and
`getRange` give no text where the positions are in the wrong order, too large, or inside a
character.  A position a search gives is one that `offset` gives for a number of characters, and
cutting there is cutting the list of characters (`getTo_offset`, `getFrom_offset`,
`getRange_offset`).
-/

set_option autoImplicit false

namespace Text

open String (utf8Len)

/-- The part before a byte position and the part behind it. -/
def splitAtByte : Nat → List Char → Option (List Char × List Char)
  | 0, l => some ([], l)
  | _ + 1, [] => none
  | n + 1, c :: l =>
    if c.utf8Size ≤ n + 1 then
      (splitAtByte (n + 1 - c.utf8Size) l).map fun p ↦ (c :: p.1, p.2)
    else none

/-- `str::get` at `..stop`. -/
def getTo (l : List Char) (stop : Nat) : Option (List Char) := (splitAtByte stop l).map Prod.fst

/-- `str::get` at `start..`. -/
def getFrom (l : List Char) (start : Nat) : Option (List Char) := (splitAtByte start l).map Prod.snd

/-- `str::get` at `start..stop`. -/
def getRange (l : List Char) (start stop : Nat) : Option (List Char) :=
  if start ≤ stop then (getTo l stop).bind (getFrom · start) else none

/-- The byte position behind a number of characters. -/
def offset (l : List Char) (n : Nat) : Nat := utf8Len (l.take n)

/-- `str::find`. -/
def findByte (p l : List Char) : Option Nat := (find p l).map (offset l)

/-- `str::find` at a character. -/
def findCharByte (c : Char) (l : List Char) : Option Nat := (findChar c l).map (offset l)

/-- `str::rfind` at a character. -/
def rfindCharByte (c : Char) (l : List Char) : Option Nat := (rfindChar c l).map (offset l)

/-! ## Cutting -/

/-- **A text is cut between characters.** -/
theorem splitAtByte_eq_some_iff {n : Nat} {l a b : List Char} :
    splitAtByte n l = some (a, b) ↔ l = a ++ b ∧ utf8Len a = n := by
  induction l generalizing n a with
  | nil =>
    cases n with
    | zero =>
      constructor
      · intro h
        obtain ⟨rfl, rfl⟩ := Prod.mk.inj (Option.some.inj h)
        exact ⟨rfl, rfl⟩
      · rintro ⟨h, -⟩
        obtain ⟨rfl, rfl⟩ := List.append_eq_nil_iff.mp h.symm
        rfl
    | succ n =>
      refine ⟨fun h ↦ (by cases h), ?_⟩
      rintro ⟨h, hlen⟩
      obtain ⟨rfl, rfl⟩ := List.append_eq_nil_iff.mp h.symm
      cases hlen
  | cons c l ih =>
    have hpos := c.utf8Size_pos
    cases n with
    | zero =>
      constructor
      · intro h
        obtain ⟨rfl, rfl⟩ := Prod.mk.inj (Option.some.inj h)
        exact ⟨rfl, rfl⟩
      · rintro ⟨h, hlen⟩
        obtain rfl := String.utf8Len_eq_zero.mp hlen
        obtain rfl : c :: l = b := h
        rfl
    | succ n =>
      rw [splitAtByte]
      constructor
      · intro h
        split at h
        · rename_i hle
          obtain ⟨⟨a', b'⟩, hrest, heq⟩ := Option.map_eq_some_iff.mp h
          obtain ⟨rfl, rfl⟩ := Prod.mk.inj heq
          obtain ⟨rfl, hlen⟩ := ih.mp hrest
          refine ⟨rfl, ?_⟩
          show utf8Len a' + c.utf8Size = n + 1
          omega
        · cases h
      · rintro ⟨h, hlen⟩
        cases a with
        | nil => cases hlen
        | cons d a =>
          obtain ⟨rfl, rfl⟩ := List.cons.inj h
          rw [String.utf8Len_cons] at hlen
          rw [if_pos (by omega), ih.mpr ⟨rfl, by omega⟩]
          rfl

theorem splitAtByte_utf8Len (a b : List Char) : splitAtByte (utf8Len a) (a ++ b) = some (a, b) :=
  splitAtByte_eq_some_iff.mpr ⟨rfl, rfl⟩

theorem getTo_append (a b : List Char) : getTo (a ++ b) (utf8Len a) = some a := by
  rw [getTo, splitAtByte_utf8Len, Option.map_some]

theorem getFrom_append (a b : List Char) : getFrom (a ++ b) (utf8Len a) = some b := by
  rw [getFrom, splitAtByte_utf8Len, Option.map_some]

theorem getTo_offset (l : List Char) (n : Nat) : getTo l (offset l n) = some (l.take n) := by
  have h := getTo_append (l.take n) (l.drop n)
  rwa [List.take_append_drop] at h

theorem getFrom_offset (l : List Char) (n : Nat) : getFrom l (offset l n) = some (l.drop n) := by
  have h := getFrom_append (l.take n) (l.drop n)
  rwa [List.take_append_drop] at h

theorem offset_mono (l : List Char) {m n : Nat} (h : m ≤ n) : offset l m ≤ offset l n :=
  String.utf8Len_le_of_sublist (List.take_sublist_take_left h)

theorem offset_lt (l : List Char) {m n : Nat} (h : m < n) (hm : m < l.length) :
    offset l m < offset l n := by
  refine Nat.lt_of_lt_of_le ?_ (offset_mono l h)
  have hpos := Char.utf8Size_pos l[m]
  rw [offset, offset, List.take_add_one, List.getElem?_eq_getElem hm, String.utf8Len_append,
    Option.toList_some, String.utf8Len_cons, String.utf8Len_nil]
  omega

/-- **The part between two positions** is there if they are in order. -/
theorem getRange_offset (l : List Char) {m n : Nat} (hm : m ≤ l.length) (hn : n ≤ l.length) :
    getRange l (offset l m) (offset l n) = if m ≤ n then some ((l.take n).drop m) else none := by
  by_cases h : m ≤ n
  · rw [if_pos h, getRange, if_pos (offset_mono l h), getTo_offset, Option.bind_some]
    have hoffset : offset l m = offset (l.take n) m := by
      rw [offset, offset, List.take_take, Nat.min_eq_left h]
    rw [hoffset, getFrom_offset]
  · have hlt : offset l n < offset l m := offset_lt l (by omega) (by omega)
    rw [if_neg h, getRange, if_neg (by omega)]

/-! ## Case -/

/-- The letters that change their case have one byte. -/
theorem utf8Size_toLower (c : Char) : c.toLower.utf8Size = c.utf8Size := by
  unfold Char.toLower
  split
  · rename_i hupper
    have hone : c.utf8Size = 1 := by
      rw [Char.utf8Size_eq_one_iff, UInt32.le_iff_toNat_le]
      simp only [ge_iff_le, UInt32.le_iff_toNat_le, Char.reduceVal, UInt32.reduceToNat] at hupper ⊢
      omega
    rw [hone, Char.utf8Size_eq_one_iff, UInt32.le_iff_toNat_le]
    simp only [ge_iff_le, UInt32.le_iff_toNat_le, UInt32.toNat_add, Char.reduceVal,
      UInt32.reduceToNat, UInt32.reduceSub, Nat.reducePow] at hupper ⊢
    omega
  · rfl

theorem utf8Len_lower (l : List Char) : utf8Len (lower l) = utf8Len l := by
  induction l with
  | nil => rfl
  | cons c l ih => rw [lower_cons, String.utf8Len_cons, String.utf8Len_cons, ih, utf8Size_toLower]

theorem offset_lower (l : List Char) (n : Nat) : offset (lower l) n = offset l n := by
  rw [offset, offset, lower, ← List.map_take, ← lower, utf8Len_lower]

theorem lower_take (l : List Char) (n : Nat) : lower (l.take n) = (lower l).take n := List.map_take

theorem utf8Len_eq_of_lower_eq {a b : List Char} (h : lower a = lower b) :
    utf8Len a = utf8Len b := by
  rw [← utf8Len_lower a, h, utf8Len_lower]

/-! ## Searching -/

/-- What is found is there. -/
theorem prefix_drop_of_find {p l : List Char} {i : Nat} (h : find p l = some i) :
    p <+: l.drop i := by
  induction l generalizing i with
  | nil =>
    rw [find] at h
    split at h
    · rename_i hempty
      rw [List.isEmpty_iff.mp hempty]
      exact List.nil_prefix
    · cases h
  | cons c l ih =>
    rw [find] at h
    split at h
    · rename_i hprefix
      obtain rfl := Option.some.inj h
      exact List.isPrefixOf_iff_prefix.mp hprefix
    · obtain ⟨j, hj, rfl⟩ := Option.map_eq_some_iff.mp h
      exact ih hj

/-- **The position behind a pattern**, up to case. -/
theorem offset_add {l p : List Char} {i : Nat} (h : lower p <+: (lower l).drop i) :
    offset l i + utf8Len p = offset l (i + p.length) := by
  obtain ⟨rest, hrest⟩ := h
  have hlower : lower ((l.drop i).take p.length) = lower p := by
    rw [lower, List.map_take, List.map_drop, ← lower, ← hrest, ← length_lower p,
      List.take_left]
  rw [offset, offset, List.take_add, String.utf8Len_append, utf8Len_eq_of_lower_eq hlower]

theorem offset_find {l p : List Char} {i : Nat} (h : find p l = some i) :
    offset l i + utf8Len p = offset l (i + p.length) := by
  refine offset_add ?_
  rw [lower, lower, ← List.map_drop]
  exact (prefix_drop_of_find h).map Char.toLower

theorem length_le_of_prefix_drop {p l : List Char} {i : Nat} (h : p <+: l.drop i) (hne : p ≠ []) :
    i + p.length ≤ l.length := by
  have hlen := h.length_le
  have hpos := List.length_pos_of_ne_nil hne
  rw [List.length_drop] at hlen
  omega

theorem findChar_spec {c : Char} {l : List Char} {i : Nat} (h : findChar c l = some i) :
    l[i]? = some c := by
  obtain ⟨hlt, hi, -⟩ := List.findIdx?_eq_some_iff_getElem.mp h
  rw [List.getElem?_eq_getElem hlt, beq_iff_eq.mp hi]

theorem rfindChar_spec {c : Char} {l : List Char} {i : Nat} (h : rfindChar c l = some i) :
    l[i]? = some c := by
  obtain ⟨j, hj, rfl⟩ := Option.map_eq_some_iff.mp h
  obtain ⟨hlt, hi, -⟩ := List.findIdx?_eq_some_iff_getElem.mp hj
  rw [List.length_reverse] at hlt
  rw [List.getElem_reverse] at hi
  rw [List.getElem?_eq_getElem (by omega), beq_iff_eq.mp hi]

/-- The position behind a character. -/
theorem offset_succ {l : List Char} {i : Nat} {c : Char} (h : l[i]? = some c) :
    offset l i + c.utf8Size = offset l (i + 1) := by
  rw [offset, offset, List.take_add_one, h, String.utf8Len_append, Option.toList_some,
    String.utf8Len_cons, String.utf8Len_nil, Nat.zero_add]

end Text
