import Fsql.Library.Text

/-!
# Where a pattern occurs in a text

A parser that looks for its keywords with `Text.find` cuts its text at the first occurrence of a
pattern.  This file says where that is, for a text that is put together from pieces:

* `Text.contains_iff` — a text contains what is an infix of it, and `Text.find_append` — a pattern
  is found where it has been put, if it does not occur before.
* `Text.infix_append_sep` — across a character it does not have, a pattern cannot occur;
  `Text.infix_skip` — nor can it begin in a piece without its first character.
-/

set_option autoImplicit false

namespace Text

/-! ## Case -/

theorem isUpper_eq (c : Char) : c.isUpper = decide (c.val ≥ 'A'.val ∧ c.val ≤ 'Z'.val) := rfl

theorem isLower_eq (c : Char) :
    c.isLower = (decide (c.val ≥ 'a'.val) && decide (c.val ≤ 'z'.val)) :=
  rfl

theorem isAlpha_eq (c : Char) : c.isAlpha = (c.isUpper || c.isLower) := rfl

/-- Only a letter changes its case. -/
theorem toLower_eq_iff {c d : Char} (h : d.isAlpha = false) : c.toLower = d ↔ c = d := by
  constructor
  · intro hc
    unfold Char.toLower at hc
    split at hc
    · rename_i hupper
      subst hc
      simp only [isAlpha_eq, isLower_eq, isUpper_eq, ge_iff_le, UInt32.le_iff_toNat_le,
        UInt32.toNat_add, Bool.or_eq_false_iff, Bool.and_eq_false_iff, decide_eq_false_iff_not,
        Char.reduceVal, UInt32.reduceToNat, Char.toNat_val, UInt32.reduceSub, Nat.reducePow,
        not_and, not_le] at h hupper
      omega
    · exact hc
  · rintro rfl
    unfold Char.toLower
    split
    · rename_i hupper
      have hisUpper : c.isUpper = true := by simpa [isUpper_eq] using hupper
      rw [isAlpha_eq, hisUpper] at h
      cases h
    · rfl

/-- No character is a capital one in lower case. -/
theorem isUpper_toLower (c : Char) : c.toLower.isUpper = false := by
  rw [isUpper_eq, decide_eq_false_iff_not]
  unfold Char.toLower
  split
  · rename_i hupper
    simp only [ge_iff_le, UInt32.le_iff_toNat_le, UInt32.toNat_add, Char.reduceVal,
      UInt32.reduceToNat, Char.toNat_val, UInt32.reduceSub, Nat.reducePow, not_and,
      not_le] at hupper ⊢
    omega
  · rename_i hupper
    exact hupper

/-- A letter in lower case is a small one. -/
theorem isLower_of_mem_lower {c : Char} {l : List Char} (hc : c ∈ lower l)
    (h : c.isAlpha = true) : c.isLower = true := by
  obtain ⟨d, -, rfl⟩ := List.mem_map.mp hc
  rwa [isAlpha_eq, isUpper_toLower, Bool.false_or] at h

/-- A character that is changed by `to_ascii_lowercase` is a capital letter. -/
theorem toLower_eq_or_capital (c : Char) :
    c.toLower = c ∨ ∃ n < 91, 64 < n ∧ c = Char.ofNat n := by
  unfold Char.toLower
  split
  · rename_i hrange
    simp only [ge_iff_le, UInt32.le_iff_toNat_le, Char.reduceVal, UInt32.reduceToNat] at hrange
    refine .inr ⟨c.toNat, ?_, ?_, (Char.ofNat_toNat c).symm⟩
    · exact Nat.lt_succ_of_le hrange.2
    · exact hrange.1
  · exact .inl rfl

/-- Whitespace has no case. -/
theorem isWhitespace_toLower (c : Char) : isWhitespace c.toLower = isWhitespace c := by
  rcases toLower_eq_or_capital c with heq | ⟨n, hlt, hlo, rfl⟩
  · rw [heq]
  · have key : ∀ n < 91, 64 < n →
        isWhitespace (Char.ofNat n).toLower = isWhitespace (Char.ofNat n) := by decide
    exact key n hlt hlo

theorem lower_append (a b : List Char) : lower (a ++ b) = lower a ++ lower b := List.map_append

theorem lower_cons (c : Char) (l : List Char) : lower (c :: l) = c.toLower :: lower l :=
  List.map_cons

theorem length_lower (l : List Char) : (lower l).length = l.length := List.length_map ..

theorem mem_lower_iff {d : Char} (h : d.isAlpha = false) {l : List Char} : d ∈ lower l ↔ d ∈ l := by
  simp only [lower, List.mem_map, toLower_eq_iff h, exists_eq_right]

/-! ## Searching -/

theorem find_isSome_iff {p l : List Char} : (find p l).isSome = true ↔ p <:+: l := by
  induction l with
  | nil =>
    rw [find, List.infix_nil]
    cases p with
    | nil => simp
    | cons c p => simp
  | cons c l ih =>
    rw [find, List.infix_cons_iff, ← ih]
    split
    · rename_i hpre
      rw [List.isPrefixOf_iff_prefix] at hpre
      simp [hpre]
    · rename_i hpre
      rw [List.isPrefixOf_iff_prefix] at hpre
      simp [hpre]

theorem contains_iff {p l : List Char} : contains l p = true ↔ p <:+: l := find_isSome_iff

/-- **A pattern is found where it has been put**, if it does not occur before. -/
theorem find_append {p u : List Char} (v : List Char) (h : ¬p <:+: u ++ p.dropLast) :
    find p (u ++ (p ++ v)) = some u.length := by
  have hne : p ≠ [] := by
    rintro rfl
    exact h List.nil_infix
  induction u with
  | nil =>
    obtain ⟨c, p, rfl⟩ := List.exists_cons_of_ne_nil hne
    have hpre : (c :: p).isPrefixOf (c :: (p ++ v)) = true :=
      List.isPrefixOf_iff_prefix.mpr (List.prefix_append (c :: p) v)
    rw [List.nil_append, List.cons_append, find, if_pos hpre, List.length_nil]
  | cons c u ih =>
    have hpre : ¬p.isPrefixOf (c :: (u ++ (p ++ v))) = true := by
      rw [List.isPrefixOf_iff_prefix]
      intro hp
      -- it would end before the pattern that has been put there does
      have hlong : c :: u ++ p.dropLast <+: c :: (u ++ (p ++ v)) := by
        rw [List.cons_append, List.cons_prefix_cons, List.prefix_append_right_inj]
        exact ⟨rfl, (List.dropLast_prefix p).trans (List.prefix_append p v)⟩
      refine h (List.prefix_of_prefix_length_le hp hlong ?_).isInfix
      simp only [List.cons_append, List.length_cons, List.length_append, List.length_dropLast]
      omega
    have htail : ¬p <:+: u ++ p.dropLast := fun hp ↦ h (List.infix_cons hp)
    rw [List.cons_append, find, if_neg hpre, ih htail, Option.map_some, List.length_cons]

/-- **A pattern that occurs in a text is found in it**, whatever is behind the text. -/
theorem find_append_left {p a : List Char} (h : p <:+: a) (b : List Char) :
    ∃ i, find p (a ++ b) = some i ∧ i + p.length ≤ a.length := by
  induction a with
  | nil =>
    obtain rfl := List.infix_nil.mp h
    exact ⟨0, by cases b <;> rfl, by simp⟩
  | cons c a ih =>
    rw [List.cons_append, find]
    by_cases hpre : p.isPrefixOf (c :: (a ++ b)) = true
    · rw [if_pos hpre]
      exact ⟨0, rfl, by simpa using h.length_le⟩
    · rw [if_neg hpre]
      rw [List.isPrefixOf_iff_prefix] at hpre
      rcases List.infix_cons_iff.mp h with hp | hp
      · exact absurd (hp.trans (List.prefix_append (c :: a) b)) hpre
      · obtain ⟨i, hi, hle⟩ := ih hp
        rw [hi, Option.map_some, List.length_cons]
        exact ⟨i + 1, rfl, by omega⟩

/-! ## Texts put together from pieces -/

/-- **A pattern does not occur across a character it does not have.** -/
theorem infix_append_sep {p : List Char} {sep : Char} (h : sep ∉ p) (hne : p ≠ [])
    (a b : List Char) : p <:+: a ++ sep :: b ↔ p <:+: a ∨ p <:+: b := by
  constructor
  · intro hp
    rcases List.infix_append_iff_ne_nil.mp hp with ha | hb | ⟨l, l', -, hne', rfl, -, hl'⟩
    · exact .inl ha
    · rcases List.infix_cons_iff.mp hb with hpre | hb
      · obtain ⟨c, p, rfl⟩ := List.exists_cons_of_ne_nil hne
        exact absurd ((List.cons_prefix_cons.mp hpre).1 ▸ List.mem_cons_self) h
      · exact .inr hb
    · obtain ⟨c, l', rfl⟩ := List.exists_cons_of_ne_nil hne'
      have hc : c = sep := (List.cons_prefix_cons.mp hl').1
      exact absurd (hc ▸ List.mem_append_right l List.mem_cons_self) h
  · rintro (ha | hb)
    · exact List.infix_append_of_infix_left ha
    · exact List.infix_append_of_infix_right (List.infix_cons hb)

/-- **A pattern does not begin in a piece without its first character.** -/
theorem infix_skip {c : Char} {w : List Char} (h : c ∉ w) (p l : List Char) :
    c :: p <:+: w ++ l ↔ c :: p <:+: l := by
  induction w with
  | nil => exact Iff.rfl
  | cons d w ih =>
    have hc : c ≠ d := fun hcd ↦ h (hcd ▸ List.mem_cons_self)
    have hw : c ∉ w := fun hmem ↦ h (List.mem_cons_of_mem d hmem)
    rw [List.cons_append, List.infix_cons_iff, List.cons_prefix_cons, ih hw]
    simp only [hc, false_and, false_or]

/-- Two texts agree in their first words if one is a prefix of the other. -/
theorem prefix_words_cons {v w x y : List Char} (hv : ' ' ∉ v) (hw : ' ' ∉ w) :
    v ++ ' ' :: x <+: w ++ ' ' :: y ↔ v = w ∧ x <+: y := by
  induction v generalizing w with
  | nil =>
    cases w with
    | nil => simp
    | cons c w =>
      have hc : ' ' ≠ c := fun h ↦ hw (h ▸ List.mem_cons_self)
      simp [hc]
  | cons d v ih =>
    have hd : d ≠ ' ' := fun h ↦ hv (h ▸ List.mem_cons_self)
    cases w with
    | nil => simp [hd]
    | cons c w =>
      rw [List.cons_append, List.cons_append, List.cons_prefix_cons,
        ih (fun h ↦ hv (List.mem_cons_of_mem d h)) (fun h ↦ hw (List.mem_cons_of_mem c h)),
        List.cons.injEq, and_assoc]

end Text
