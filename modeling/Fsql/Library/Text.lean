import Mathlib.Data.List.Basic
import Mathlib.Data.List.DropRight
import Mathlib.Data.List.Infix

/-!
# Text as lists of characters

The operations of a string library that a hand-written parser is made of — trimming, searching for
a substring, comparing without regard to ASCII case, splitting — on `List Char`, where they can be
reasoned about by recursion.  A position in a text is the number of characters before it.

The lemmas here are about what stays under these operations, and about cutting and joining; where
`find` finds a pattern is the subject of a file of its own.
-/

set_option autoImplicit false

namespace Text

/-! ## Characters -/

/-- `char::is_whitespace`: the Unicode property White_Space. -/
def isWhitespace (c : Char) : Bool :=
  let n := c.toNat
  (0x9 ≤ n && n ≤ 0xd) || n == 0x20 || n == 0x85 || n == 0xa0 || n == 0x1680 ||
    (0x2000 ≤ n && n ≤ 0x200a) || n == 0x2028 || n == 0x2029 || n == 0x202f || n == 0x205f ||
    n == 0x3000

/-- `str::to_ascii_lowercase`. -/
def lower (l : List Char) : List Char := l.map Char.toLower

/-- `str::eq_ignore_ascii_case`. -/
def eqIgnoreCase (a b : List Char) : Bool := lower a == lower b

/-- A property of the characters of a text is decided at these, not at every character there is. -/
instance decidableForallMem (l : List Char) (p : Char → Prop) [DecidablePred p] :
    Decidable (∀ c ∈ l, p c) :=
  List.decidableBAll p l

/-! ## Trimming -/

/-- Drop the characters satisfying `p` from both ends. -/
def trimBy (p : Char → Bool) (l : List Char) : List Char :=
  (l.dropWhile p).rdropWhile p

/-- `str::trim`. -/
def trim : List Char → List Char := trimBy isWhitespace

/-- `str::trim_matches` at a character. -/
def trimMatches (c : Char) : List Char → List Char := trimBy (· == c)

/-- `str::trim_end_matches` at a character. -/
def trimEndMatches (c : Char) (l : List Char) : List Char := l.rdropWhile (· == c)

theorem dropWhile_cons_of_not {p : Char → Bool} {c : Char} (h : p c = false) (l : List Char) :
    (c :: l).dropWhile p = c :: l := by
  rw [List.dropWhile_cons, h]
  rfl

/-- **A text whose ends stay is not changed.** -/
theorem trimBy_eq_self {p : Char → Bool} {l : List Char} (hhead : ∀ c ∈ l.head?, p c = false)
    (hlast : ∀ c ∈ l.getLast?, p c = false) : trimBy p l = l := by
  cases l with
  | nil => rfl
  | cons c l =>
    rw [trimBy, dropWhile_cons_of_not (hhead c rfl), List.rdropWhile_eq_self_iff]
    intro hne
    rw [hlast _ (List.getLast?_eq_some_getLast hne)]
    exact Bool.false_ne_true

/-- What is trimmed may come first. -/
theorem trimBy_cons {p : Char → Bool} {c : Char} (h : p c = true) (l : List Char) :
    trimBy p (c :: l) = trimBy p l := by
  rw [trimBy, List.dropWhile_cons, if_pos h, ← trimBy]

/-- What is trimmed may come last. -/
theorem trimBy_concat {p : Char → Bool} {c : Char} (h : p c = true) (l : List Char) :
    trimBy p (l ++ [c]) = trimBy p l := by
  rw [trimBy, List.dropWhile_append]
  split
  · rename_i hempty
    rw [List.isEmpty_iff] at hempty
    rw [List.dropWhile_cons, if_pos h, trimBy, hempty, List.dropWhile_nil]
  · rw [List.rdropWhile_concat_pos p _ _ h, ← trimBy]

/-- A text that is not trimmed has no ends to trim. -/
theorem not_of_trimBy_eq_self {p : Char → Bool} {l : List Char} (h : trimBy p l = l) :
    (∀ c ∈ l.head?, p c = false) ∧ ∀ c ∈ l.getLast?, p c = false := by
  have hfront : l.dropWhile p = l := by
    refine (List.dropWhile_suffix p).sublist.antisymm ?_
    nth_rewrite 1 [← h]
    exact (List.rdropWhile_prefix p _).sublist
  rw [trimBy, hfront] at h
  constructor
  · intro c hc
    obtain ⟨tail, rfl⟩ := List.head?_eq_some_iff.mp hc
    rw [List.dropWhile_cons] at hfront
    split at hfront
    · have hlen := (List.dropWhile_suffix (l := tail) p).length_le
      rw [hfront, List.length_cons] at hlen
      omega
    · exact Bool.not_eq_true _ ▸ ‹_›
  · intro c hc
    have hne : l ≠ [] := List.ne_nil_of_mem (List.mem_of_mem_getLast? hc)
    have hlast := List.rdropWhile_eq_self_iff.mp h hne
    rw [List.getLast?_eq_some_getLast hne] at hc
    rw [Option.some.inj hc] at hlast
    exact Bool.not_eq_true _ ▸ hlast

/-- **A last character that is not trimmed stays the last.** -/
theorem getLast?_trimBy {p : Char → Bool} {l : List Char} {c : Char} (hlast : l.getLast? = some c)
    (h : p c = false) : (trimBy p l).getLast? = some c := by
  obtain ⟨m, rfl⟩ := List.getLast?_eq_some_iff.mp hlast
  have hc : ¬p c = true := by
    rw [h]
    exact Bool.false_ne_true
  obtain ⟨m', hm'⟩ : ∃ m', (m ++ [c]).dropWhile p = m' ++ [c] := by
    rw [List.dropWhile_append]
    split
    · exact ⟨[], dropWhile_cons_of_not h []⟩
    · exact ⟨m.dropWhile p, rfl⟩
  rw [trimBy, hm', List.rdropWhile_concat_neg p _ _ hc, List.getLast?_concat]

/-- **Behind a character that stays**, a text is only trimmed at its end. -/
theorem exists_trimBy_eq {p : Char → Bool} {u : List Char} {c : Char}
    (hhead : ∀ d ∈ (u ++ [c]).head?, p d = false) (hc : p c = false) (l : List Char) :
    ∃ l', trimBy p (u ++ c :: l) = u ++ c :: l' ∧ l' <+: l := by
  have hfirst (l : List Char) : ∀ d ∈ (u ++ c :: l).head?, p d = false := by
    cases u with
    | nil => exact hhead
    | cons d u => exact hhead
  induction l using List.reverseRecOn with
  | nil =>
    refine ⟨[], trimBy_eq_self (hfirst []) fun d hd ↦ ?_, List.prefix_rfl⟩
    rw [List.getLast?_concat] at hd
    exact Option.some.inj hd ▸ hc
  | append_singleton l d ih =>
    rcases hd : p d with _ | _
    · refine ⟨l ++ [d], trimBy_eq_self (hfirst _) fun e he ↦ ?_, List.prefix_rfl⟩
      rw [← List.cons_append, ← List.append_assoc, List.getLast?_concat] at he
      exact Option.some.inj he ▸ hd
    · obtain ⟨l', heq, hpre⟩ := ih
      refine ⟨l', ?_, hpre.trans (List.prefix_append _ _)⟩
      rw [← List.cons_append, ← List.append_assoc, trimBy_concat hd, heq]

theorem trimBy_sublist (p : Char → Bool) (l : List Char) : (trimBy p l).Sublist l :=
  (List.rdropWhile_prefix p _).sublist.trans (List.dropWhile_suffix p).sublist

/-- **What is trimmed**: the text is the trimmed one between characters that are dropped. -/
theorem exists_eq_append_trimBy (p : Char → Bool) (l : List Char) :
    ∃ front back, l = front ++ trimBy p l ++ back ∧ (∀ c ∈ front, p c = true) ∧
      ∀ c ∈ back, p c = true := by
  have hback : (l.dropWhile p).rdropWhile p ++ (l.dropWhile p).rtakeWhile p = l.dropWhile p := by
    rw [List.rdropWhile, List.rtakeWhile, ← List.reverse_append, List.takeWhile_append_dropWhile,
      List.reverse_reverse]
  refine ⟨l.takeWhile p, (l.dropWhile p).rtakeWhile p, ?_, fun c hmem ↦ List.mem_takeWhile_imp hmem,
    fun c hmem ↦ List.mem_rtakeWhile_imp hmem⟩
  rw [trimBy, List.append_assoc, hback, List.takeWhile_append_dropWhile]

theorem length_trimBy_le (p : Char → Bool) (l : List Char) : (trimBy p l).length ≤ l.length :=
  (trimBy_sublist p l).length_le

/-! ## Searching -/

/-- `str::find`: the first position at which `p` occurs. -/
def find (p : List Char) : List Char → Option Nat
  | [] => if p.isEmpty then some 0 else none
  | c :: cs => if p.isPrefixOf (c :: cs) then some 0 else (find p cs).map (· + 1)

/-- `str::contains`. -/
def contains (l p : List Char) : Bool := (find p l).isSome

/-- `str::find` at a character. -/
def findChar (c : Char) (l : List Char) : Option Nat := l.findIdx? (· == c)

/-- `str::rfind` at a character. -/
def rfindChar (c : Char) (l : List Char) : Option Nat :=
  (l.reverse.findIdx? (· == c)).map fun i ↦ l.length - 1 - i

/-- `str::ends_with`. -/
def endsWith (l p : List Char) : Bool := p.isSuffixOf l

/-! ## Replacing -/

/-- `str::replace` of a character. -/
def replaceChar (c : Char) (text : List Char) (l : List Char) : List Char :=
  l.flatMap fun d ↦ if d = c then text else [d]

/-! ## Splitting -/

/-- `str::split_whitespace`: the maximal runs of characters that are not whitespace. -/
def splitWhitespaceAux : List Char → List Char → List (List Char)
  | [], word => if word.isEmpty then [] else [word.reverse]
  | c :: cs, word =>
    if isWhitespace c then
      (if word.isEmpty then [] else [word.reverse]) ++ splitWhitespaceAux cs []
    else splitWhitespaceAux cs (c :: word)

@[inherit_doc splitWhitespaceAux]
def splitWhitespace (l : List Char) : List (List Char) := splitWhitespaceAux l []

theorem splitWhitespaceAux_word {l : List Char} (h : ∀ c ∈ l, isWhitespace c = false)
    {word : List Char} (hne : word.reverse ++ l ≠ []) :
    splitWhitespaceAux l word = [word.reverse ++ l] := by
  induction l generalizing word with
  | nil =>
    rw [List.append_nil, Ne, List.reverse_eq_nil_iff, ← List.isEmpty_iff] at hne
    rw [splitWhitespaceAux, if_neg hne, List.append_nil]
  | cons c l ih =>
    have hc : isWhitespace c = false := h c List.mem_cons_self
    have happend : (c :: word).reverse ++ l = word.reverse ++ c :: l := by
      rw [List.reverse_cons, List.append_assoc, List.singleton_append]
    rw [splitWhitespaceAux, hc, if_neg Bool.false_ne_true,
      ih (fun d hd ↦ h d (List.mem_cons_of_mem c hd)) (happend ▸ hne), happend]

/-- A text without whitespace is one word. -/
theorem splitWhitespace_word {l : List Char} (h : ∀ c ∈ l, isWhitespace c = false) (hne : l ≠ []) :
    splitWhitespace l = [l] := splitWhitespaceAux_word h hne

/-- `str::replace` of a doubled character by a single one. -/
def undouble (q : Char) : List Char → List Char
  | [] => []
  | [c] => [c]
  | c :: d :: cs => if c = q ∧ d = q then q :: undouble q cs else c :: undouble q (d :: cs)

/-- `[T]::join` with a one-character separator. -/
def join (sep : Char) : List (List Char) → List Char
  | [] => []
  | [l] => l
  | l :: l' :: ls => l ++ sep :: join sep (l' :: ls)

/-- `str::split_once` at a character. -/
def splitOnce (sep : Char) : List Char → Option (List Char × List Char)
  | [] => none
  | c :: cs => if c = sep then some ([], cs) else (splitOnce sep cs).map fun p ↦ (c :: p.1, p.2)

/-- Drop a carriage return at the end. -/
def stripReturn (l : List Char) : List Char := if l.getLast? = some '\r' then l.dropLast else l

/-- `str::lines`: the last line need not be terminated, and is not one when it is empty. -/
def lines (l : List Char) : List (List Char) :=
  let pieces := l.splitOn '\n'
  pieces.dropLast.map stripReturn ++ (pieces.getLast?.filter (· ≠ [])).toList

/-! ## Cutting and joining -/

/-- **A text can be cut at the last occurrence of a character.** -/
theorem append_sep_inj {sep : Char} {a b a' b' : List Char} (hb : sep ∉ b) (hb' : sep ∉ b')
    (h : a ++ sep :: b = a' ++ sep :: b') : a = a' ∧ b = b' := by
  induction a generalizing a' with
  | nil =>
    cases a' with
    | nil => exact ⟨rfl, (List.cons.inj h).2⟩
    | cons c a' =>
      have hmem : sep ∈ b := (List.cons.inj h).2 ▸ by simp
      exact absurd hmem hb
  | cons c a ih =>
    cases a' with
    | nil =>
      have hmem : sep ∈ b' := (List.cons.inj h).2 ▸ by simp
      exact absurd hmem hb'
    | cons c' a' =>
      obtain ⟨rfl, htail⟩ := List.cons.inj h
      obtain ⟨rfl, rfl⟩ := ih htail
      exact ⟨rfl, rfl⟩

theorem splitOnce_append {sep : Char} {a : List Char} (h : sep ∉ a) (b : List Char) :
    splitOnce sep (a ++ sep :: b) = some (a, b) := by
  induction a with
  | nil => simp [splitOnce]
  | cons c a ih =>
    rw [List.mem_cons, not_or] at h
    rw [List.cons_append, splitOnce, if_neg (Ne.symm h.1), ih h.2]
    rfl

theorem splitOnce_eq_none {sep : Char} {l : List Char} (h : sep ∉ l) : splitOnce sep l = none := by
  induction l with
  | nil => rfl
  | cons c l ih =>
    rw [List.mem_cons, not_or] at h
    rw [splitOnce, if_neg (Ne.symm h.1), ih h.2]
    rfl

theorem mem_join {sep c : Char} {ls : List (List Char)} (h : c ∈ join sep ls) :
    c = sep ∨ ∃ l ∈ ls, c ∈ l := by
  induction ls with
  | nil => cases h
  | cons l ls ih =>
    cases ls with
    | nil => exact .inr ⟨l, List.mem_cons_self, h⟩
    | cons l' ls =>
      rw [join, List.mem_append, List.mem_cons] at h
      rcases h with h | rfl | h
      · exact .inr ⟨l, List.mem_cons_self, h⟩
      · exact .inl rfl
      · rcases ih h with rfl | ⟨l'', hmem, hc⟩
        · exact .inl rfl
        · exact .inr ⟨l'', List.mem_cons_of_mem _ hmem, hc⟩

/-- **Joined pieces without the separator are split again.** -/
theorem splitOn_join {sep : Char} {ls : List (List Char)} (h : ∀ l ∈ ls, sep ∉ l) (hne : ls ≠ []) :
    (join sep ls).splitOn sep = ls := by
  induction ls with
  | nil => exact absurd rfl hne
  | cons l ls ih =>
    rw [List.forall_mem_cons] at h
    cases ls with
    | nil => exact List.splitOn_eq_singleton h.1
    | cons l' ls =>
      rw [join, List.splitOn_append_cons_self_of_not_mem h.1, ih h.2 (List.cons_ne_nil l' ls)]

/-- **Terminated lines are read as lines.** -/
theorem lines_flatMap {ls : List (List Char)} (h : ∀ l ∈ ls, '\n' ∉ l ∧ '\r' ∉ l) :
    lines (ls.flatMap (· ++ ['\n'])) = ls := by
  have hsplit : (ls.flatMap (· ++ ['\n'])).splitOn '\n' = ls ++ [[]] := by
    induction ls with
    | nil => rfl
    | cons l ls ih =>
      rw [List.forall_mem_cons] at h
      rw [List.flatMap_cons, List.append_assoc, List.singleton_append,
        List.splitOn_append_cons_self_of_not_mem h.1.1, ih h.2, List.cons_append]
  have hstrip : ls.map stripReturn = ls := by
    have hkeep : ∀ l ∈ ls, stripReturn l = id l := by
      intro l hl
      rw [stripReturn, if_neg]
      · rfl
      · exact fun hlast ↦ (h l hl).2 (List.mem_of_getLast? hlast)
    rw [List.map_congr_left hkeep, List.map_id]
  rw [lines, hsplit]
  simp [hstrip]

/-- **Pieces of one length can be told apart after joining.** -/
theorem join_inj {sep : Char} {n : Nat} (hn : 0 < n) :
    ∀ {as bs : List (List Char)}, (∀ a ∈ as, a.length = n) → (∀ b ∈ bs, b.length = n) →
      join sep as = join sep bs → as = bs
  | [], [], _, _, _ => rfl
  | [a], [b], _, _, h => by rw [join, join] at h; rw [h]
  | a :: a' :: as, b :: b' :: bs, ha, hb, h => by
    rw [join, join] at h
    have hlen : a.length = b.length := by rw [ha a (by simp), hb b (by simp)]
    obtain ⟨hab, htail⟩ := List.append_inj h hlen
    have htail := join_inj hn (fun x hx ↦ ha x (by simp [hx])) (fun x hx ↦ hb x (by simp [hx]))
      (List.cons.inj htail).2
    rw [hab, htail]
  | [], b :: bs, _, hb, h => by
    have hlen := congrArg List.length h
    have := hb b (by simp)
    cases bs <;> simp only [join, List.length_append, List.length_cons, List.length_nil] at hlen <;>
      omega
  | a :: as, [], ha, _, h => by
    have hlen := congrArg List.length h
    have := ha a (by simp)
    cases as <;> simp only [join, List.length_append, List.length_cons, List.length_nil] at hlen <;>
      omega
  | [a], b :: b' :: bs, ha, hb, h => by
    have hlen := congrArg List.length h
    have h1 := ha a (by simp)
    have h2 := hb b (by simp)
    simp only [join, List.length_append, List.length_cons] at hlen
    omega
  | a :: a' :: as, [b], ha, hb, h => by
    have hlen := congrArg List.length h
    have h1 := ha a (by simp)
    have h2 := hb b (by simp)
    simp only [join, List.length_append, List.length_cons] at hlen
    omega

end Text
