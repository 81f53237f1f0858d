import Fsql.Library.Occurrence

/-!
# Texts that are rows of words

A text whose words stand between single blanks is `Text.join ' '` of its words, and what a parser
does with such a text can be read off them:

* `Text.trim_join`, `Text.splitWhitespace_join` — the text is trimmed, and split into its words.
* `Text.infix_join` — a phrase that begins with a blank occurs in the text exactly if its words are
  words of the text, in a row and behind the first one, and the last of them begins the next one
  (`Text.Occurs`).  Such a phrase need not end where a word ends: ` check` occurs in `a checklist`.
* `Text.find_keyword` — a word between blanks is found where it first is a word of the text.
-/

set_option autoImplicit false

namespace Text

/-! ## Words -/

/-- A word is not empty and has no whitespace. -/
def IsWord (w : List Char) : Prop := w ≠ [] ∧ ∀ c ∈ w, isWhitespace c = false

instance (w : List Char) : Decidable (IsWord w) := inferInstanceAs (Decidable (_ ∧ _))

namespace IsWord

variable {w : List Char} (h : IsWord w)
include h

theorem not_mem : ' ' ∉ w := by
  intro hmem
  cases h.2 ' ' hmem

theorem append {v : List Char} (hv : ∀ c ∈ v, isWhitespace c = false) : IsWord (w ++ v) := by
  refine ⟨List.append_ne_nil_of_left_ne_nil h.1 v, fun c hc ↦ ?_⟩
  rcases List.mem_append.mp hc with hc | hc
  · exact h.2 c hc
  · exact hv c hc

theorem cons {c : Char} (hc : isWhitespace c = false) : IsWord (c :: w) :=
  ⟨List.cons_ne_nil c w, List.forall_mem_cons.mpr ⟨hc, h.2⟩⟩

theorem trim_eq : trim w = w :=
  trimBy_eq_self (fun c hc ↦ h.2 c (List.mem_of_mem_head? hc))
    (fun c hc ↦ h.2 c (List.mem_of_mem_getLast? hc))

end IsWord

theorem mem_of_mem_trim {c : Char} {l : List Char} (h : c ∈ trim l) : c ∈ l :=
  (List.dropWhile_suffix _).mem ((List.rdropWhile_prefix _ _).mem h)

/-! ## Rows of words -/

/-- Words, each with a blank behind it. -/
def words (ws : List (List Char)) : List Char := ws.flatMap (· ++ [' '])

theorem words_cons (w : List Char) (ws : List (List Char)) :
    words (w :: ws) = w ++ ' ' :: words ws := by
  rw [words, List.flatMap_cons, List.append_assoc, List.singleton_append, ← words]

variable {ws : List (List Char)}

theorem join_cons {sep : Char} (w : List Char) (hne : ws ≠ []) :
    join sep (w :: ws) = w ++ sep :: join sep ws := by
  obtain ⟨w', ws, rfl⟩ := List.exists_cons_of_ne_nil hne
  rfl

theorem join_append {sep : Char} {us : List (List Char)} (hus : us ≠ []) (hws : ws ≠ []) :
    join sep (us ++ ws) = join sep us ++ sep :: join sep ws := by
  induction us with
  | nil => exact absurd rfl hus
  | cons u us ih =>
    by_cases hne : us = []
    · subst hne
      exact join_cons u hws
    · rw [List.cons_append, join_cons u (List.append_ne_nil_of_left_ne_nil hne ws), ih hne,
        join_cons u hne, List.append_assoc, List.cons_append]

theorem lower_join (ws : List (List Char)) : lower (join ' ' ws) = join ' ' (ws.map lower) := by
  induction ws with
  | nil => rfl
  | cons w ws ih =>
    by_cases hne : ws = []
    · subst hne
      rfl
    · rw [join_cons w hne, lower_append, lower_cons, ih, List.map_cons, join_cons (lower w)]
      · rfl
      · rwa [Ne, List.map_eq_nil_iff]

theorem lower_words (ws : List (List Char)) : lower (words ws) = words (ws.map lower) := by
  induction ws with
  | nil => rfl
  | cons w ws ih => rw [words_cons, lower_append, lower_cons, ih, List.map_cons, words_cons]; rfl

/-- Words with blanks behind them are a row with an empty one at its end. -/
theorem words_eq_join (ws : List (List Char)) : words ws = join ' ' (ws ++ [[]]) := by
  induction ws with
  | nil => rfl
  | cons w ws ih =>
    rw [words_cons, ih, List.cons_append, join_cons w (by simp)]

theorem head?_join {w : List Char} (hw : w ≠ []) (ws : List (List Char)) :
    (join ' ' (w :: ws)).head? = w.head? := by
  obtain ⟨c, w, rfl⟩ := List.exists_cons_of_ne_nil hw
  cases ws <;> rfl

theorem getLast?_join {w : List Char} (hw : w ≠ []) (ws : List (List Char)) :
    (join ' ' (ws ++ [w])).getLast? = w.getLast? := by
  by_cases hne : ws = []
  · subst hne
    rfl
  · rw [join_append hne (List.cons_ne_nil w []), join, List.getLast?_append_cons,
      List.getLast?_cons_of_ne_nil hw]

/-- **A row of words is not trimmed.** -/
theorem trim_join (h : ∀ w ∈ ws, IsWord w) : trim (join ' ' ws) = join ' ' ws := by
  by_cases hne : ws = []
  · subst hne
    rfl
  refine trimBy_eq_self (fun c hc ↦ ?_) (fun c hc ↦ ?_)
  · obtain ⟨w, ws, rfl⟩ := List.exists_cons_of_ne_nil hne
    have hw := h w List.mem_cons_self
    rw [head?_join hw.1] at hc
    exact hw.2 c (List.mem_of_mem_head? hc)
  · have hw := h _ (List.getLast_mem hne)
    rw [← List.dropLast_concat_getLast hne, getLast?_join hw.1] at hc
    exact hw.2 c (List.mem_of_mem_getLast? hc)

theorem trim_cons_join (h : ∀ w ∈ ws, IsWord w) : trim (' ' :: join ' ' ws) = join ' ' ws := by
  rw [trim, trimBy_cons rfl, ← trim, trim_join h]

theorem splitWhitespaceAux_append {l : List Char} (h : ∀ c ∈ l, isWhitespace c = false)
    {word : List Char} (hne : word.reverse ++ l ≠ []) (rest : List Char) :
    splitWhitespaceAux (l ++ ' ' :: rest) word =
      (word.reverse ++ l) :: splitWhitespaceAux rest [] := by
  induction l generalizing word with
  | nil =>
    rw [List.append_nil, Ne, List.reverse_eq_nil_iff, ← List.isEmpty_iff] at hne
    rw [List.nil_append, splitWhitespaceAux, if_pos (by decide), if_neg hne, List.append_nil]
    rfl
  | cons c l ih =>
    have happend : (c :: word).reverse ++ l = word.reverse ++ c :: l := by
      rw [List.reverse_cons, List.append_assoc, List.singleton_append]
    rw [List.cons_append, splitWhitespaceAux, h c List.mem_cons_self, if_neg Bool.false_ne_true,
      ih (fun d hd ↦ h d (List.mem_cons_of_mem c hd)) (happend ▸ hne), happend]

/-- **A row of words is split into them.** -/
theorem splitWhitespace_join (h : ∀ w ∈ ws, IsWord w) : splitWhitespace (join ' ' ws) = ws := by
  induction ws with
  | nil => rfl
  | cons w ws ih =>
    rw [List.forall_mem_cons] at h
    by_cases hne : ws = []
    · subst hne
      exact splitWhitespace_word h.1.2 h.1.1
    · rw [join_cons w hne, splitWhitespace,
        splitWhitespaceAux_append h.1.2 (show [].reverse ++ w ≠ [] from h.1.1), ← splitWhitespace,
        ih h.2]
      rfl

/-- A blank is between words. -/
theorem splitWhitespaceAux_append_blank (a b word : List Char) :
    splitWhitespaceAux (a ++ ' ' :: b) word = splitWhitespaceAux a word ++ splitWhitespace b := by
  induction a generalizing word with
  | nil => rfl
  | cons c a ih =>
    rw [List.cons_append, splitWhitespaceAux, splitWhitespaceAux, ih, ih]
    split
    · rw [List.append_assoc]
    · rfl

theorem splitWhitespace_append_blank (a b : List Char) :
    splitWhitespace (a ++ ' ' :: b) = splitWhitespace a ++ splitWhitespace b :=
  splitWhitespaceAux_append_blank a b []

/-- There is a word where a word has begun, or a character is no whitespace. -/
theorem splitWhitespaceAux_ne_nil {l word : List Char}
    (h : word ≠ [] ∨ ∃ c ∈ l, isWhitespace c = false) : splitWhitespaceAux l word ≠ [] := by
  induction l generalizing word with
  | nil =>
    have hne : word ≠ [] := h.resolve_right (by simp)
    rw [splitWhitespaceAux, if_neg (mt List.isEmpty_iff.mp hne)]
    exact List.cons_ne_nil _ _
  | cons c l ih =>
    rw [splitWhitespaceAux]
    split
    · rename_i hc
      rcases h with hne | ⟨d, hd, hd'⟩
      · rw [if_neg (mt List.isEmpty_iff.mp hne)]
        exact List.cons_ne_nil _ _
      · refine List.append_ne_nil_of_right_ne_nil _ (ih (.inr ⟨d, ?_, hd'⟩))
        rcases List.mem_cons.mp hd with rfl | hd
        · rw [hd'] at hc
          cases hc
        · exact hd
    · exact ih (.inl (List.cons_ne_nil c word))

/-- A word that has begun is the beginning of the first one. -/
theorem exists_splitWhitespaceAux {word : List Char} (hne : word ≠ []) (l : List Char) :
    ∃ more ws, splitWhitespaceAux l word = (word.reverse ++ more) :: ws := by
  induction l generalizing word with
  | nil =>
    rw [splitWhitespaceAux, if_neg (mt List.isEmpty_iff.mp hne)]
    exact ⟨[], [], by rw [List.append_nil]⟩
  | cons c l ih =>
    rw [splitWhitespaceAux, if_neg (mt List.isEmpty_iff.mp hne)]
    split
    · exact ⟨[], splitWhitespaceAux l [], by rw [List.append_nil]; rfl⟩
    · obtain ⟨more, ws, h⟩ := ih (List.cons_ne_nil c word)
      exact ⟨c :: more, ws, by rw [h, List.reverse_cons, List.append_assoc]; rfl⟩

/-! ## Characters behind a word -/

/-- **What does not have the character behind a word** is before it. -/
theorem prefix_append_sep {p : List Char} {sep : Char} (h : sep ∉ p) (w l : List Char) :
    p <+: w ++ sep :: l ↔ p <+: w := by
  constructor
  · intro hpre
    have hsep : w ++ [sep] <+: w ++ sep :: l :=
      (List.prefix_append_right_inj w).mpr (List.cons_prefix_cons.mpr ⟨rfl, List.nil_prefix⟩)
    have hnot : ¬ w ++ [sep] <+: p := fun hp ↦ h (hp.subset (by simp))
    rcases List.prefix_or_prefix_of_prefix hpre hsep with hp | hp
    · rcases List.prefix_concat_iff.mp hp with rfl | hp
      · exact absurd List.prefix_rfl hnot
      · exact hp
    · exact absurd hp hnot
  · exact fun hpre ↦ hpre.trans (List.prefix_append _ _)

/-- **In a text with one separator**, what a pattern has behind its own is behind that one. -/
theorem prefix_of_infix_sep {sep : Char} {a b w l : List Char} (hw : sep ∉ w) (hl : sep ∉ l)
    (h : a ++ sep :: b <:+: w ++ sep :: l) : b <+: l := by
  obtain ⟨s, e, heq⟩ := h
  have hcut : (s ++ a) ++ sep :: (b ++ e) = w ++ sep :: l := by
    rw [← heq]
    simp
  have hcount := congrArg (List.count sep) hcut
  simp only [List.count_append, List.count_cons_self, List.count_eq_zero_of_not_mem hw,
    List.count_eq_zero_of_not_mem hl] at hcount
  have hbehind : sep ∉ b ++ e := by
    rw [← List.count_eq_zero, List.count_append]
    omega
  exact ⟨e, (append_sep_inj hbehind hl hcut).2⟩

/-- **Behind a character that it does not have**, a pattern is found where it is found there, if it
is not in front. -/
theorem find_append_sep {p a : List Char} {sep : Char} (h : sep ∉ p) (hne : p ≠ [])
    (ha : ¬p <:+: a) (b : List Char) :
    find p (a ++ sep :: b) = (find p b).map (· + (a.length + 1)) := by
  induction a with
  | nil =>
    have hpre : ¬p.isPrefixOf (sep :: b) = true := by
      rw [List.isPrefixOf_iff_prefix]
      intro hp
      obtain ⟨c, p, rfl⟩ := List.exists_cons_of_ne_nil hne
      exact h ((List.cons_prefix_cons.mp hp).1 ▸ List.mem_cons_self)
    rw [List.nil_append, find, if_neg hpre]
    rfl
  | cons c a ih =>
    have hpre : ¬p.isPrefixOf (c :: a ++ sep :: b) = true := by
      rw [List.isPrefixOf_iff_prefix, prefix_append_sep h]
      exact fun hp ↦ ha hp.isInfix
    rw [List.cons_append] at hpre ⊢
    rw [find, if_neg hpre, ih fun hp ↦ ha (List.infix_cons hp), Option.map_map]
    rfl

/-- A character is found behind a text without it, -/
theorem findChar_append {c : Char} {l : List Char} (h : c ∉ l) (rest : List Char) :
    findChar c (l ++ c :: rest) = some l.length := by
  have hnone : l.findIdx? (· == c) = none := by
    rw [List.findIdx?_eq_none_iff]
    exact fun d hd ↦ beq_eq_false_iff_ne.mpr fun hdc ↦ h (hdc ▸ hd)
  rw [findChar, List.findIdx?_append, hnone, List.findIdx?_cons]
  simp

/-- and from the end, before a text without it. -/
theorem rfindChar_append {c : Char} {rest : List Char} (h : c ∉ rest) (l : List Char) :
    rfindChar c (l ++ c :: rest) = some l.length := by
  have hreverse : (l ++ c :: rest).reverse = rest.reverse ++ c :: l.reverse := by simp
  have hfind := findChar_append (fun hmem ↦ h (List.mem_reverse.mp hmem)) l.reverse
  rw [findChar] at hfind
  rw [rfindChar, hreverse, hfind, Option.map_some, List.length_append, List.length_cons,
    List.length_reverse]
  congr 1
  omega

/-! ## Phrases -/

/-- The words of a phrase are the first of the row, and its end begins the next one. -/
def Begins : List (List Char) → List Char → List (List Char) → Prop
  | _, _, [] => False
  | [], p, w :: _ => p <+: w
  | v :: vs, p, w :: ws => v = w ∧ Begins vs p ws

/-- The phrase is somewhere in the row. -/
def Occurs (vs : List (List Char)) (p : List Char) : List (List Char) → Prop
  | [] => False
  | w :: ws => Begins vs p (w :: ws) ∨ Occurs vs p ws

theorem Begins.mem {vs : List (List Char)} {p : List Char} (h : Begins vs p ws) :
    ∀ v ∈ vs, v ∈ ws := by
  induction vs generalizing ws with
  | nil => exact fun v hv ↦ absurd hv List.not_mem_nil
  | cons v vs ih =>
    rcases ws with _ | ⟨w, ws⟩
    · exact h.elim
    · obtain ⟨rfl, h⟩ := h
      rw [List.forall_mem_cons]
      exact ⟨List.mem_cons_self, fun v hv ↦ List.mem_cons_of_mem _ (ih h v hv)⟩

/-- The words of a phrase that occurs are words of the row. -/
theorem Occurs.mem {vs : List (List Char)} {p : List Char} (h : Occurs vs p ws) :
    ∀ v ∈ vs, v ∈ ws := by
  induction ws with
  | nil => exact h.elim
  | cons w ws ih =>
    rcases h with h | h
    · exact h.mem
    · exact fun v hv ↦ List.mem_cons_of_mem w (ih h v hv)

/-- A phrase that ends in its first word begins one of the words. -/
theorem occurs_nil_iff {p : List Char} : Occurs [] p ws ↔ ∃ w ∈ ws, p <+: w := by
  induction ws with
  | nil => simp [Occurs]
  | cons w ws ih => simp [Occurs, Begins, ih]

theorem prefix_join {vs : List (List Char)} {p : List Char} (hv : ∀ v ∈ vs, ' ' ∉ v) (hp : ' ' ∉ p)
    (hw : ∀ w ∈ ws, ' ' ∉ w) (hne : ws ≠ []) : words vs ++ p <+: join ' ' ws ↔ Begins vs p ws := by
  induction vs generalizing ws with
  | nil =>
    obtain ⟨w, ws, rfl⟩ := List.exists_cons_of_ne_nil hne
    show p <+: _ ↔ p <+: w
    by_cases hws : ws = []
    · subst hws
      exact Iff.rfl
    · rw [join_cons w hws]
      -- the blank behind the word is not in the phrase
      exact prefix_append_sep hp w _
  | cons v vs ih =>
    rw [List.forall_mem_cons] at hv
    obtain ⟨w, ws, rfl⟩ := List.exists_cons_of_ne_nil hne
    rw [List.forall_mem_cons] at hw
    by_cases hws : ws = []
    · subst hws
      refine iff_of_false (fun hpre ↦ hw.1 ?_) (fun h ↦ by cases vs <;> exact h.2)
      rw [words_cons] at hpre
      exact hpre.subset (by simp)
    · rw [words_cons, List.append_assoc, List.cons_append, join_cons w hws,
        prefix_words_cons hv.1 hw.1, ih hv.2 hw.2 hws]
      rfl

/-- **Where a phrase occurs in a row of words**: behind the first one, where its words do. -/
theorem infix_join {vs : List (List Char)} {p w : List Char} (hv : ∀ v ∈ vs, ' ' ∉ v)
    (hp : ' ' ∉ p) (hw : ∀ u ∈ w :: ws, ' ' ∉ u) :
    ' ' :: (words vs ++ p) <:+: join ' ' (w :: ws) ↔ Occurs vs p ws := by
  induction ws generalizing w with
  | nil =>
    refine iff_of_false (fun h ↦ hw w List.mem_cons_self ?_) (fun h ↦ h)
    exact h.subset List.mem_cons_self
  | cons w' ws ih =>
    rw [List.forall_mem_cons] at hw
    rw [join_cons w (List.cons_ne_nil w' ws), infix_skip hw.1, List.infix_cons_iff,
      List.cons_prefix_cons, prefix_join hv hp hw.2 (List.cons_ne_nil w' ws), ih hw.2, Occurs]
    simp only [true_and]

/-! ## Keywords -/

/-- A keyword cuts the row into the words before it and the words behind it. -/
theorem join_keyword {us : List (List Char)} {k : List Char} (hus : us ≠ []) (hws : ws ≠ []) :
    join ' ' (us ++ k :: ws) = join ' ' us ++ (' ' :: (k ++ [' ']) ++ join ' ' ws) := by
  rw [join_append hus (List.cons_ne_nil k ws), join_cons k hws]
  simp

theorem not_occurs_concat {us : List (List Char)} {k : List Char} (h : k ∉ us) :
    ¬ Occurs [k] [] (us ++ [k]) := by
  induction us with
  | nil => rintro (⟨-, h⟩ | h) <;> exact h
  | cons u us ih =>
    rw [List.mem_cons, not_or] at h
    rintro (⟨rfl, -⟩ | hoccurs)
    · exact h.1 rfl
    · exact ih h.2 hoccurs

/-- **A keyword is found where it first is a word behind the first one.** -/
theorem find_keyword {us : List (List Char)} {u k : List Char} (hus : ∀ w ∈ u :: us, ' ' ∉ w)
    (hk : ' ' ∉ k) (h : k ∉ us) (hws : ws ≠ []) :
    find (' ' :: (k ++ [' '])) (join ' ' (u :: us ++ k :: ws)) =
      some (join ' ' (u :: us)).length := by
  have hdrop : (' ' :: (k ++ [' '])).dropLast = ' ' :: join ' ' [k] := by
    rw [← List.cons_append, List.dropLast_concat]
    rfl
  have hphrase : ' ' :: (k ++ [' ']) = ' ' :: (words [k] ++ []) := by simp [words]
  rw [join_keyword (List.cons_ne_nil u us) hws]
  refine find_append _ ?_
  rw [hdrop, ← join_append (List.cons_ne_nil u us) (List.cons_ne_nil k []), hphrase,
    List.cons_append,
    infix_join (by simpa using hk) List.not_mem_nil]
  · exact not_occurs_concat h
  · intro w hw
    rw [← List.cons_append, List.mem_append, List.mem_singleton] at hw
    rcases hw with hw | rfl
    · exact hus w hw
    · exact hk

end Text
