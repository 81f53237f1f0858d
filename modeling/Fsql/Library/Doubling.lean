import Fsql.Library.Occurrence

/-!
# Escaping by doubling

A character that is written twice wherever it stands in a text can be told from one that ends the
text.  `Text.double` writes it twice, and `Text.undouble` reads each pair as one.

* `Text.undouble_double` — a text is read as it was written, and `Text.double_undouble_iff` — the
  texts that are written so are those in which the character comes in pairs.
* `Text.infix_double` — a pattern that does not have the character does not see the difference.
-/

set_option autoImplicit false

namespace Text

/-- Every `q` of a text written twice. -/
def double (q : Char) (l : List Char) : List Char := replaceChar q [q, q] l

theorem double_nil (q : Char) : double q [] = [] := rfl

theorem double_cons_self (q : Char) (l : List Char) : double q (q :: l) = q :: q :: double q l := by
  rw [double, replaceChar, List.flatMap_cons, if_pos rfl, ← replaceChar, ← double]
  rfl

theorem double_cons_of_ne {q c : Char} (h : c ≠ q) (l : List Char) :
    double q (c :: l) = c :: double q l := by
  rw [double, replaceChar, List.flatMap_cons, if_neg h, ← replaceChar, ← double]
  rfl

/-- **Doubling is undone.** -/
theorem undouble_double (q : Char) (l : List Char) : undouble q (double q l) = l := by
  induction l with
  | nil => rfl
  | cons c l ih =>
    by_cases hc : c = q
    · subst hc
      rw [double_cons_self, undouble, if_pos ⟨rfl, rfl⟩, ih]
    · rw [double_cons_of_ne hc]
      cases hl : double q l with
      | nil =>
        rw [hl] at ih
        rw [← ih]
        rfl
      | cons d m => rw [undouble, if_neg (fun h ↦ hc h.1), ← hl, ih]

/-- Every run of `q` in the text has even length. -/
def Doubled (q : Char) : List Char → Bool
  | [] => true
  | [c] => c != q
  | c :: d :: cs => if c = q then d == q && Doubled q cs else Doubled q (d :: cs)

theorem doubled_double (q : Char) (l : List Char) : Doubled q (double q l) = true := by
  induction l with
  | nil => rfl
  | cons c l ih =>
    by_cases hc : c = q
    · subst hc
      rw [double_cons_self, Doubled, if_pos rfl, ih, beq_self_eq_true, Bool.true_and]
    · rw [double_cons_of_ne hc]
      cases hl : double q l with
      | nil => rw [Doubled, bne_iff_ne]; exact hc
      | cons d m => rw [Doubled, if_neg hc, ← hl, ih]

/-- **Which texts are doublings**: those in which the character comes in pairs. -/
theorem double_undouble_iff {q : Char} {l : List Char} :
    double q (undouble q l) = l ↔ Doubled q l = true := by
  constructor
  · intro h
    rw [← h]
    exact doubled_double q _
  · intro h
    fun_induction undouble q l with
    | case1 => rfl
    | case2 c =>
      rw [Doubled, bne_iff_ne] at h
      exact double_cons_of_ne h []
    | case3 c d cs heq ih =>
      obtain ⟨rfl, rfl⟩ := heq
      rw [Doubled, if_pos rfl, beq_self_eq_true, Bool.true_and] at h
      rw [double_cons_self, ih h]
    | case4 c d cs hne ih =>
      rw [Doubled] at h
      split at h
      · rename_i hc
        rw [Bool.and_eq_true, beq_iff_eq] at h
        exact absurd ⟨hc, h.1⟩ hne
      · rename_i hc
        rw [double_cons_of_ne hc, ih h]

/-- Doubling a character that is no letter, and then changing the case. -/
theorem lower_double {q : Char} (h : q.isAlpha = false) (l : List Char) :
    lower (double q l) = double q (lower l) := by
  induction l with
  | nil => rfl
  | cons c l ih =>
    by_cases hc : c = q
    · subst hc
      have hlower : c.toLower = c := (toLower_eq_iff h).mpr rfl
      rw [double_cons_self, lower_cons, lower_cons, lower_cons, ih, hlower, double_cons_self]
    · rw [double_cons_of_ne hc, lower_cons, lower_cons, ih, double_cons_of_ne]
      rwa [Ne, toLower_eq_iff h]

theorem prefix_double {q : Char} {p : List Char} (h : q ∉ p) (l : List Char) :
    p <+: double q l ↔ p <+: l := by
  induction p generalizing l with
  | nil => exact iff_of_true List.nil_prefix List.nil_prefix
  | cons c p ih =>
    have hc : c ≠ q := fun hcq ↦ h (hcq ▸ List.mem_cons_self)
    cases l with
    | nil => exact Iff.rfl
    | cons d l =>
      by_cases hd : d = q
      · subst hd
        rw [double_cons_self, List.cons_prefix_cons, List.cons_prefix_cons]
        simp only [hc, false_and]
      · rw [double_cons_of_ne hd, List.cons_prefix_cons, List.cons_prefix_cons,
          ih (fun hmem ↦ h (List.mem_cons_of_mem c hmem))]

/-- **Doubling a character does not matter to a pattern that does not have it.** -/
theorem infix_double {q : Char} {p : List Char} (h : q ∉ p) (hne : p ≠ []) (l : List Char) :
    p <:+: double q l ↔ p <:+: l := by
  have hq : ¬∃ m, p <+: q :: m := by
    rintro ⟨m, hpre⟩
    obtain ⟨c, p, rfl⟩ := List.exists_cons_of_ne_nil hne
    exact h ((List.cons_prefix_cons.mp hpre).1 ▸ List.mem_cons_self)
  rw [not_exists] at hq
  induction l with
  | nil => exact Iff.rfl
  | cons d l ih =>
    by_cases hd : d = q
    · subst hd
      simp only [double_cons_self, List.infix_cons_iff, hq, false_or, ih]
    · have hpre := prefix_double h (d :: l)
      rw [double_cons_of_ne hd] at hpre ⊢
      simp only [List.infix_cons_iff, ih, hpre]

/-- Doubling a character leaves the number of the others. -/
theorem count_double {q c : Char} (h : c ≠ q) (l : List Char) :
    (double q l).count c = l.count c := by
  induction l with
  | nil => rfl
  | cons d l ih =>
    by_cases hd : d = q
    · subst hd
      rw [double_cons_self, List.count_cons_of_ne h.symm, List.count_cons_of_ne h.symm, ih,
        List.count_cons_of_ne h.symm]
    · rw [double_cons_of_ne hd, List.count_cons, List.count_cons, ih]

/-- And so does undoing it. -/
theorem count_undouble {q c : Char} (h : c ≠ q) (l : List Char) :
    (undouble q l).count c = l.count c := by
  fun_induction undouble q l with
  | case1 => rfl
  | case2 d => rfl
  | case3 d e l heq ih =>
    obtain ⟨rfl, rfl⟩ := heq
    rw [List.count_cons_of_ne h.symm, ih, List.count_cons_of_ne h.symm,
      List.count_cons_of_ne h.symm]
  | case4 d e l hne ih => rw [List.count_cons, List.count_cons, ih]

end Text
