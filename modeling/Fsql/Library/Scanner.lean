import Mathlib.Data.List.Basic

/-!
# Splitting by a scanner

A text is read from left to right with a state, and cut where the state and the next item say so.
The item at which it is cut is dropped.

* `Scanner.splitFirst`, `Scanner.splitAll` — the text in front of and behind the first cut, and the
  pieces between all cuts.
* `splitFirst_eq_none_iff`, `splitFirst_eq_some` — what the first cut is.
* `splitAll_of_splitFirst`, `splitFirst_eq_none_iff_length` — **the two agree**: the pieces are the
  text in front of the first cut and the pieces of what is behind it.
* `intercalate_splitAll`, `splitFirst_of_mem_splitAll` — nothing is lost and every cut is made: the
  pieces make up the text, and are not cut themselves.
-/

set_option autoImplicit false

/-- What reading does to the state, and where it cuts. -/
structure Scanner (σ α : Type) where
  /-- The state behind an item. -/
  next : σ → α → σ
  /-- The text is cut at the item. -/
  cuts : σ → α → Bool

namespace Scanner

variable {σ α : Type} (scanner : Scanner σ α)

/-- The state behind a text. -/
def run (s : σ) (l : List α) : σ := l.foldl scanner.next s

/-- The text in front of the first cut, and the text behind it. -/
def splitFirst : σ → List α → Option (List α × List α)
  | _, [] => none
  | s, a :: l =>
    if scanner.cuts s a then some ([], l)
    else (splitFirst (scanner.next s a) l).map fun p ↦ (a :: p.1, p.2)

/-- The pieces between the cuts.  A cut leaves the state alone. -/
def splitAll : σ → List α → List (List α)
  | _, [] => [[]]
  | s, a :: l =>
    if scanner.cuts s a then [] :: splitAll s l
    else (splitAll (scanner.next s a) l).modifyHead (a :: ·)

/-! ## The first cut -/

/-- **Where there is no cut.** -/
theorem splitFirst_eq_none_iff {s : σ} {l : List α} : scanner.splitFirst s l = none ↔
    ∀ before a behind, l = before ++ a :: behind →
      scanner.cuts (scanner.run s before) a = false := by
  induction l generalizing s with
  | nil =>
    refine iff_of_true rfl fun before a behind h ↦ ?_
    exact absurd h.symm (List.append_ne_nil_of_right_ne_nil _ (List.cons_ne_nil a behind))
  | cons a l ih =>
    rw [splitFirst]
    split
    · rename_i hcut
      refine iff_of_false nofun fun h ↦ ?_
      exact absurd (h [] a l rfl) (by rw [run, List.foldl_nil, hcut]; decide)
    · rename_i hcut
      rw [Option.map_eq_none_iff, ih]
      refine ⟨fun h before b behind heq ↦ ?_, fun h before b behind heq ↦ ?_⟩
      · rcases before with _ | ⟨b', before⟩
        · obtain ⟨rfl, -⟩ := List.cons.inj heq
          exact Bool.eq_false_iff.mpr hcut
        · obtain ⟨rfl, hrest⟩ := List.cons.inj heq
          exact h before b behind hrest
      · exact h (a :: before) b behind (by rw [heq, List.cons_append])

/-- **What the first cut is**: it is one, and in front of it is none. -/
theorem splitFirst_eq_some {s : σ} {l before behind : List α}
    (h : scanner.splitFirst s l = some (before, behind)) :
    ∃ a, l = before ++ a :: behind ∧ scanner.cuts (scanner.run s before) a = true ∧
      scanner.splitFirst s before = none := by
  induction l generalizing s before with
  | nil => cases h
  | cons a l ih =>
    rw [splitFirst] at h
    split at h
    · rename_i hcut
      obtain ⟨rfl, rfl⟩ := Prod.mk.inj (Option.some.inj h)
      exact ⟨a, rfl, hcut, rfl⟩
    · rename_i hcut
      obtain ⟨⟨before', behind'⟩, hrest, heq⟩ := Option.map_eq_some_iff.mp h
      obtain ⟨rfl, rfl⟩ := Prod.mk.inj heq
      obtain ⟨b, rfl, hcut', hnone⟩ := ih hrest
      refine ⟨b, rfl, hcut', ?_⟩
      rw [splitFirst, if_neg hcut, hnone, Option.map_none]

/-! ## All cuts -/

theorem splitAll_ne_nil (s : σ) (l : List α) : scanner.splitAll s l ≠ [] := by
  induction l generalizing s with
  | nil => exact List.cons_ne_nil _ _
  | cons a l ih =>
    rw [splitAll]
    split
    · exact List.cons_ne_nil _ _
    · rw [Ne, List.modifyHead_eq_nil_iff]
      exact ih _

/-- A text without a cut is one piece. -/
theorem splitAll_of_splitFirst_eq_none {s : σ} {l : List α} (h : scanner.splitFirst s l = none) :
    scanner.splitAll s l = [l] := by
  induction l generalizing s with
  | nil => rfl
  | cons a l ih =>
    rw [splitFirst] at h
    split at h
    · cases h
    · rename_i hcut
      rw [Option.map_eq_none_iff] at h
      rw [splitAll, if_neg hcut, ih h, List.modifyHead_cons]

/-- **The first piece is the text in front of the first cut**, and the others are the pieces of the
text behind it. -/
theorem splitAll_of_splitFirst {s : σ} {l before behind : List α}
    (h : scanner.splitFirst s l = some (before, behind)) :
    scanner.splitAll s l = before :: scanner.splitAll (scanner.run s before) behind := by
  induction l generalizing s before with
  | nil => cases h
  | cons a l ih =>
    rw [splitFirst] at h
    split at h
    · rename_i hcut
      obtain ⟨rfl, rfl⟩ := Prod.mk.inj (Option.some.inj h)
      rw [splitAll, if_pos hcut, run, List.foldl_nil]
    · rename_i hcut
      obtain ⟨⟨before', behind'⟩, hrest, heq⟩ := Option.map_eq_some_iff.mp h
      obtain ⟨rfl, rfl⟩ := Prod.mk.inj heq
      rw [splitAll, if_neg hcut, ih hrest, List.modifyHead_cons]
      rfl

/-- **There is no cut exactly if there is one piece.** -/
theorem splitFirst_eq_none_iff_length {s : σ} {l : List α} :
    scanner.splitFirst s l = none ↔ (scanner.splitAll s l).length = 1 := by
  refine ⟨fun h ↦ ?_, fun h ↦ ?_⟩
  · rw [splitAll_of_splitFirst_eq_none scanner h, List.length_singleton]
  · rcases hfirst : scanner.splitFirst s l with _ | ⟨before, behind⟩
    · rfl
    · rw [splitAll_of_splitFirst scanner hfirst, List.length_cons, Nat.add_eq_right,
        List.length_eq_zero_iff] at h
      exact absurd h (splitAll_ne_nil scanner _ _)

/-- **The pieces make up the text**, if it is only cut at one item. -/
theorem intercalate_splitAll {d : α} (hd : ∀ s a, scanner.cuts s a = true → a = d) (s : σ)
    (l : List α) : [d].intercalate (scanner.splitAll s l) = l := by
  induction l generalizing s with
  | nil => rfl
  | cons a l ih =>
    rw [splitAll]
    split
    · rename_i hcut
      obtain ⟨piece, pieces, heq⟩ := List.exists_cons_of_ne_nil (splitAll_ne_nil scanner s l)
      rw [heq, List.intercalate_cons_cons, ← heq, ih, hd s a hcut]
      rfl
    · obtain ⟨piece, pieces, heq⟩ :=
        List.exists_cons_of_ne_nil (splitAll_ne_nil scanner (scanner.next s a) l)
      have hrest := ih (scanner.next s a)
      rw [heq] at hrest ⊢
      rw [List.modifyHead_cons]
      rcases pieces with _ | ⟨piece', pieces⟩
      · rw [List.intercalate_singleton] at hrest ⊢
        rw [hrest]
      · rw [List.intercalate_cons_cons] at hrest ⊢
        rw [List.cons_append, List.cons_append, hrest]

/-- **Every cut is made**: a piece, read on its own, has none, if a text is only cut in the state in
which it is begun. -/
theorem splitFirst_of_mem_splitAll {s₀ : σ} (hreset : ∀ s a, scanner.cuts s a = true → s = s₀)
    {l piece : List α} (h : piece ∈ scanner.splitAll s₀ l) :
    scanner.splitFirst s₀ piece = none := by
  induction hlength : l.length using Nat.strongRecOn generalizing l with
  | ind n ih =>
    rcases hfirst : scanner.splitFirst s₀ l with _ | ⟨before, behind⟩
    · rw [splitAll_of_splitFirst_eq_none scanner hfirst, List.mem_singleton] at h
      exact h ▸ hfirst
    · obtain ⟨a, rfl, hcut, hnone⟩ := splitFirst_eq_some scanner hfirst
      rw [splitAll_of_splitFirst scanner hfirst, hreset _ _ hcut] at h
      rcases List.mem_cons.mp h with rfl | h
      · exact hnone
      · refine ih behind.length ?_ h rfl
        rw [← hlength, List.length_append, List.length_cons]
        omega

end Scanner
