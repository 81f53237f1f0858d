import Mathlib.Data.List.Basic

/-!
# Machines, runs and history variables

A `Machine` is a labelled transition system whose steps are a partial function of the state and of
the action taken.  Nondeterminism — which party moves next, whether a write to disk succeeds — is
in the choice of the action.

* `Machine.ReachableVia M C s` — some run of `M` ends in `s` and all its steps satisfy `C`, a
  condition on the state *before* the step and on the action.  `Machine.Reachable` drops the
  condition.
* `Machine.ReachableVia.invariant` — the induction behind every safety proof, done once: what holds
  at the start and is preserved by each step holds in every state reached.
* `Machine.ReachableVia.transfer` — two machines that step alike as long as some invariant holds.
* `Machine.runFrom` — the run of a given list of actions, for exhibiting one execution; the bridge
  to `ReachableVia` is `Machine.reachableVia_of_runFrom`.
* `Machine.withHistory` — the machine with a history variable beside its state.  It records what
  happened without influencing it: a run with the history is a run without it
  (`Machine.ReachableVia.of_withHistory`).
-/

set_option autoImplicit false

/-- A labelled transition system with functional steps. -/
structure Machine (σ α : Type) where
  /-- The states a run may start in. -/
  init : σ → Prop
  /-- The state an action leads to, `none` when the action is not enabled. -/
  step : σ → α → Option σ

namespace Machine

variable {σ α η : Type} {M : Machine σ α} {C : σ → α → Prop}

/-! ## Reachable states -/

/-- The states in which a run of `M` can be whose steps all satisfy `C`. -/
inductive ReachableVia (M : Machine σ α) (C : σ → α → Prop) : σ → Prop
  | init {s : σ} (h : M.init s) : ReachableVia M C s
  | step {s s' : σ} {a : α} (h : ReachableVia M C s) (hc : C s a) (hs : M.step s a = some s') :
      ReachableVia M C s'

/-- The states in which a run of `M` can be. -/
abbrev Reachable (M : Machine σ α) : σ → Prop := M.ReachableVia fun _ _ ↦ True

theorem ReachableVia.mono {D : σ → α → Prop} (hCD : ∀ s a, C s a → D s a) {s : σ}
    (h : M.ReachableVia C s) : M.ReachableVia D s := by
  induction h with
  | init h => exact .init h
  | step _ hc hs ih => exact .step ih (hCD _ _ hc) hs

/-- **The invariant rule.**  The step may use that its source is itself reachable, so invariants
already established are at hand in the proof of the next one. -/
theorem ReachableVia.invariant {I : σ → Prop} (hinit : ∀ s, M.init s → I s)
    (hstep : ∀ s a s', M.ReachableVia C s → I s → C s a → M.step s a = some s' → I s')
    {s : σ} (h : M.ReachableVia C s) : I s := by
  induction h with
  | init h => exact hinit _ h
  | step hr hc hs ih => exact hstep _ _ _ hr ih hc hs

/-- **A machine that steps as another one** does, where a condition and an invariant hold, has runs
of that one. -/
theorem ReachableVia.transfer {N : Machine σ α} {D : σ → α → Prop} {I : σ → Prop}
    (hinit : ∀ s, M.init s → N.init s ∧ I s)
    (hstep : ∀ s a s', N.ReachableVia D s → I s → C s a → M.step s a = some s' →
      D s a ∧ N.step s a = some s' ∧ I s')
    {s : σ} (h : M.ReachableVia C s) : N.ReachableVia D s ∧ I s := by
  induction h with
  | init h =>
    obtain ⟨hn, hi⟩ := hinit _ h
    exact ⟨.init hn, hi⟩
  | step _ hc hs ih =>
    obtain ⟨hr, hi⟩ := ih
    obtain ⟨hd, hn, hi'⟩ := hstep _ _ _ hr hi hc hs
    exact ⟨hr.step hd hn, hi'⟩

/-! ## The run of a list of actions -/

/-- Take the actions of a list in order, stopping with `none` at one that is not enabled. -/
def runFrom (M : Machine σ α) : σ → List α → Option σ
  | s, [] => some s
  | s, a :: as => (M.step s a).bind fun s' ↦ M.runFrom s' as

/-- The condition `C` holds at every step of the run of a list of actions. -/
def StepsSatisfy (M : Machine σ α) (C : σ → α → Prop) : σ → List α → Prop
  | _, [] => True
  | s, a :: as => C s a ∧ ∀ s', M.step s a = some s' → M.StepsSatisfy C s' as

instance decidableStepsSatisfy [∀ s a, Decidable (C s a)] :
    ∀ (s : σ) (as : List α), Decidable (M.StepsSatisfy C s as)
  | _, [] => isTrue trivial
  | s, a :: as =>
    have (s' : σ) : Decidable (M.StepsSatisfy C s' as) := decidableStepsSatisfy s' as
    have : Decidable (∀ s' ∈ M.step s a, M.StepsSatisfy C s' as) := inferInstance
    inferInstanceAs (Decidable (C s a ∧ ∀ s' ∈ M.step s a, M.StepsSatisfy C s' as))

theorem reachableVia_of_runFrom {s s' : σ} {as : List α} (h : M.ReachableVia C s)
    (hc : M.StepsSatisfy C s as) (hrun : M.runFrom s as = some s') : M.ReachableVia C s' := by
  induction as generalizing s with
  | nil =>
    rw [runFrom, Option.some_inj] at hrun
    exact hrun ▸ h
  | cons a as ih =>
    rw [runFrom, Option.bind_eq_some_iff] at hrun
    obtain ⟨t, ht, hrun⟩ := hrun
    exact ih (h.step hc.1 ht) (hc.2 t ht) hrun

theorem stepsSatisfy_true (s : σ) (as : List α) : M.StepsSatisfy (fun _ _ ↦ True) s as := by
  induction as generalizing s with
  | nil => trivial
  | cons a as ih => exact ⟨trivial, fun s' _ ↦ ih s'⟩

theorem reachable_of_runFrom {s s' : σ} {as : List α} (h : M.init s)
    (hrun : M.runFrom s as = some s') : M.Reachable s' :=
  reachableVia_of_runFrom (.init h) (stepsSatisfy_true s as) hrun

/-- The state a list of actions leads to; it leads nowhere if one of them is not enabled. -/
def after (M : Machine σ α) (s : σ) (as : List α) : σ := (M.runFrom s as).getD s

theorem reachableVia_after {s : σ} {as : List α} (h : M.ReachableVia C s)
    (hc : M.StepsSatisfy C s as) : M.ReachableVia C (M.after s as) := by
  rw [after]
  rcases hrun : M.runFrom s as with _ | s'
  · exact h
  · exact reachableVia_of_runFrom h hc hrun

/-! ## History variables -/

/-- The machine `M` with a history variable, started at `h₀` and updated by `record` from the
state before a step, the action and the state after it. -/
def withHistory (M : Machine σ α) (h₀ : σ → η) (record : σ → η → α → σ → η) :
    Machine (σ × η) α where
  init p := M.init p.1 ∧ p.2 = h₀ p.1
  step p a := (M.step p.1 a).map fun s' ↦ (s', record p.1 p.2 a s')

section withHistory

variable {h₀ : σ → η} {record : σ → η → α → σ → η}

theorem withHistory_step_eq_some {p p' : σ × η} {a : α} :
    (M.withHistory h₀ record).step p a = some p' ↔
      M.step p.1 a = some p'.1 ∧ p'.2 = record p.1 p.2 a p'.1 := by
  rw [withHistory, Option.map_eq_some_iff]
  constructor
  · rintro ⟨s', hs, rfl⟩
    exact ⟨hs, rfl⟩
  · rintro ⟨hs, hh⟩
    exact ⟨p'.1, hs, by rw [← hh]⟩

/-- Forgetting the history of a run leaves a run. -/
theorem ReachableVia.of_withHistory {p : σ × η}
    (h : (M.withHistory h₀ record).ReachableVia (fun p a ↦ C p.1 a) p) : M.ReachableVia C p.1 := by
  induction h with
  | init h => exact .init h.1
  | step _ hc hs ih => exact ih.step hc (withHistory_step_eq_some.mp hs).1

end withHistory

end Machine
