import Fsql.Library.Machine

/-!
# Simulations

A system is understood by exhibiting another one, as simple as possible, of which its clients see
the same.  What is proved about the two is one step; the inductions over their runs are done here.

* A `Service` answers one input after the other, and what its clients see are the answers.
  `Service.Simulates.run` — related states answer every sequence of inputs alike, and are related
  at its end.
* Of a `Machine`, whose steps are those of many parties, the clients see what some of the steps
  show (`Machine.observed`).  `Machine.runs_of_observed` — if every step either shows nothing and
  stays related, or is a step of a labelled transition relation with what it shows for a label, then
  what is seen of a run is a run of the relation.

A condition on the inputs of a service is a condition on the state of the simpler one, so that it
says nothing about an implementation.
-/

set_option autoImplicit false

/-- What a service in some state answers to an input, and the state it is in then. -/
abbrev Service (σ ι ο : Type) := σ → ι → ο × σ

namespace Service

variable {σ σ' τ ι ο : Type}

/-- The answers to a sequence of inputs. -/
def answers (S : Service σ ι ο) : σ → List ι → List ο
  | _, [] => []
  | s, i :: is => (S s i).1 :: S.answers (S s i).2 is

/-- The state after a sequence of inputs. -/
def after (S : Service σ ι ο) : σ → List ι → σ
  | s, [] => s
  | s, i :: is => S.after (S s i).2 is

/-- The service with its answers in other words. -/
def map {ο' : Type} (S : Service σ ι ο) (f : ο → ο') : Service σ ι ο' :=
  fun s i ↦ (f (S s i).1, (S s i).2)

theorem map_apply {ο' : Type} (S : Service σ ι ο) (f : ο → ο') (s : σ) (i : ι) :
    S.map f s i = (f (S s i).1, (S s i).2) :=
  rfl

theorem answers_map {ο' : Type} (S : Service σ ι ο) (f : ο → ο') (s : σ) (is : List ι) :
    (S.map f).answers s is = (S.answers s is).map f := by
  induction is generalizing s with
  | nil => rfl
  | cons i is ih => exact congrArg (f (S s i).1 :: ·) (ih _)

/-- Every input of a sequence meets a condition where it comes. -/
def Along (S : Service σ ι ο) (C : σ → ι → Prop) : σ → List ι → Prop
  | _, [] => True
  | s, i :: is => C s i ∧ S.Along C (S s i).2 is

instance decidableAlong (S : Service σ ι ο) (C : σ → ι → Prop) [∀ s i, Decidable (C s i)] :
    ∀ (s : σ) (is : List ι), Decidable (S.Along C s is)
  | _, [] => isTrue trivial
  | s, i :: is =>
    have : Decidable (S.Along C (S s i).2 is) := decidableAlong S C (S s i).2 is
    inferInstanceAs (Decidable (C s i ∧ S.Along C (S s i).2 is))

theorem along_map {ο' : Type} {S : Service σ ι ο} (f : ο → ο') {C : σ → ι → Prop} {s : σ}
    {is : List ι} (h : S.Along C s is) : (S.map f).Along C s is := by
  induction is generalizing s with
  | nil => trivial
  | cons i is ih => exact ⟨h.1, ih h.2⟩

/-- **One step of one service is one step of another**, where the input meets the condition. -/
def Simulates (S : Service σ ι ο) (T : Service τ ι ο) (C : τ → ι → Prop) (R : σ → τ → Prop) :
    Prop :=
  ∀ {s : σ} {t : τ} {i : ι}, R s t → C t i → (S s i).1 = (T t i).1 ∧ R (S s i).2 (T t i).2

variable {S : Service σ ι ο} {S' : Service σ' ι ο} {T : Service τ ι ο} {C : τ → ι → Prop}
  {R : σ → τ → Prop} {R' : σ' → τ → Prop}

/-- **Related states answer every sequence of inputs alike.** -/
theorem Simulates.run (h : Simulates S T C R) {s : σ} {t : τ} {is : List ι} (hr : R s t)
    (hc : T.Along C t is) :
    S.answers s is = T.answers t is ∧ R (S.after s is) (T.after t is) := by
  induction is generalizing s t with
  | nil => exact ⟨rfl, hr⟩
  | cons i is ih =>
    obtain ⟨hanswer, hnext⟩ := h hr hc.1
    obtain ⟨hanswers, hafter⟩ := ih hnext hc.2
    exact ⟨congrArg₂ List.cons hanswer hanswers, hafter⟩

/-- **A condition on the inputs of an implementation** is one on the state of the simpler service,
if it is so in related states. -/
theorem Simulates.along (h : Simulates S T C R) {D : σ → ι → Prop}
    (hcondition : ∀ {s : σ} {t : τ} {i : ι}, R s t → D s i → C t i) {s : σ} {t : τ} {is : List ι}
    (hr : R s t) (hd : S.Along D s is) : T.Along C t is := by
  induction is generalizing s t with
  | nil => trivial
  | cons i is ih =>
    have hc := hcondition hr hd.1
    exact ⟨hc, ih (h hr hc).2 hd.2⟩

end Service

/-! ## Labelled transition relations -/

/-- **The runs of a labelled transition relation**, with the labels of their steps and the state at
the end. -/
inductive Runs {τ ε : Type} (Start : τ → Prop) (Step : τ → ε → τ → Prop) : List ε → τ → Prop
  | start {t : τ} (h : Start t) : Runs Start Step [] t
  | step {es : List ε} {e : ε} {t t' : τ} (h : Runs Start Step es t) (hstep : Step t e t') :
      Runs Start Step (es ++ [e]) t'

namespace Machine

variable {σ α τ ε : Type}

/-- The machine with what is seen of its run. -/
def observed (M : Machine σ α) (see : σ → α → σ → Option ε) : Machine (σ × List ε) α :=
  M.withHistory (fun _ ↦ []) fun s seen a s' ↦ seen ++ (see s a s').toList

/-- **What is seen of a run is a run**, when it is so of one step. -/
theorem runs_of_observed {M : Machine σ α} {see : σ → α → σ → Option ε} {C : σ → α → Prop}
    {S : τ → Prop} {T : τ → ε → τ → Prop} {R : σ → τ → Prop}
    (hinit : ∀ s, M.init s → ∃ t, S t ∧ R s t)
    (hstep : ∀ s a s' t, R s t → C s a → M.step s a = some s' →
      see s a s' = none ∧ R s' t ∨ ∃ e t', see s a s' = some e ∧ T t e t' ∧ R s' t')
    {s : σ} {seen : List ε} (h : (M.observed see).ReachableVia (fun p a ↦ C p.1 a) (s, seen)) :
    ∃ t, Runs S T seen t ∧ R s t := by
  refine h.invariant (I := fun p ↦ ∃ t, Runs S T p.2 t ∧ R p.1 t) ?_ ?_
  · intro p hp
    obtain ⟨t, hstart, hr⟩ := hinit p.1 hp.1
    exact ⟨t, hp.2 ▸ .start hstart, hr⟩
  · intro p a p' _ ⟨t, hruns, hr⟩ hc hs
    obtain ⟨hs, hseen⟩ := withHistory_step_eq_some.mp hs
    rw [hseen]
    rcases hstep p.1 a p'.1 t hr hc hs with ⟨hsee, hr'⟩ | ⟨e, t', hsee, hlabel, hr'⟩
    · refine ⟨t, ?_, hr'⟩
      rw [hsee, Option.toList_none, List.append_nil]
      exact hruns
    · refine ⟨t', ?_, hr'⟩
      rw [hsee]
      exact hruns.step hlabel

end Machine
