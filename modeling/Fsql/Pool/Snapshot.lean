import Fsql.Pool.Sessions

/-!
# Transactions read a snapshot

What a connection is answered in a transaction depends on the relations that were committed at
`BEGIN` and on its own statements, and on nothing that other connections do in between
(`ConnectionPool.reads_snapshot`).  All that the others can do is to have a statement refused that
changes rows.

The statement is about what is seen of a pool; its proof is about the relational pool, where
`RelationalPool.Step.session_cases` says what a step can do to a session.
-/

set_option autoImplicit false

namespace Fsql

/-- The connection an event belongs to. -/
def PoolEvent.connection : PoolEvent → Nat
  | performed c _ _ _ | dropped c => c

section Platform

variable [Platform]

/-- **What is seen while a connection works on a snapshot**: each of its statements is executed on
what it has made of the snapshot so far, or refused, and what the others do is of no concern. -/
inductive OnSnapshot (options : TableRuntimeOptions) (c : Nat) (snapshot : Relations) :
    List PoolEvent → Relations → Prop
  /-- The transaction has begun. -/
  | begun : OnSnapshot options c snapshot [] snapshot
  /-- Somebody else does something. -/
  | other {events : List PoolEvent} {relations : Relations} {event : PoolEvent}
      (h : OnSnapshot options c snapshot events relations) (hne : event.connection ≠ c) :
    OnSnapshot options c snapshot (events ++ [event]) relations
  /-- A statement is executed. -/
  | executed {events : List PoolEvent} {relations : Relations}
      (h : OnSnapshot options c snapshot events relations) (statement : Statement)
      (persist : Option Error) :
    OnSnapshot options c snapshot
      (events ++ [.performed c statement persist (relations.execute statement options).1])
      (relations.execute statement options).2
  /-- A statement that would begin a transaction, change the schema or change rows is refused. -/
  | refused {events : List PoolEvent} {relations : Relations}
      (h : OnSnapshot options c snapshot events relations) {statement : Statement}
      (persist : Option Error) (error : Error)
      (hwrites : statement = .begin ∨ statement.isDdl = true ∨ statement.isDml = true) :
    OnSnapshot options c snapshot (events ++ [.performed c statement persist (.error error)])
      relations

namespace RelationalPool

variable {model model' : RelationalPool} {event : PoolEvent}

/-- A step concerns the session of its own connection only. -/
theorem Step.sessions_of_ne (h : model.Step event model') {c : Nat} (hne : event.connection ≠ c) :
    model'.sessions c = model.sessions c := by
  have hput (session : Option Session) {c' : Nat} (hc : c' ≠ c) :
      (model.put c' session).sessions c = model.sessions c :=
    model.sessions_put_of_ne session (Ne.symm hc)
  cases h with
  | begin | rollback | publish | unwritten | unmerged | own | dropped => exact hput _ hne
  | direct hnone hcontrol =>
    rw [RelationalPool.direct]
    split
    · rfl
    · split <;> rfl
  | _ => rfl

/-- **What a step can do to a session**: it starts on the committed relations, executes a statement,
or refuses one. -/
theorem Step.session_cases (h : model.Step event model') {session' : Session}
    (hopen : model'.sessions event.connection = some session') :
    (∃ persist, event = .performed event.connection .begin persist
        (.ok (.ofMessage "transaction started")) ∧ session'.relations = model.committed) ∨
      (∃ session statement persist, model.sessions event.connection = some session ∧
        event = .performed event.connection statement persist
          (session.relations.execute statement (tableRuntimeOptions model.options)).1 ∧
        session'.relations =
          (session.relations.execute statement (tableRuntimeOptions model.options)).2) ∨
      ∃ statement persist error, model.sessions event.connection = some session' ∧
        event = .performed event.connection statement persist (.error error) ∧
        (statement = .begin ∨ statement.isDdl = true ∨ statement.isDml = true) := by
  cases h with
  | begin hnone =>
    obtain rfl := Option.some.inj ((model.sessions_put_self _ _).symm.trans hopen)
    exact .inl ⟨_, rfl, rfl⟩
  | own hsession hcontrol hddl =>
    obtain rfl := Option.some.inj ((model.sessions_put_self _ _).symm.trans hopen)
    exact .inr (.inl ⟨_, _, _, hsession, rfl, rfl⟩)
  | active hactive => exact .inr (.inr ⟨_, _, _, hopen, rfl, .inl rfl⟩)
  | refused hactive hddl => exact .inr (.inr ⟨_, _, _, hopen, rfl, .inr (.inl hddl)⟩)
  | conflict hactive hdml hcontended key =>
    exact .inr (.inr ⟨_, _, _, hopen, rfl, .inr (.inr hdml)⟩)
  | unkeyed hsession hfails => exact .inr (.inr ⟨_, _, _, hopen, rfl, .inr (.inr rfl)⟩)
  | rollback | publish | unwritten | unmerged | dropped =>
    cases (model.sessions_put_self _ _).symm.trans hopen
  | inactive hnone | blocked hnone => cases hnone.symm.trans hopen
  | direct hnone hcontrol =>
    rw [RelationalPool.direct] at hopen
    split at hopen
    · cases hnone.symm.trans hopen
    · split at hopen <;> cases hnone.symm.trans hopen

/-- No step changes the options. -/
theorem Step.options_eq (h : model.Step event model') : model'.options = model.options := by
  cases h with
  | direct hnone hcontrol =>
    rw [RelationalPool.direct]
    split
    · rfl
    · split <;> rfl
  | _ => rfl

end RelationalPool

namespace ConnectionPool

variable {db : RelationalDatabase} {pool : ConnectionPool} {seen : List PoolEvent}

/-- Every session works on relations that have been committed. -/
def Tracked (db : RelationalDatabase) (model : RelationalPool) (seen : List PoolEvent) : Prop :=
  ∀ c session, model.sessions c = some session →
    ∃ before persist after start,
      ((machineOn db).observed see).ReachableVia (fun p a ↦ p.1.HasRoom a) (start, before) ∧
      seen = before ++
        .performed c .begin persist (.ok (.ofMessage "transaction started")) :: after ∧
      OnSnapshot (tableRuntimeOptions model.options) c start.committed.relations after
        session.relations

theorem Tracked.step {model model' : RelationalPool} {event : PoolEvent}
    (h : Tracked db model seen)
    (hreachable : ((machineOn db).observed see).ReachableVia (fun p a ↦ p.1.HasRoom a) (pool, seen))
    (hsaid : pool.Says model) (hstep : model.Step event model') :
    Tracked db model' (seen ++ [event]) := by
  intro c session' hopen'
  rw [hstep.options_eq]
  by_cases hne : event.connection = c
  · subst hne
    rcases hstep.session_cases hopen' with ⟨persist, hevent, hrelations⟩ |
      ⟨session, statement, persist, hopen, hevent, hrelations⟩ |
      ⟨statement, persist, error, hopen, hevent, hwrites⟩
    · refine ⟨seen, persist, [], pool, hreachable, congrArg (seen ++ [·]) hevent, ?_⟩
      rw [hrelations, ← hsaid.committed_eq]
      exact .begun
    · obtain ⟨before, persist', after, start, hstart, rfl, hafter⟩ := h _ session hopen
      refine ⟨before, persist', after ++ [event], start, hstart, by simp, ?_⟩
      have hexecuted := hafter.executed statement persist
      rw [← hevent, ← hrelations] at hexecuted
      exact hexecuted
    · obtain ⟨before, persist', after, start, hstart, rfl, hafter⟩ := h _ session' hopen
      refine ⟨before, persist', after ++ [event], start, hstart, by simp, ?_⟩
      have hrefused := hafter.refused persist error hwrites
      rw [← hevent] at hrefused
      exact hrefused
  · rw [hstep.sessions_of_ne hne] at hopen'
    obtain ⟨before, persist, after, start, hstart, rfl, hafter⟩ := h c session' hopen'
    exact ⟨before, persist, after ++ [event], start, hstart, by simp, hafter.other hne⟩

/-- **A transaction reads a snapshot**: in every interleaving in which there is room for the row ids
that are drawn, what a connection with an open transaction has been answered since `BEGIN` is what
its statements answer on the relations that were committed then, one after the other, as if nobody
else were there — but for statements that are refused; and its working catalog says what they have
made of those relations. -/
theorem reads_snapshot (htokenizer : db.options.fulltextTokenizer = .simple)
    (hworking : db.working = none)
    (h : ((machineOn db).observed see).ReachableVia (fun p a ↦ p.1.HasRoom a) (pool, seen))
    {c : Nat} {state : TransactionState} (hopen : pool.transactionOf c = some state) :
    ∃ before persist after start,
      ((machineOn db).observed see).ReachableVia (fun p a ↦ p.1.HasRoom a) (start, before) ∧
      seen = before ++
        .performed c .begin persist (.ok (.ofMessage "transaction started")) :: after ∧
      OnSnapshot (tableRuntimeOptions db.options) c start.committed.relations after
        state.catalog.relations := by
  have key : ∃ model, pool.Refining model ∧ model.options = db.options ∧ Tracked db model seen := by
    refine h.invariant (I := fun p ↦
      ∃ model, p.1.Refining model ∧ model.options = db.options ∧ Tracked db model p.2) ?_ ?_
    · rintro p ⟨hinit, -⟩
      refine ⟨.start db, ⟨says_start htokenizer hworking hinit, hinit.2⟩, rfl,
        fun c session hopen ↦ ?_⟩
      cases hopen
    · intro p action p' hreachable hinvariant hroom hstep
      obtain ⟨model, hsaid, hoptions, htracked⟩ := hinvariant
      obtain ⟨hpool, hseen⟩ := Machine.withHistory_step_eq_some.mp hstep
      rw [hseen]
      rcases hsaid.step hroom hpool with ⟨hsee, hsaid'⟩ | ⟨event, model', hsee, hmodel, hsaid'⟩
      · rw [hsee, Option.toList_none, List.append_nil]
        exact ⟨model, hsaid', hoptions, htracked⟩
      · rw [hsee]
        exact ⟨model', hsaid', hmodel.options_eq.trans hoptions,
          htracked.step hreachable hsaid.agrees hmodel⟩
  obtain ⟨model, ⟨hsaid, -⟩, hoptions, htracked⟩ := key
  obtain ⟨session, hsession, hshows⟩ := hsaid.session_some hopen
  rw [hshows.relations_eq, ← hoptions]
  exact htracked c session hsession

end ConnectionPool

end Platform

namespace ConnectionPool

/-- A transaction that is open while another one commits. -/
theorem reads_interleavedInserts : ∃ pool seen state,
    ((@machineOn Platform.ascii (.empty none {})).observed see).runFrom (memory 2, [])
        (interleavedInserts.take 27) = some (pool, seen) ∧
      pool.transactionOf 1 = some state ∧
      ∃ before persist after start,
        ((@machineOn Platform.ascii (.empty none {})).observed see).ReachableVia
          (fun p a ↦ @HasRoom Platform.ascii p.1 a) (start, before) ∧
        seen = before ++
          .performed 1 .begin persist (.ok (.ofMessage "transaction started")) :: after ∧
        @OnSnapshot Platform.ascii (tableRuntimeOptions {}) 1 start.committed.relations after
          state.catalog.relations := by
  have hsome : (((@machineOn Platform.ascii (.empty none {})).observed see).runFrom (memory 2, [])
      (interleavedInserts.take 27)).any (·.1.transactionOf 1 |>.isSome) = true := by decide +kernel
  simp only [Option.any_eq_true, Option.isSome_iff_exists] at hsome
  obtain ⟨⟨pool, seen⟩, hrun, state, hopen⟩ := hsome
  have hroom : ((@machineOn Platform.ascii (.empty none {})).observed see).StepsSatisfy
      (fun p a ↦ @HasRoom Platform.ascii p.1 a) (memory 2, []) (interleavedInserts.take 27) := by
    decide +kernel
  exact ⟨pool, seen, state, hrun, hopen, @reads_snapshot Platform.ascii _ _ _ rfl rfl
    (Machine.reachableVia_of_runFrom (.init initOn_memory) hroom hrun) 1 state hopen⟩

end ConnectionPool

end Fsql
