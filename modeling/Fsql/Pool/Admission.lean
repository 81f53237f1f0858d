import Fsql.Pool.Invariant

/-!
# Schema changes and row locks

A `CREATE` statement looks at the row locks in one critical section and is executed in the next.
In between, a statement of an open transaction can lock rows, so that the schema changes while they
are locked (`ConnectionPool.not_unlocked_of_reachable`).  `unlocked_of_reachable` says that this is
the only way: as long as no statement locks rows while a schema change is between its two sections,
no schema change meets a lock; and a statement that does so lets one meet it.
-/

set_option autoImplicit false

namespace Fsql

open Std

/-- The schema change has passed the check of the row locks. -/
def Phase.isAdmitted : Phase → Bool
  | .admitted _ => true
  | _ => false

namespace ConnectionPool

/-- Some connection is between the two critical sections of a schema change. -/
def Admitted (pool : ConnectionPool) : Prop :=
  ∃ (c : Nat) (connection : Connection), pool.connections[c]? = some connection ∧
    connection.phase.isAdmitted = true

/-- A schema change is applied to the committed catalog. -/
def AppliesDdl (pool : ConnectionPool) : PoolAction → Prop
  | .proceed c _ => ∃ phase ∈ pool.phaseOf c, phase.isAdmitted = true
  | _ => False

section Platform

variable [Platform] {pool pool' : ConnectionPool}

/-- The keys that a step wants to lock: those of a statement of an open transaction. -/
def wantedRows (pool : ConnectionPool) : PoolAction → Result (List String)
  | .enter c _ =>
    match pool.phaseOf c, pool.transactionOf c with
    | some (.called statement), some state => rowsToLock state.catalog statement pool.options
    | _, _ => .ok []
  | _ => .ok []

/-- The step locks nothing while a schema change is between its two critical sections. -/
def Undisturbed (pool : ConnectionPool) (action : PoolAction) : Prop :=
  pool.Admitted → ∀ keys, pool.wantedRows action = .ok keys → keys = []

/-! ## What locking nothing, and something, does -/

variable {shared : SharedDatabase} {state : TransactionState} {statement : Statement}

theorem lockStatementRows_nil (h : ∀ keys, rowsToLock state.catalog statement
    (tableRuntimeOptions shared.database.options) = .ok keys → keys = []) :
    (lockStatementRows shared statement state).2 = (shared, state) := by
  rw [lockStatementRows]
  rcases hkeys : rowsToLock state.catalog statement (tableRuntimeOptions shared.database.options)
    with error | keys
  · rfl
  · obtain rfl := h keys hkeys
    show (reserveInsertRowId shared state statement).2 = _
    cases statement with
    | insert table columns values =>
      -- an insertion locks its primary key
      rw [rowsToLock] at hkeys
      rcases hkey : insertLockKey state.catalog table (.insert table columns values)
        with error | key <;> rw [hkey] at hkeys <;> cases hkeys
    | _ => rfl

/-- **A statement that locks a row leaves it locked**, whether or not it gets all its locks. -/
theorem rowLocks_ne_empty (hs : shared.Inv) (hstate : state.Inv shared)
    (hempty : shared.rowLocks = ∅) {key : String} {keys : List String}
    (h : rowsToLock state.catalog statement (tableRuntimeOptions shared.database.options) =
      .ok (key :: keys)) : (lockStatementRows shared statement state).2.1.rowLocks ≠ ∅ := by
  have hlocking := locking_lockStatementRows hs hstate statement
  have hmem : key ∈ (lockStatementRows shared statement state).2.2.lockedRows := by
    have hacquired := locking_acquire hs hstate (rowsToLock_spec hstate.coherent h)
    have hheld : key ∈ (LockTable.acquire state.id (key :: keys) shared.rowLocks
        state.lockedRows).2.2 := by
      rw [LockTable.acquire, if_neg (by simp [hempty])]
      exact LockTable.mem_acquire_of_mem _ _ ((BTree.mem_insert_set _ _ _).mpr (.inl rfl))
    rw [lockStatementRows, h]
    dsimp only
    generalize LockTable.acquire state.id (key :: keys) shared.rowLocks state.lockedRows = acquired
      at hacquired hheld
    obtain ⟨error | _, rowLocks, lockedRows⟩ := acquired
    · exact hheld
    · exact (locking_reserve hacquired.shared_inv hacquired.inv statement).subset key hheld
  intro hnone
  have hheld := hlocking.inv.holds key hmem
  rw [hnone] at hheld
  cases hheld.symm.trans ExtTreeMap.getElem?_empty

/-! ## The critical sections -/

variable {n : Nat} {tx : Option TransactionState}

omit [Platform] in
theorem releaseLocks_empty (hempty : shared.rowLocks = ∅) (state : TransactionState) :
    releaseLocks shared.rowLocks state = ∅ := by
  refine ExtTreeMap.ext_getElem? fun key ↦ ?_
  rcases h : (releaseLocks shared.rowLocks state)[key]? with _ | owner
  · exact ExtTreeMap.getElem?_empty.symm
  · rw [← LockTable.getElem?_of_release h, hempty]

theorem executeShared_rowLocks (shared : SharedDatabase) (statement : Statement)
    (persist : Option Error) :
    (executeShared shared statement persist).2.rowLocks = shared.rowLocks := by
  rw [executeShared]
  dsimp only
  split
  · rfl
  · split <;> rfl

theorem commitTransaction_rowLocks (hempty : shared.rowLocks = ∅) (persist : Option Error) :
    (commitTransaction shared tx persist).2.1.rowLocks = ∅ := by
  rcases tx with _ | state
  · exact hempty
  · rw [commitTransaction]
    split
    · exact hempty
    · dsimp only
      split
      · exact releaseLocks_empty hempty state
      · exact releaseLocks_empty hempty state

/-- The first critical section locks nothing if there is nothing to lock. -/
theorem enterStatement_rowLocks (hempty : shared.rowLocks = ∅) (persist : Option Error)
    (hnil : ∀ state ∈ tx, ∀ keys, rowsToLock state.catalog statement
      (tableRuntimeOptions shared.database.options) = .ok keys → keys = []) :
    (enterStatement shared n tx statement persist).2.1.rowLocks = ∅ := by
  by_cases hcontrol : statement.isTransactionControl = false
  · rw [enterStatement_eq hcontrol]
    split
    · split
      · exact hempty
      · split <;> exact hempty
    · rcases tx with _ | state
      · exact (executeShared_rowLocks shared statement persist).trans hempty
      · have hlocked := lockStatementRows_nil (hnil state rfl)
        dsimp only
        generalize lockStatementRows shared statement state = locked at hlocked ⊢
        obtain ⟨error | _, shared₁, state₁⟩ := locked
        · exact (congrArg (·.1.rowLocks) hlocked).trans hempty
        · exact (congrArg (·.1.rowLocks) hlocked).trans hempty
  · cases statement with
    | begin =>
      rw [enterStatement, beginTransaction]
      split
      exact hempty
    | commit => exact commitTransaction_rowLocks hempty persist
    | rollback =>
      rcases tx with _ | state
      · exact hempty
      · exact releaseLocks_empty hempty state
    | _ => exact absurd rfl hcontrol

/-- What is admitted has found no lock. -/
theorem enterStatement_admitted {persist : Option Error}
    (h : (enterStatement shared n tx statement persist).1.isAdmitted = true) :
    (enterStatement shared n tx statement persist).2.1.rowLocks = ∅ := by
  by_cases hcontrol : statement.isTransactionControl = false
  · rw [enterStatement_eq hcontrol] at h ⊢
    split at h
    · split at h
      · cases h
      · split at h
        · cases h
        · rename_i hddl htx hlocks
          rw [if_pos hddl, if_neg htx, if_neg hlocks]
          rw [not_not] at hlocks
          exact ExtTreeMap.isEmpty_iff.mp hlocks
    · rcases tx with _ | state
      · cases h
      · dsimp only at h
        split at h <;> cases h
  · cases statement with
    | begin =>
      rw [enterStatement, beginTransaction] at h
      split at h
      cases h
    | commit => cases h
    | rollback => cases h
    | _ => exact absurd rfl hcontrol

theorem proceedStatement_rowLocks {phase phase' : Phase} {shared' : SharedDatabase}
    {tx' : Option TransactionState} {persist : Option Error}
    (h : proceedStatement shared tx phase persist = some (phase', shared', tx')) :
    shared'.rowLocks = shared.rowLocks ∧ phase'.isAdmitted = false := by
  unfold proceedStatement at h
  split at h
  · cases h
    exact ⟨executeShared_rowLocks shared _ persist, rfl⟩
  · cases h
    exact ⟨rfl, rfl⟩
  · cases h

/-! ## The invariant -/

/-- **No schema change is admitted while rows are locked.** -/
def Blocked (pool : ConnectionPool) : Prop := pool.Admitted → pool.shared.rowLocks = ∅

/-- After a step, a connection is admitted that was before, or the one that has moved. -/
theorem StepOf.admitted {c : Nat} (h : StepOf pool c pool') (hadmitted : pool'.Admitted) :
    pool.Admitted ∨ ∃ phase, pool'.phaseOf c = some phase ∧ phase.isAdmitted = true := by
  obtain ⟨c', connection, hconnection, hphase⟩ := hadmitted
  by_cases hne : c' = c
  · subst hne
    exact .inr ⟨connection.phase, phaseOf_eq hconnection, hphase⟩
  · exact .inl ⟨c', connection, (h.others c' hne).symm.trans hconnection, hphase⟩

/-- A first critical section is that of the statement the connection is called with. -/
theorem called_of_enter {c : Nat} {persist : Option Error}
    (h : pool.step (.enter c persist) = some pool') :
    ∃ statement, pool.phaseOf c = some (.called statement) := by
  rw [step, enter] at h
  split at h
  · rename_i connection hconnection
    split at h
    · rename_i statement hphase
      exact ⟨statement, by rw [phaseOf_eq hconnection, hphase]⟩
    · cases h
  · cases h

/-- What a second critical section does. -/
theorem exists_of_proceed {c : Nat} {persist : Option Error}
    (h : pool.step (.proceed c persist) = some pool') :
    ∃ phase phase', pool.phaseOf c = some phase ∧ pool'.phaseOf c = some phase' ∧
      proceedStatement pool.shared (pool.transactionOf c) phase persist =
        some (phase', pool'.shared, pool'.transactionOf c) := by
  rw [step, proceed] at h
  split at h
  · rename_i connection hconnection
    split at h
    · rename_i phase' shared tx' hproceed
      obtain rfl := Option.some.inj h
      have hnew : (pool.connections.insert c { connection with
          phase := phase', transaction := tx' })[c]? =
            some { connection with phase := phase', transaction := tx' } := by
        rw [BTree.getElem?_insert, if_pos rfl]
      refine ⟨connection.phase, phase', phaseOf_eq hconnection, ?_, ?_⟩
      · rw [phaseOf, hnew, Option.map_some]
      · rw [transactionOf_eq hconnection, transactionOf, hnew, Option.bind_some]
        exact hproceed
    · cases h
  · cases h

/-- What a second critical section does to the locks, and where it leaves the connection. -/
theorem proceed_rowLocks {c : Nat} {persist : Option Error}
    (h : pool.step (.proceed c persist) = some pool') :
    pool'.shared.rowLocks = pool.shared.rowLocks ∧
      ∀ phase, pool'.phaseOf c = some phase → phase.isAdmitted = false := by
  obtain ⟨phase, phase', -, hphase', hproceed⟩ := exists_of_proceed h
  obtain ⟨hlocks, hnot⟩ := proceedStatement_rowLocks hproceed
  refine ⟨hlocks, fun other hother ↦ ?_⟩
  obtain rfl := Option.some.inj (hphase'.symm.trans hother)
  exact hnot

omit [Platform] in
theorem callConnection_isAdmitted {connection : Connection}
    (hidle : connection.phase = .idle) (sql : String) (log : LogOutcome) :
    (pool.callConnection connection sql log).phase.isAdmitted = false := by
  have hnot : connection.phase.isAdmitted = false := hidle ▸ rfl
  rw [callConnection]
  split
  · exact hnot
  · dsimp only
    split
    · exact hnot
    · split
      · exact hnot
      · rfl

/-- A step other than a critical section locks nothing and admits nothing. -/
theorem other_rowLocks {action : PoolAction} (h : pool.step action = some pool')
    (henter : ∀ c persist, action ≠ .enter c persist)
    (hproceed : ∀ c persist, action ≠ .proceed c persist) :
    (pool.shared.rowLocks = ∅ → pool'.shared.rowLocks = ∅) ∧
      ∀ phase, pool'.phaseOf action.connection = some phase → phase.isAdmitted = false := by
  have hnew (connection : Connection) (c : Nat) :
      (pool.connections.insert c connection)[c]? = some connection := by
    rw [BTree.getElem?_insert, if_pos rfl]
  cases action with
  | get c =>
    rw [step, get] at h
    split at h
    · cases h
    · obtain rfl := Option.some.inj h
      refine ⟨id, fun phase hphase ↦ ?_⟩
      rw [PoolAction.connection, phaseOf_eq (hnew {} c)] at hphase
      exact Option.some.inj hphase ▸ rfl
  | drop c =>
    rw [step, drop] at h
    split at h
    · obtain rfl := Option.some.inj h
      refine ⟨fun hempty ↦ ?_, fun phase hphase ↦ ?_⟩
      · rename_i transaction _ _ _ _
        rcases transaction with _ | state
        · exact hempty
        · exact releaseLocks_empty hempty state
      · have herased : (pool.connections.erase c)[c]? = none := by
          rw [BTree.getElem?_erase, if_pos rfl]
        rw [PoolAction.connection, phaseOf, herased] at hphase
        cases hphase
    · cases h
  | call c sql log =>
    rw [step, call] at h
    split at h
    · obtain rfl := Option.some.inj h
      refine ⟨id, fun phase hphase ↦ ?_⟩
      rw [PoolAction.connection, phaseOf_eq (hnew _ c)] at hphase
      obtain rfl := Option.some.inj hphase
      exact callConnection_isAdmitted rfl sql log
    · cases h
  | enter c persist => exact absurd rfl (henter c persist)
  | proceed c persist => exact absurd rfl (hproceed c persist)
  | finish c log =>
    rw [step, finish] at h
    split at h
    · split at h
      · obtain rfl := Option.some.inj h
        refine ⟨id, fun phase hphase ↦ ?_⟩
        rw [PoolAction.connection, phaseOf_eq (hnew _ c)] at hphase
        exact Option.some.inj hphase ▸ rfl
      · cases h
    · cases h

/-- **A step keeps schema changes and locks apart**, if it locks nothing while one is admitted. -/
theorem Blocked.step {action : PoolAction} (hinv : pool.Inv) (hblocked : pool.Blocked)
    (hc : pool.Undisturbed action) (h : pool.step action = some pool') : pool'.Blocked := by
  intro hadmitted
  have hstep := step_cases (hinv.ready action.connection) h
  rcases hstep.admitted hadmitted with hbefore | ⟨phase, hphase, hmoved⟩
  · have hempty := hblocked hbefore
    by_cases henter : ∃ c persist, action = .enter c persist
    · obtain ⟨c, persist, rfl⟩ := henter
      obtain ⟨statement, hcalled⟩ := called_of_enter h
      rw [(enter_called hcalled h).1]
      refine enterStatement_rowLocks hempty persist fun state hopen keys hkeys ↦ ?_
      refine hc hbefore keys ?_
      rw [wantedRows, hcalled, Option.mem_def.mp hopen]
      exact hkeys
    · by_cases hproceed : ∃ c persist, action = .proceed c persist
      · obtain ⟨c, persist, rfl⟩ := hproceed
        exact (proceed_rowLocks h).1.trans hempty
      · exact (other_rowLocks h (fun c persist heq ↦ henter ⟨c, persist, heq⟩)
          fun c persist heq ↦ hproceed ⟨c, persist, heq⟩).1 hempty
  · by_cases henter : ∃ c persist, action = .enter c persist
    · obtain ⟨c, persist, rfl⟩ := henter
      obtain ⟨statement, hcalled⟩ := called_of_enter h
      obtain ⟨hshared, -, hphase'⟩ := enter_called hcalled h
      rw [hshared]
      refine enterStatement_admitted ?_
      rw [← Option.some.inj (hphase.symm.trans hphase')]
      exact hmoved
    · by_cases hproceed : ∃ c persist, action = .proceed c persist
      · obtain ⟨c, persist, rfl⟩ := hproceed
        rw [(proceed_rowLocks h).2 phase hphase] at hmoved
        cases hmoved
      · rw [(other_rowLocks h (fun c persist heq ↦ henter ⟨c, persist, heq⟩)
          fun c persist heq ↦ hproceed ⟨c, persist, heq⟩).2 phase hphase] at hmoved
        cases hmoved

theorem blocked_of_init (h : machine.init pool) : pool.Blocked := by
  obtain ⟨database, maxConnections, -, -, hpool⟩ := h
  rw [fromDatabase] at hpool
  split at hpool
  · cases hpool
  · obtain rfl := Except.ok.inj hpool
    exact fun _ ↦ rfl

/-! ## Disturbances -/

/-- A step that wants to lock rows is the first critical section of an `UPDATE`, `DELETE` or
`INSERT` in an open transaction. -/
theorem wantedRows_eq_cons {action : PoolAction} {key : String} {keys : List String}
    (h : pool.wantedRows action = .ok (key :: keys)) :
    ∃ c persist statement state, action = .enter c persist ∧
      pool.phaseOf c = some (.called statement) ∧ pool.transactionOf c = some state ∧
      rowsToLock state.catalog statement pool.options = .ok (key :: keys) := by
  unfold wantedRows at h
  split at h
  · rename_i c persist
    split at h
    · rename_i statement state hphase hopen
      exact ⟨c, persist, statement, state, rfl, hphase, hopen, h⟩
    · cases h
  · cases h

theorem enterStatement_lock {persist : Option Error} {key : String} {keys : List String}
    {options : TableRuntimeOptions}
    (h : rowsToLock state.catalog statement options = .ok (key :: keys)) :
    (enterStatement shared n (some state) statement persist).2.1 =
      (lockStatementRows shared statement state).2.1 := by
  have hcontrol : statement.isTransactionControl = false ∧ statement.isDdl = false := by
    cases statement <;> first | exact ⟨rfl, rfl⟩ | cases h
  rw [enterStatement_eq hcontrol.1, hcontrol.2]
  dsimp only
  rcases lockStatementRows shared statement state with ⟨error | _, shared₁, state₁⟩ <;> rfl

/-- **A disturbance is fatal**: the schema change that is admitted can now be applied while rows are
locked. -/
theorem Blocked.disturb {action : PoolAction} (hinv : pool.Inv) (hblocked : pool.Blocked)
    (hc : ¬pool.Undisturbed action) (h : pool.step action = some pool') :
    ∃ action', pool'.AppliesDdl action' ∧ (pool'.step action').isSome = true ∧
      pool'.shared.rowLocks ≠ ∅ := by
  rw [Undisturbed, Classical.not_imp, Classical.not_forall] at hc
  obtain ⟨hadmitted, keys, hkeys⟩ := hc
  rw [Classical.not_imp] at hkeys
  obtain ⟨key, keys, rfl⟩ := List.exists_cons_of_ne_nil hkeys.2
  obtain ⟨c, persist, statement, state, rfl, hphase, hopen, hrows⟩ := wantedRows_eq_cons hkeys.1
  obtain ⟨c', connection, hconnection, hwaits⟩ := hadmitted
  have hne : c' ≠ c := by
    rintro rfl
    rw [phaseOf_eq hconnection, Option.some.injEq] at hphase
    rw [hphase] at hwaits
    cases hwaits
  have hstep : StepOf pool c pool' := @step_cases _ _ _ (.enter c persist) (hinv.ready c) h
  have hconnection' := (hstep.others c' hne).trans hconnection
  -- the connection that waits has no transaction
  obtain ⟨created, hcreated⟩ : ∃ created, connection.phase = .admitted created := by
    unfold Phase.isAdmitted at hwaits
    split at hwaits
    · exact ⟨_, ‹_›⟩
    · cases hwaits
  have hnone : connection.transaction = none := by
    have := hinv.phases c' connection hconnection
    rw [hcreated] at this
    exact this.2
  refine ⟨.proceed c' none, ⟨_, phaseOf_eq hconnection', hwaits⟩, ?_, ?_⟩
  · show (pool'.proceed c' none).isSome = true
    rw [proceed, hconnection']
    dsimp only
    rw [hcreated, hnone]
    rfl
  · rw [(enter_called hphase h).1, hopen, enterStatement_lock hrows]
    exact rowLocks_ne_empty hinv.shared (hinv.states c state hopen)
      (hblocked ⟨c', connection, hconnection, hwaits⟩) hrows

/-! ## Runs -/

theorem blocked_of_reachableVia (h : machine.ReachableVia Undisturbed pool) : pool.Blocked :=
  h.invariant (fun _ hinit ↦ blocked_of_init hinit) fun _ _ _ hreachable hblocked hc hstep ↦
    hblocked.step (inv_of_reachableVia hreachable) hc hstep

/-- **No schema change is applied while rows are locked**, as long as no statement locks rows while
one is admitted; and a statement that does lets it be applied. -/
theorem unlocked_of_reachable (h : machine.ReachableVia Undisturbed pool) :
    (∀ action, pool.AppliesDdl action → pool.shared.rowLocks = ∅) ∧
      ∀ action pool', pool.step action = some pool' → ¬pool.Undisturbed action →
        ∃ action', pool'.AppliesDdl action' ∧ (pool'.step action').isSome = true ∧
          pool'.shared.rowLocks ≠ ∅ := by
  have hblocked := blocked_of_reachableVia h
  refine ⟨fun action happlies ↦ ?_, fun action pool' hstep hc ↦
    hblocked.disturb (inv_of_reachableVia h) hc hstep⟩
  cases action with
  | proceed c persist =>
    obtain ⟨phase, hphase, hadmitted⟩ := happlies
    obtain ⟨connection, hconnection, rfl⟩ := Option.map_eq_some_iff.mp hphase
    exact hblocked ⟨c, connection, hconnection, hadmitted⟩
  | _ => cases happlies

end Platform

/-! ## Concrete runs -/

instance decidableAdmitted (pool : ConnectionPool) : Decidable pool.Admitted :=
  decidable_of_iff (∃ p ∈ pool.connections.toList, p.2.phase.isAdmitted = true)
    ⟨fun ⟨p, hp, hphase⟩ ↦ ⟨p.1, p.2, (DerivedIndex.mem_toList_iff _ _ _).mp hp, hphase⟩,
      fun ⟨c, connection, hconnection, hphase⟩ ↦
        ⟨(c, connection), (DerivedIndex.mem_toList_iff _ _ _).mpr hconnection, hphase⟩⟩

instance decidableUndisturbed [Platform] (pool : ConnectionPool) (action : PoolAction) :
    Decidable (pool.Undisturbed action) :=
  decidable_of_iff (pool.Admitted → ∀ keys ∈ (pool.wantedRows action).toOption, keys = []) (by
    rw [Undisturbed]
    rcases pool.wantedRows action with error | keys <;> simp [Except.toOption])

/-- An index is created, and a row is inserted in a transaction, in this order. -/
def createThenInsert : List PoolAction :=
  .get 0 :: .get 1 :: long 0 "CREATE TABLE t (a INT PRIMARY KEY)" ++ short 1 "BEGIN"
    ++ [.call 0 "CREATE INDEX i ON t(a)" {}, .enter 0 none]

/-- The index can be created. -/
theorem unlocked_createThenInsert :
    (afterActions createThenInsert).AppliesDdl (.proceed 0 none) ∧
      (afterActions createThenInsert).shared.rowLocks = ∅ := by
  have happlies : ∃ phase ∈ (afterActions createThenInsert).phaseOf 0, phase.isAdmitted = true := by
    decide +kernel
  exact ⟨happlies, (@unlocked_of_reachable Platform.ascii _
    (reachableVia_afterActions createThenInsert (by decide +kernel))).1 (.proceed 0 none) happlies⟩

/-- The row is inserted between the two critical sections of the creation of the index. -/
def insertBetween : List PoolAction :=
  createThenInsert ++ [.call 1 "INSERT INTO t VALUES (1)" {}, .enter 1 none]

/-- **A schema change can be applied while rows are locked.** -/
theorem not_unlocked_of_reachable : ¬∀ [Platform] (pool : ConnectionPool) (action : PoolAction),
    machine.Reachable pool → pool.AppliesDdl action → pool.shared.rowLocks = ∅ := by
  intro h
  have hreachable : (@machine Platform.ascii).Reachable (afterActions insertBetween) :=
    reachableVia_afterActions _ (Machine.stepsSatisfy_true _ _)
  have happlies : ∃ phase ∈ (afterActions insertBetween).phaseOf 0, phase.isAdmitted = true := by
    decide +kernel
  have hlocked : (afterActions insertBetween).shared.rowLocks.isEmpty = false := by decide +kernel
  rw [@h Platform.ascii _ (.proceed 0 none) hreachable happlies] at hlocked
  cases hlocked

end ConnectionPool

end Fsql
