import Fsql.Durable
import Fsql.Pool.Admission

/-!
# Uncommitted work stays invisible

`Catalog.visible` is all there is in a catalog but the counters of row ids.  A step changes the
visible part of the committed catalog only if it is the critical section of a `COMMIT`, or of a
mutating statement outside transactions, and has succeeded (`ConnectionPool.step_visible`).

The call may fail all the same, when its records cannot be appended to the logs afterwards.
`uncommitted_of_reachable` says that this is the only way for a call that fails to have changed
anything.
-/

set_option autoImplicit false

namespace Fsql

open Std

/-- Everything in a catalog but the counters of row ids. -/
def Catalog.visible (catalog : Catalog) : Catalog :=
  ⟨catalog.tables.map fun _ t ↦ { t with nextRowId := 0 }⟩

/-- A counter is not visible. -/
theorem Catalog.visible_insert {catalog : Catalog} {name : String} {t : Table}
    (ht : catalog.tables[name]? = some t) (nextRowId : RowId) :
    Catalog.visible ⟨catalog.tables.insert name { t with nextRowId }⟩ = catalog.visible := by
  refine congrArg Catalog.mk (ExtTreeMap.ext_getElem? fun other ↦ ?_)
  rw [ExtTreeMap.getElem?_map, ExtTreeMap.getElem?_map, BTree.getElem?_insert]
  split
  · rename_i heq
    obtain rfl := heq
    rw [ht]
    rfl
  · rfl

section Platform

variable [Platform] {shared : SharedDatabase} {state : TransactionState} {statement : Statement}
  {n : Nat} {tx : Option TransactionState} {persist : Option Error}

/-! ## The critical sections -/

omit [Platform] in
theorem reserveInsertRowId_visible (shared : SharedDatabase) (state : TransactionState)
    (statement : Statement) :
    (reserveInsertRowId shared state statement).2.1.database.catalog.visible =
      shared.database.catalog.visible := by
  unfold reserveInsertRowId
  split
  · rename_i table columns values
    split
    · rfl
    · rename_i committed hcommitted
      dsimp only
      split
      · exact Catalog.visible_insert hcommitted _
      · exact Catalog.visible_insert hcommitted _
  · rfl

theorem lockStatementRows_visible (shared : SharedDatabase) (statement : Statement)
    (state : TransactionState) :
    (lockStatementRows shared statement state).2.1.database.catalog.visible =
      shared.database.catalog.visible := by
  rw [lockStatementRows]
  split
  · rfl
  · split
    · rfl
    · exact reserveInsertRowId_visible _ _ _

/-- What is executed outside transactions changes the catalog only if it mutates and succeeds. -/
theorem executeShared_visible
    (h : (executeShared shared statement persist).2.database.catalog.visible ≠
      shared.database.catalog.visible) :
    statement.mutatesCatalog = true ∧
      ∃ result, (executeShared shared statement persist).1 = .ok result := by
  constructor
  · by_contra hmutates
    rw [Bool.not_eq_true] at hmutates
    refine h ?_
    rw [executeShared]
    dsimp only
    split
    · rfl
    · split
      · rfl
      · exact congrArg Catalog.visible (executeStatement_of_not_mutates hmutates _ _)
  · rw [executeShared] at h ⊢
    dsimp only at h ⊢
    split at h
    · exact absurd rfl h
    · split at h
      · exact absurd rfl h
      · exact ⟨_, rfl⟩

/-- A `COMMIT` changes the catalog only if there is a transaction and it succeeds. -/
theorem commitTransaction_visible
    (h : (commitTransaction shared tx persist).2.1.database.catalog.visible ≠
      shared.database.catalog.visible) :
    tx.isSome = true ∧ ∃ result, (commitTransaction shared tx persist).1 = .ok result := by
  rcases tx with _ | state
  · exact absurd rfl h
  · refine ⟨rfl, ?_⟩
    rw [commitTransaction] at h ⊢
    split at h
    · exact absurd rfl h
    · dsimp only at h ⊢
      split at h
      · exact absurd rfl h
      · exact ⟨_, rfl⟩

/-- A statement that publishes: a `COMMIT`, or a mutating statement outside transactions. -/
def Statement.Publishes (statement : Statement) (tx : Option TransactionState) : Prop :=
  statement = .commit ∧ tx.isSome = true ∨ statement.mutatesCatalog = true ∧ tx = none

/-- **The first critical section** changes nothing visible unless it publishes and succeeds. -/
theorem enterStatement_visible
    (h : (enterStatement shared n tx statement persist).2.1.database.catalog.visible ≠
      shared.database.catalog.visible) :
    statement.Publishes tx ∧ ∃ result,
      (enterStatement shared n tx statement persist).1 = .returned statement (.ok result) := by
  by_cases hcontrol : statement.isTransactionControl = false
  · rw [enterStatement_eq hcontrol] at h ⊢
    split at h
    · split at h
      · exact absurd rfl h
      · split at h <;> exact absurd rfl h
    · rename_i hddl
      rw [if_neg hddl]
      rcases tx with _ | state
      · obtain ⟨hmutates, result, hresult⟩ := executeShared_visible h
        exact ⟨.inr ⟨hmutates, rfl⟩, result, congrArg (Phase.returned statement) hresult⟩
      · have hsame := lockStatementRows_visible shared statement state
        dsimp only at h
        generalize lockStatementRows shared statement state = locked at h hsame
        obtain ⟨error | _, shared₁, state₁⟩ := locked
        · exact absurd hsame h
        · exact absurd hsame h
  · cases statement with
    | begin =>
      rw [enterStatement, beginTransaction] at h
      split at h
      exact absurd rfl h
    | commit =>
      obtain ⟨hopen, result, hresult⟩ := commitTransaction_visible h
      exact ⟨.inl ⟨rfl, hopen⟩, result, congrArg (Phase.returned .commit) hresult⟩
    | rollback =>
      rcases tx with _ | state
      · exact absurd rfl h
      · exact absurd rfl h
    | _ => exact absurd rfl hcontrol

/-- **The second critical section**, too. -/
theorem proceedStatement_visible {phase phase' : Phase} {shared' : SharedDatabase}
    {tx' : Option TransactionState}
    (hproceed : proceedStatement shared tx phase persist = some (phase', shared', tx'))
    (h : shared'.database.catalog.visible ≠ shared.database.catalog.visible) :
    ∃ statement : Statement, statement.Publishes tx ∧
      ∃ result, phase' = .returned statement (.ok result) := by
  unfold proceedStatement at hproceed
  split at hproceed
  · rename_i statement
    cases hproceed
    obtain ⟨hmutates, result, hresult⟩ := executeShared_visible h
    exact ⟨statement, .inr ⟨hmutates, rfl⟩, result, congrArg (Phase.returned statement) hresult⟩
  · cases hproceed
    exact absurd rfl h
  · cases hproceed

namespace ConnectionPool

variable {pool pool' : ConnectionPool} {changed changed' : Nat → Bool}

/-! ## Steps -/

/-- The step of a connection publishes its statement, and has succeeded. -/
def PublishedBy (pool : ConnectionPool) (c : Nat) (pool' : ConnectionPool) : Prop :=
  ∃ (statement : Statement) (result : QueryResult),
    pool'.phaseOf c = some (.returned statement (.ok result)) ∧
      statement.Publishes (pool.transactionOf c)

/-- **A step changes nothing visible** in the committed catalog, unless it publishes a statement and
has succeeded. -/
theorem step_visible {action : PoolAction} (h : pool.step action = some pool')
    (hne : pool'.committed.visible ≠ pool.committed.visible) :
    pool.PublishedBy action.connection pool' := by
  cases action with
  | get c =>
    rw [step, get] at h
    split at h
    · cases h
    · obtain rfl := Option.some.inj h
      exact absurd rfl hne
  | drop c =>
    rw [step, drop] at h
    split at h
    · obtain rfl := Option.some.inj h
      exact absurd rfl hne
    · cases h
  | call c sql log =>
    rw [step, call] at h
    split at h
    · obtain rfl := Option.some.inj h
      exact absurd rfl hne
    · cases h
  | enter c persist =>
    obtain ⟨statement, hcalled⟩ := called_of_enter h
    obtain ⟨hshared, -, hphase⟩ := enter_called hcalled h
    rw [committed, hshared] at hne
    obtain ⟨hpublishes, result, hresult⟩ := enterStatement_visible hne
    rw [hresult] at hphase
    exact ⟨statement, result, hphase, hpublishes⟩
  | proceed c persist =>
    obtain ⟨phase, phase', -, hphase', hproceed⟩ := exists_of_proceed h
    obtain ⟨statement, hpublishes, result, rfl⟩ := proceedStatement_visible hproceed hne
    exact ⟨statement, result, hphase', hpublishes⟩
  | finish c log =>
    rw [step, finish] at h
    split at h
    · split at h
      · obtain rfl := Option.some.inj h
        exact absurd rfl hne
      · cases h
    · cases h

/-! ## Calls -/

/-- Whether the call of a connection, the last one if none is going on, has changed anything
visible. -/
def nextChanged (pool : ConnectionPool) (changed : Nat → Bool) (action : PoolAction)
    (pool' : ConnectionPool) : Nat → Bool :=
  Function.update changed action.connection (match action with
    | .get _ | .call _ _ _ => false
    | _ => changed action.connection ||
        decide (pool'.committed.visible ≠ pool.committed.visible))

/-- **The pool with what its calls have changed.** -/
def charged : Machine (ConnectionPool × (Nat → Bool)) PoolAction :=
  machine.withHistory (fun _ _ ↦ false) nextChanged

/-- The records of a statement that has succeeded are appended to the logs. -/
def recordsAppended (database : Database) (log : LogOutcome) : Phase → Bool
  | .returned statement (.ok _) => (database.logAfter statement log).isOk
  | _ => true

/-- The records of a call that has changed something are appended to the logs. -/
def LogsClose (p : ConnectionPool × (Nat → Bool)) : PoolAction → Prop
  | .finish c log =>
    p.2 c = true → (p.1.phaseOf c).all (recordsAppended p.1.shared.database log) = true
  | _ => True

/-- What the end of a call does. -/
theorem exists_of_finish {c : Nat} {log : LogOutcome}
    (h : pool.step (.finish c log) = some pool') :
    ∃ statement result connection', pool.phaseOf c = some (.returned statement result) ∧
      pool'.connections[c]? = some connection' ∧ connection'.phase = .idle ∧
      connection'.lastResult = some ((pool.finalResult statement result log).mapError .error) ∧
      pool'.shared = pool.shared := by
  rw [step, finish] at h
  split at h
  · rename_i connection hconnection
    split at h
    · rename_i statement result hphase
      obtain rfl := Option.some.inj h
      refine ⟨statement, result, _, ?_, by rw [BTree.getElem?_insert, if_pos rfl], rfl, rfl, rfl⟩
      rw [phaseOf_eq hconnection, hphase]
    · cases h
  · cases h

/-- A call that has changed something has succeeded so far. -/
def Succeeding (pool : ConnectionPool) (changed : Nat → Bool) : Prop :=
  ∀ (c : Nat) (connection : Connection), pool.connections[c]? = some connection →
    changed c = true →
      (∃ statement result, connection.phase = .returned statement (.ok result)) ∨
        connection.phase = .idle ∧ ∃ result, connection.lastResult = some (.ok result)

omit [Platform] in
/-- Before its critical sections are over, a call has changed nothing. -/
theorem Succeeding.changed_eq_false (h : Succeeding pool changed) {c : Nat} {phase : Phase}
    (hphase : pool.phaseOf c = some phase) (hidle : phase ≠ .idle)
    (hreturned : ∀ statement result, phase ≠ .returned statement result) : changed c = false := by
  obtain ⟨connection, hconnection, rfl⟩ := Option.map_eq_some_iff.mp hphase
  rw [← Bool.not_eq_true]
  intro hchanged
  rcases h c connection hconnection hchanged with ⟨statement, result, heq⟩ | ⟨heq, -⟩
  · exact hreturned statement _ heq
  · exact hidle heq

omit [Platform] in
/-- Once they are over, it has succeeded. -/
theorem Succeeding.ok_of_returned (h : Succeeding pool changed) {c : Nat} {statement : Statement}
    {result : Result QueryResult} (hphase : pool.phaseOf c = some (.returned statement result))
    (hchanged : changed c = true) : ∃ value, result = .ok value := by
  obtain ⟨connection, hconnection, heq⟩ := Option.map_eq_some_iff.mp hphase
  rcases h c connection hconnection hchanged with ⟨statement', value, hreturned⟩ | ⟨hidle, -⟩
  · rw [heq, Phase.returned.injEq] at hreturned
    exact ⟨value, hreturned.2⟩
  · rw [heq] at hidle
    cases hidle

/-- **A step keeps calls that have changed something successful**, if their records are appended. -/
theorem Succeeding.step {action : PoolAction} (hinv : pool.Inv) (h : Succeeding pool changed)
    (hc : LogsClose (pool, changed) action) (hstep : pool.step action = some pool') :
    Succeeding pool' (pool.nextChanged changed action pool') := by
  intro c connection hconnection hchanged
  have hstepOf := step_cases (hinv.ready action.connection) hstep
  by_cases hne : c = action.connection
  · subst hne
    unfold nextChanged at hchanged
    rw [Function.update_self] at hchanged
    -- a critical section that has changed something has succeeded
    have hpublished (hbefore : changed action.connection = false)
        (hchanged : (changed action.connection ||
          decide (pool'.committed.visible ≠ pool.committed.visible)) = true) :
        ∃ statement result, connection.phase = .returned statement (.ok result) := by
      rw [hbefore, Bool.false_or, decide_eq_true_eq] at hchanged
      obtain ⟨statement, result, hphase, -⟩ := step_visible hstep hchanged
      rw [phaseOf_eq hconnection] at hphase
      exact ⟨statement, result, Option.some.inj hphase⟩
    cases action with
    | get c => cases hchanged
    | call c sql log => cases hchanged
    | drop c =>
      rw [ConnectionPool.step, drop] at hstep
      split at hstep
      · obtain rfl := Option.some.inj hstep
        rw [PoolAction.connection, BTree.getElem?_erase, if_pos rfl] at hconnection
        cases hconnection
      · cases hstep
    | enter c persist =>
      obtain ⟨statement, hcalled⟩ := called_of_enter hstep
      exact .inl (hpublished (h.changed_eq_false hcalled (by simp) (by simp)) hchanged)
    | proceed c persist =>
      obtain ⟨phase, phase', hphase, -, hproceed⟩ := exists_of_proceed hstep
      refine .inl (hpublished (h.changed_eq_false hphase ?_ ?_) hchanged)
      · rintro rfl
        cases hproceed
      · rintro statement result rfl
        cases hproceed
    | finish c log =>
      obtain ⟨statement, result, connection', hphase, hconnection', hidle, hlast, hshared⟩ :=
        exists_of_finish hstep
      obtain rfl := Option.some.inj (hconnection'.symm.trans hconnection)
      have hbefore : changed c = true := by
        simpa [committed, hshared, PoolAction.connection] using hchanged
      obtain ⟨value, rfl⟩ := h.ok_of_returned hphase hbefore
      refine .inr ⟨hidle, value, ?_⟩
      have happended := hc hbefore
      rw [hphase] at happended
      rw [hlast, finalResult]
      rcases hafter : pool.shared.database.logAfter statement log with error | _
      · rw [Option.all_some, recordsAppended, hafter] at happended
        cases happended
      · rfl
  · unfold nextChanged at hchanged
    rw [Function.update_of_ne hne] at hchanged
    exact h c connection ((hstepOf.others c hne).symm.trans hconnection) hchanged

/-- **A call that has changed something fails** if its records cannot be appended. -/
theorem error_of_not_logsClose {action : PoolAction} (hc : ¬LogsClose (pool, changed) action)
    (hstep : pool.step action = some pool') :
    ∃ (c : Nat) (connection : Connection) (error : Fault), pool'.connections[c]? = some connection ∧
      connection.phase = .idle ∧ pool.nextChanged changed action pool' c = true ∧
      connection.lastResult = some (.error error) := by
  cases action with
  | finish c log =>
    rw [LogsClose, Classical.not_imp, Bool.not_eq_true] at hc
    obtain ⟨hchanged, happended⟩ := hc
    obtain ⟨statement, result, connection', hphase, hconnection', hidle, hlast, -⟩ :=
      exists_of_finish hstep
    rw [hphase, Option.all_some] at happended
    rcases result with error | value
    · cases happended
    · rw [finalResult] at hlast
      rcases hafter : pool.shared.database.logAfter statement log with error | _
      · rw [hafter] at hlast
        refine ⟨c, connection', .error error, hconnection', hidle, ?_, hlast⟩
        unfold nextChanged
        rw [PoolAction.connection, Function.update_self]
        exact Bool.or_eq_true_iff.mpr (.inl hchanged)
      · rw [recordsAppended, hafter] at happended
        cases happended
  | _ => exact absurd trivial hc

/-! ## Runs -/

theorem inv_of_charged {C : ConnectionPool × (Nat → Bool) → PoolAction → Prop}
    (h : charged.ReachableVia C (pool, changed)) : pool.Inv :=
  inv_of_reachableVia (@Machine.ReachableVia.of_withHistory _ _ _ machine (fun _ _ ↦ True) _ _ _
    (h.mono fun _ _ _ ↦ trivial))

/-- A step of the pool with what its calls have changed. -/
theorem charged_step {action : PoolAction}
    (h : charged.step (pool, changed) action = some (pool', changed')) :
    pool.step action = some pool' ∧ changed' = pool.nextChanged changed action pool' :=
  Machine.withHistory_step_eq_some.mp h

theorem succeeding_of_reachableVia (h : charged.ReachableVia LogsClose (pool, changed)) :
    Succeeding pool changed := by
  refine h.invariant (I := fun p ↦ Succeeding p.1 p.2) ?_ ?_
  · rintro ⟨pool, changed⟩ ⟨-, hchanged⟩ c connection - htrue
    rw [show changed = fun _ ↦ false from hchanged] at htrue
    cases htrue
  · rintro ⟨pool, changed⟩ action ⟨pool', changed'⟩ hreachable hsucceeding hc hstep
    obtain ⟨hpoolStep, rfl⟩ := charged_step hstep
    exact hsucceeding.step (inv_of_charged hreachable) hc hpoolStep

/-- **Uncommitted work never reaches the committed catalog**: a step changes nothing visible there
unless it publishes a statement and has succeeded; and a call that returns has changed something
only if it returns success, as long as the records of such calls are appended to the logs.  Where
they are not, a call returns an error that has changed something. -/
theorem uncommitted_of_reachable (h : charged.ReachableVia LogsClose (pool, changed)) :
    (∀ action pool', pool.step action = some pool' →
      pool'.committed.visible ≠ pool.committed.visible →
        pool.PublishedBy action.connection pool') ∧
    (∀ (c : Nat) (connection : Connection), pool.connections[c]? = some connection →
      connection.phase = .idle → changed c = true →
        ∃ result, connection.lastResult = some (.ok result)) ∧
    ∀ action pool' changed', charged.step (pool, changed) action = some (pool', changed') →
      ¬LogsClose (pool, changed) action →
        ∃ (c : Nat) (connection : Connection) (error : Fault),
          pool'.connections[c]? = some connection ∧ connection.phase = .idle ∧
            changed' c = true ∧ connection.lastResult = some (.error error) := by
  refine ⟨fun action pool' hstep hne ↦ step_visible hstep hne,
    fun c connection hconnection hidle hchanged ↦ ?_,
    fun action pool' changed' hstep hc ↦ ?_⟩
  · rcases succeeding_of_reachableVia h c connection hconnection hchanged with
      ⟨statement, result, hreturned⟩ | ⟨-, hresult⟩
    · rw [hidle] at hreturned
      cases hreturned
    · exact hresult
  · obtain ⟨hpoolStep, rfl⟩ := charged_step hstep
    exact error_of_not_logsClose hc hpoolStep

end ConnectionPool

end Platform

namespace ConnectionPool

/-! ## Concrete runs -/

/-- A pool of one connection, with a binlog. -/
def withBinlog : ConnectionPool :=
  ⟨⟨⟨none, .empty, none, { binlogPath := some "b" }, ∅⟩, ∅⟩, 1, 1, 1, ∅⟩

theorem init_withBinlog : (@charged Platform.ascii).init (withBinlog, fun _ ↦ false) :=
  ⟨⟨withBinlog.shared.database, 1, Catalog.all_empty _, rfl, rfl⟩, rfl⟩

/-- A table is created, and its record is appended to the binlog or not. -/
def createWith (log : LogOutcome) : List PoolAction :=
  [.get 0, .call 0 "CREATE TABLE t (a INT)" {}, .enter 0 none, .proceed 0 none, .finish 0 log]

/-- The pool after that. -/
def createdWith (log : LogOutcome) : ConnectionPool × (Nat → Bool) :=
  (@charged Platform.ascii).after (withBinlog, fun _ ↦ false) (createWith log)

theorem reachableVia_createdWith {C : ConnectionPool × (Nat → Bool) → PoolAction → Prop}
    {log : LogOutcome} (hC : (@charged Platform.ascii).StepsSatisfy C (withBinlog, fun _ ↦ false)
      (createWith log)) :
    (@charged Platform.ascii).ReachableVia C ((createdWith log).1, (createdWith log).2) :=
  Machine.reachableVia_after (.init init_withBinlog) hC

instance decidableLogsClose (p : ConnectionPool × (Nat → Bool)) (action : PoolAction) :
    Decidable (LogsClose p action) :=
  match action with
  | .finish c _ => inferInstanceAs (Decidable (p.2 c = true → _))
  | .get _ | .drop _ | .call .. | .enter .. | .proceed .. => inferInstanceAs (Decidable True)

/-- When the record is appended, the table has been created with success. -/
theorem uncommitted_createdWith : (createdWith {}).2 0 = true ∧
    ∀ connection, (createdWith {}).1.connections[0]? = some connection →
      connection.phase = .idle → ∃ result, connection.lastResult = some (.ok result) := by
  have hreachable := @reachableVia_createdWith LogsClose {} (by decide +kernel)
  have hchanged : (createdWith {}).2 0 = true := by decide +kernel
  exact ⟨hchanged, fun connection hconnection hidle ↦
    (@uncommitted_of_reachable Platform.ascii _ _ hreachable).2.1 0 connection hconnection hidle
      hchanged⟩

/-- The call of the connection has returned an error. -/
def hasFailed (connection : Connection) : Bool :=
  match connection.phase, connection.lastResult with
  | .idle, some (.error _) => true
  | _, _ => false

/-- **A call that fails can have changed the committed catalog.** -/
theorem not_uncommitted_of_reachable : ¬∀ [Platform] (pool : ConnectionPool)
    (changed : Nat → Bool), charged.Reachable (pool, changed) →
      ∀ (c : Nat) (connection : Connection), pool.connections[c]? = some connection →
        connection.phase = .idle → changed c = true →
          ∃ result, connection.lastResult = some (.ok result) := by
  intro h
  let log : LogOutcome := { binlog := some (.execution "disk full") }
  have hreachable := @reachableVia_createdWith (fun _ _ ↦ True) log (Machine.stepsSatisfy_true _ _)
  have hstate : (createdWith log).2 0 = true ∧
      ∃ connection ∈ (createdWith log).1.connections[0]?, hasFailed connection = true := by
    decide +kernel
  obtain ⟨hchanged, connection, hconnection, hfailed⟩ := hstate
  unfold hasFailed at hfailed
  split at hfailed
  · rename_i error hidle hlast
    obtain ⟨result, hresult⟩ :=
      @h Platform.ascii _ _ hreachable 0 connection hconnection hidle hchanged
    rw [hlast] at hresult
    cases hresult
  · cases hfailed

end ConnectionPool

end Fsql
