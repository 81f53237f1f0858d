import Fsql.Pool.Counters

/-!
# The history of a transaction

What a claim about a transaction compares its state with is no part of the state: the snapshot it
began with, the committed rows when they were locked, the rows its statements have written.
`Transcript` records them beside a run, as a history variable, and the three questions about
transactions are answered in terms of it.

* `ConnectionPool.locked_of_changed64` — a row that differs from the snapshot is locked, and no
  other transaction has changed it.
* `ConnectionPool.lockedAt_of_commit64` — as long as all rows are changed in transactions, a locked
  row stays what it was when it was locked.  It need not be what it was in the snapshot.
* `ConnectionPool.publishes_iff64` — `COMMIT` publishes what the transaction has written, and
  nothing else, exactly when no row that is locked without having been written is out of date.

Each is proved for counters without a bound and carried over to those of 64 bits, where it holds as
long as there is room for every row id that is drawn (`ConnectionPool.recorded_of_recorded64`).
Without room, two transactions can have one row locked (`not_locked_of_changed`).
-/

set_option autoImplicit false

namespace Fsql

/-- **What is recorded of the open transaction of a connection.** -/
structure Transcript where
  /-- The catalog it began with. -/
  snapshot : Catalog
  /-- For a locked row, the committed row when it was locked. -/
  lockedAt : String → RowId → Option Row
  /-- The rows of the statement that has been executed last and not yet returned. -/
  pending : List (String × RowId)
  /-- The rows of the statements that have returned successfully. -/
  written : List (String × RowId)

namespace ConnectionPool

section Platform

variable [Platform]

/-- The call returns successfully with this step. -/
def Succeeds (pool : ConnectionPool) (action : PoolAction) : Prop :=
  match action, pool.phaseOf action.connection with
  | .finish _ log, some (.returned statement result) =>
    (pool.finalResult statement result log).isOk = true
  | _, _ => False

instance decidableSucceeds (pool : ConnectionPool) (action : PoolAction) :
    Decidable (pool.Succeeds action) := by
  unfold Succeeds
  split <;> infer_instance

/-- The rows of the statement that is executed with this step. -/
def executedRows (pool : ConnectionPool) (catalog : Catalog) (action : PoolAction) :
    List (String × RowId) :=
  match action, pool.phaseOf action.connection with
  | .proceed _ _, some (.locked statement) => touchedRows catalog statement pool.options
  | _, _ => []

/-- The transcript after a step of the connection. -/
def nextTranscript (pool : ConnectionPool) (t : Transcript) (action : PoolAction)
    (pool' : ConnectionPool) : Transcript :=
  match pool.transactionOf action.connection, pool'.transactionOf action.connection with
  | none, some state => ⟨state.catalog, fun _ _ ↦ none, [], []⟩
  | some state, some _ =>
    { snapshot := t.snapshot
      lockedAt := fun table rowId ↦
        if rowLockKey table rowId ∈ state.lockedRows then t.lockedAt table rowId
        else pool.committed.version table rowId
      pending := pool.executedRows state.catalog action
      written := if pool.Succeeds action then t.pending ++ t.written else t.written }
  | _, none => t

/-- **The pool with the transcripts of its connections.** -/
def recorded : Machine (ConnectionPool × (Nat → Transcript)) PoolAction :=
  machine.withHistory (fun _ _ ↦ ⟨.empty, fun _ _ ↦ none, [], []⟩)
    fun pool history action pool' ↦ Function.update history action.connection
      (pool.nextTranscript (history action.connection) action pool')

/-- **The pool with counters of 64 bits**, and with the transcripts of its connections. -/
def recorded64 : Machine (ConnectionPool × (Nat → Transcript)) PoolAction :=
  machine64.withHistory (fun _ _ ↦ ⟨.empty, fun _ _ ↦ none, [], []⟩)
    fun pool history action pool' ↦ Function.update history action.connection
      (pool.nextTranscript (history action.connection) action pool')

variable {pool pool' : ConnectionPool} {history history' : Nat → Transcript}

/-- A step of the recorded pool. -/
theorem recorded_step {action : PoolAction}
    (h : recorded.step (pool, history) action = some (pool', history')) :
    pool.step action = some pool' ∧ history' = Function.update history action.connection
      (pool.nextTranscript (history action.connection) action pool') :=
  Machine.withHistory_step_eq_some.mp h

/-- What holds of every pool holds of the recorded ones. -/
theorem inv_of_recorded {C : ConnectionPool → PoolAction → Prop}
    (h : recorded.ReachableVia (fun p a ↦ C p.1 a) (pool, history)) : pool.Inv :=
  inv_of_reachableVia h.of_withHistory

/-- **As long as there is room**, the runs with counters of 64 bits are those without a bound. -/
theorem recorded_of_recorded64 {C : ConnectionPool → PoolAction → Prop}
    (h : recorded64.ReachableVia (fun p a ↦ p.1.HasRoom a ∧ C p.1 a) (pool, history)) :
    recorded.ReachableVia (fun p a ↦ C p.1 a) (pool, history) ∧ pool.committed.Fits := by
  refine h.transfer (I := fun p ↦ p.1.committed.Fits) ?_ ?_
  · rintro p ⟨⟨hinit, hfits⟩, hhistory⟩
    exact ⟨⟨hinit, hhistory⟩, hfits⟩
  · rintro ⟨pool, history⟩ action p' hreachable hfits ⟨hroom, hc⟩ hstep
    obtain ⟨hstep, hhistory⟩ := Machine.withHistory_step_eq_some.mp hstep
    obtain ⟨hsame, hfits'⟩ := step64_eq (inv_of_recorded hreachable) hfits hroom
    have hstep : pool.step64 action = some p'.1 := hstep
    rw [hsame] at hstep
    exact ⟨hc, Machine.withHistory_step_eq_some.mpr ⟨hstep, hhistory⟩, hfits' p'.1 hstep⟩

/-- The same without a further condition. -/
theorem reachable_of_recorded64
    (h : recorded64.ReachableVia (fun p a ↦ p.1.HasRoom a) (pool, history)) :
    recorded.Reachable (pool, history) ∧ pool.committed.Fits :=
  recorded_of_recorded64 (C := fun _ _ ↦ True) (h.mono fun _ _ hroom ↦ ⟨hroom, trivial⟩)

/-! ## What a step changes in a transaction -/

/-- **A step of an open transaction** keeps its locks, and changes no row but locked ones. -/
structure Kept (shared shared' : SharedDatabase) (state state' : TransactionState) : Prop where
  subset : ∀ key ∈ state.lockedRows, key ∈ state'.lockedRows
  changed (table : String) (rowId : RowId) : state'.catalog.version table rowId ≠
    state.catalog.version table rowId → rowLockKey table rowId ∈ state'.lockedRows
  committed (table : String) (rowId : RowId) : shared'.database.catalog.version table rowId =
    shared.database.catalog.version table rowId

theorem effect_kept {phase : Option Phase} {shared shared' : SharedDatabase} {n n' : Nat}
    {tx tx' : Option TransactionState} (h : Effect phase shared n tx shared' n' tx')
    (hs : shared.Inv) (hstate : ∀ state ∈ tx, state.Inv shared) :
    ∀ state ∈ tx, ∀ state' ∈ tx', Kept shared shared' state state' := by
  cases h with
  | quiet =>
    intro state hopen state' hopen'
    obtain rfl := Option.some.inj (hopen.symm.trans hopen')
    exact ⟨fun _ hkey ↦ hkey, fun _ _ hne ↦ absurd rfl hne, fun _ _ ↦ rfl⟩
  | lock state₁ statement =>
    intro state hopen state' hopen'
    obtain rfl := Option.some.inj hopen
    obtain rfl := Option.some.inj hopen'
    have hlocking := locking_lockStatementRows hs (hstate state₁ rfl) statement
    exact ⟨hlocking.subset, fun table rowId hne ↦
      absurd (hlocking.stagedVersion table rowId) hne, hlocking.version⟩
  | write state₁ statement hphase hddl hcovered =>
    intro state hopen state' hopen'
    obtain rfl := Option.some.inj hopen
    obtain rfl := Option.some.inj hopen'
    refine ⟨fun _ hkey ↦ hkey, fun table rowId hne ↦ ?_, fun _ _ ↦ rfl⟩
    by_contra hfree
    have hchanges := @executeStatement_changes _ (tableRuntimeOptions shared.database.options)
      state₁.catalog (hstate state₁ rfl).coherent statement
    have huntouched : (table, rowId) ∉ touchedRows state₁.catalog statement
        (tableRuntimeOptions shared.database.options) := fun htouched ↦
      hfree (hcovered (table, rowId) htouched)
    exact hne (hchanges.version huntouched)
  | _ => simp

/-- A transaction is opened without locks. -/
theorem effect_opened {phase : Option Phase} {shared shared' : SharedDatabase} {n n' : Nat}
    {tx tx' : Option TransactionState} (h : Effect phase shared n tx shared' n' tx')
    (hnone : tx = none) : ∀ state ∈ tx', state.lockedRows = ∅ := by
  cases h with
  | quiet => simp [hnone]
  | begin =>
    intro state hopen
    obtain rfl := Option.some.inj hopen
    rfl
  | lock => cases hnone
  | write => cases hnone
  | _ => simp

/-! ## Changed rows are locked -/

/-- **What the transcript of a transaction says is locked.** -/
structure Recorded (t : Transcript) (state : TransactionState) : Prop where
  changed (table : String) (rowId : RowId) : state.catalog.version table rowId ≠
    t.snapshot.version table rowId → rowLockKey table rowId ∈ state.lockedRows
  pending : ∀ p ∈ t.pending, rowLockKey p.1 p.2 ∈ state.lockedRows
  written : ∀ p ∈ t.written, rowLockKey p.1 p.2 ∈ state.lockedRows

/-- The rows of the statement that is executed are locked. -/
theorem executedRows_locked (hinv : pool.Inv) {action : PoolAction} {state : TransactionState}
    (hopen : pool.transactionOf action.connection = some state) :
    ∀ p ∈ pool.executedRows state.catalog action, rowLockKey p.1 p.2 ∈ state.lockedRows := by
  intro p hp
  unfold executedRows at hp
  split at hp
  · rename_i c persist statement hphase
    obtain ⟨connection, hconnection, hlocked⟩ := Option.map_eq_some_iff.mp hphase
    have hready := hinv.phases _ connection hconnection
    rw [hlocked, ← transactionOf_eq hconnection] at hready
    exact hready.2 state hopen p hp
  · cases hp

theorem recorded_step_self {action : PoolAction} (hinv : pool.Inv)
    (hstep : StepOf pool action.connection pool') {t : Transcript} {state' : TransactionState}
    (hopen' : pool'.transactionOf action.connection = some state')
    (h : ∀ state, pool.transactionOf action.connection = some state → Recorded t state) :
    Recorded (pool.nextTranscript t action pool') state' := by
  have heffect := hstep.effect
  rw [hopen'] at heffect
  cases hopen : pool.transactionOf action.connection with
  | none =>
    rw [nextTranscript, hopen, hopen']
    exact ⟨fun _ _ hne ↦ absurd rfl hne, by simp, by simp⟩
  | some state =>
    rw [hopen] at heffect
    have hready := (hinv.ready action.connection).state
    rw [hopen] at hready
    obtain ⟨hkept, hchanged, -⟩ := effect_kept heffect hinv.shared hready state rfl state' rfl
    have hrecorded := h state hopen
    rw [nextTranscript, hopen, hopen']
    refine ⟨fun table rowId hne ↦ ?_, fun p hp ↦ ?_, fun p hp ↦ ?_⟩
    · by_cases hsame : state'.catalog.version table rowId = state.catalog.version table rowId
      · rw [hsame] at hne
        exact hkept _ (hrecorded.changed table rowId hne)
      · exact hchanged table rowId hsame
    · exact hkept _ (executedRows_locked hinv hopen p hp)
    · simp only at hp
      split at hp
      · rcases List.mem_append.mp hp with hpending | hwritten
        · exact hkept _ (hrecorded.pending p hpending)
        · exact hkept _ (hrecorded.written p hwritten)
      · exact hkept _ (hrecorded.written p hp)

/-- What an open transaction has changed or written is locked, in every run. -/
theorem recorded_of_reachableVia {C : ConnectionPool → PoolAction → Prop}
    (h : recorded.ReachableVia (fun p a ↦ C p.1 a) (pool, history)) (c : Nat)
    (state : TransactionState) (hopen : pool.transactionOf c = some state) :
    Recorded (history c) state := by
  have key := h.invariant
    (I := fun p ↦ ∀ c state, p.1.transactionOf c = some state → Recorded (p.2 c) state) ?_ ?_
  · exact key c state hopen
  · rintro ⟨pool, history⟩ ⟨hinit, -⟩ c state hopen
    obtain ⟨database, maxConnections, -, -, hpool⟩ := hinit
    rw [fromDatabase] at hpool
    split at hpool
    · cases hpool
    · cases hpool
      simp [transactionOf] at hopen
  · rintro ⟨pool, history⟩ action ⟨pool', history'⟩ hreachable hrecorded - hstep c state' hopen'
    have hinv := inv_of_recorded hreachable
    obtain ⟨hpoolStep, rfl⟩ := recorded_step hstep
    have hstepOf := step_cases (hinv.ready action.connection) hpoolStep
    by_cases hc : c = action.connection
    · subst hc
      simp only [Function.update_self]
      exact recorded_step_self hinv hstepOf hopen' (hrecorded _)
    · simp only [Function.update_of_ne hc]
      rw [hstepOf.transactionOf_ne hc] at hopen'
      exact hrecorded c state' hopen'

/-- A changed row is locked, in the transaction and in the table all share, and no other open
transaction has changed it. -/
theorem locked_of_changed (h : recorded.Reachable (pool, history)) {c : Nat}
    {state : TransactionState} (hopen : pool.transactionOf c = some state) {table : String}
    {rowId : RowId} (hchanged : state.catalog.version table rowId ≠
      (history c).snapshot.version table rowId) :
    rowLockKey table rowId ∈ state.lockedRows ∧
      pool.shared.rowLocks[rowLockKey table rowId]? = some state.id ∧
      ∀ c' state', c' ≠ c → pool.transactionOf c' = some state' →
        state'.catalog.version table rowId = (history c').snapshot.version table rowId := by
  have hinv := inv_of_recorded (C := fun _ _ ↦ True) h
  have hrecorded := recorded_of_reachableVia (C := fun _ _ ↦ True) h
  have hlocked := (hrecorded c state hopen).changed table rowId hchanged
  refine ⟨hlocked, (hinv.states c state hopen).holds _ hlocked, fun c' state' hne hopen' ↦ ?_⟩
  by_contra hchanged'
  have hlocked' := (hrecorded c' state' hopen').changed table rowId hchanged'
  exact hinv.id_ne hne hopen hopen' ((hinv.states c' state' hopen').holds.eq_of_mem
    (hinv.states c state hopen).holds hlocked' hlocked)

/-- **A changed row is locked**, in the transaction and in the table all share, and no other open
transaction has changed it: in every run in which there is room for the row ids that are drawn. -/
theorem locked_of_changed64
    (h : recorded64.ReachableVia (fun p a ↦ p.1.HasRoom a) (pool, history)) {c : Nat}
    {state : TransactionState} (hopen : pool.transactionOf c = some state) {table : String}
    {rowId : RowId} (hchanged : state.catalog.version table rowId ≠
      (history c).snapshot.version table rowId) :
    rowLockKey table rowId ∈ state.lockedRows ∧
      pool.shared.rowLocks[rowLockKey table rowId]? = some state.id ∧
      ∀ c' state', c' ≠ c → pool.transactionOf c' = some state' →
        state'.catalog.version table rowId = (history c').snapshot.version table rowId :=
  locked_of_changed (reachable_of_recorded64 h).1 hopen hchanged

/-! ## Locked rows stay what they were -/

/-- The connection is called with a statement that changes rows. -/
def calledDml : Option Phase → Bool
  | some (.called statement) => statement.isDml
  | _ => false

/-- Rows are changed in transactions only. -/
def DmlInTransactions (pool : ConnectionPool) (action : PoolAction) : Prop :=
  calledDml (pool.phaseOf action.connection) = true →
    (pool.transactionOf action.connection).isSome = true

instance decidableDmlInTransactions (pool : ConnectionPool) (action : PoolAction) :
    Decidable (pool.DmlInTransactions action) :=
  inferInstanceAs (Decidable (_ → _))

theorem touchedRows_of_not_isDml {catalog : Catalog} {statement : Statement}
    {options : TableRuntimeOptions} (h : statement.isDml = false) :
    touchedRows catalog statement options = [] := by
  cases statement <;> first | rfl | cases h

/-- **A committed row changes only when its transaction commits**, rows being changed in
transactions. -/
theorem effect_committed {phase : Option Phase} {shared shared' : SharedDatabase} {n n' : Nat}
    {tx tx' : Option TransactionState} (h : Effect phase shared n tx shared' n' tx')
    (hs : shared.Inv) (hstate : ∀ state ∈ tx, state.Inv shared)
    (hdml : calledDml phase = true → tx.isSome = true) (table : String) (rowId : RowId)
    (hne : shared'.database.catalog.version table rowId ≠
      shared.database.catalog.version table rowId) :
    ∃ state ∈ tx, rowLockKey table rowId ∈ state.lockedRows := by
  cases h with
  | lock state statement =>
    have hlocking := locking_lockStatementRows hs (hstate state rfl) statement
    exact absurd (hlocking.version table rowId) hne
  | publish state merged hmerged =>
    refine ⟨state, rfl, ?_⟩
    by_contra hfree
    refine hne ?_
    have hversion := version_mergeCatalogs ((hstate state rfl).mergeInput hs) hmerged
      (hstate state rfl).staged table rowId
    rw [if_neg hfree] at hversion
    exact hversion
  | direct statement hphase =>
    have hdmlFalse : statement.isDml = false := by
      rcases hphase with rfl | ⟨-, hddl⟩
      · rw [← Bool.not_eq_true]
        exact fun htrue ↦ nomatch hdml htrue
      · cases statement <;> first | rfl | cases hddl
    have hchanges := @executeStatement_changes _ (tableRuntimeOptions shared.database.options) _
      hs.coherent statement
    rw [touchedRows_of_not_isDml hdmlFalse] at hchanges
    exact absurd (hchanges.version (List.not_mem_nil)) hne
  | _ => exact absurd rfl hne

/-- **A locked row stays what it was when it was locked**, rows being changed in transactions. -/
theorem version_lockedAt
    (h : recorded.ReachableVia (fun p a ↦ DmlInTransactions p.1 a) (pool, history)) (c : Nat)
    (state : TransactionState) (hopen : pool.transactionOf c = some state) (table : String)
    (rowId : RowId) (hlocked : rowLockKey table rowId ∈ state.lockedRows) :
    pool.committed.version table rowId = (history c).lockedAt table rowId := by
  have key := h.invariant
    (I := fun p ↦ ∀ c state, p.1.transactionOf c = some state → ∀ table rowId,
      rowLockKey table rowId ∈ state.lockedRows →
        p.1.committed.version table rowId = (p.2 c).lockedAt table rowId) ?_ ?_
  · exact key c state hopen table rowId hlocked
  · rintro ⟨pool, history⟩ ⟨hinit, -⟩ c state hopen
    obtain ⟨database, maxConnections, -, -, hpool⟩ := hinit
    rw [fromDatabase] at hpool
    split at hpool
    · cases hpool
    · cases hpool
      simp [transactionOf] at hopen
  · rintro ⟨pool, history⟩ action ⟨pool', history'⟩ hreachable hlockedAt hdml hstep c state' hopen'
      table rowId hlocked'
    have hinv := inv_of_recorded hreachable
    obtain ⟨hpoolStep, rfl⟩ := recorded_step hstep
    have hstepOf := step_cases (hinv.ready action.connection) hpoolStep
    have hready := (hinv.ready action.connection).state
    by_cases hc : c = action.connection
    · subst hc
      simp only [Function.update_self]
      have heffect := hstepOf.effect
      cases hopen : pool.transactionOf action.connection with
      | none =>
        rw [effect_opened heffect hopen state' hopen'] at hlocked'
        exact absurd hlocked' Std.ExtTreeSet.not_mem_empty
      | some state =>
        have hkept := effect_kept heffect hinv.shared hready state hopen state' hopen'
        rw [nextTranscript, hopen, hopen']
        simp only [committed, hkept.committed]
        split
        · rename_i hlocked
          exact hlockedAt _ state hopen table rowId hlocked
        · rfl
    · simp only [Function.update_of_ne hc]
      rw [hstepOf.transactionOf_ne hc] at hopen'
      rw [← hlockedAt c state' hopen' table rowId hlocked']
      -- whoever changes the row has locked it
      by_contra hne
      obtain ⟨state, hopen, hlocked⟩ := effect_committed hstepOf.effect hinv.shared hready hdml
        table rowId hne
      exact hinv.id_ne hc hopen hopen' ((hinv.states c state' hopen').holds.eq_of_mem
        (hinv.states _ state hopen).holds hlocked' hlocked)

/-! ## Commits -/

/-- A `COMMIT` that succeeds leaves the merged catalog. -/
theorem commitTransaction_ok {shared : SharedDatabase} {state : TransactionState}
    {persist : Option Error} {result : QueryResult}
    (h : (commitTransaction shared (some state) persist).1 = .ok result) :
    ∃ merged, mergeCatalogs shared.database.catalog state.catalog state.lockedRows = .ok merged ∧
      (commitTransaction shared (some state) persist).2.1.database.catalog = merged := by
  unfold commitTransaction at h ⊢
  cases hmerged : mergeCatalogs shared.database.catalog state.catalog state.lockedRows with
  | error error =>
    simp only [hmerged] at h
    cases h
  | ok merged =>
    simp only [hmerged] at h ⊢
    cases hpersist : (shared.database.replaceCatalog merged).persist persist with
    | error error =>
      simp only [hpersist] at h
      cases h
    | ok _ => exact ⟨merged, rfl, by simp only [Database.replaceCatalog]⟩

/-- **The `COMMIT` of a transaction succeeds** with the step of a connection. -/
structure Commits (pool : ConnectionPool) (c : Nat) (state : TransactionState)
    (persist : Option Error) (pool' : ConnectionPool) : Prop where
  phase : pool.phaseOf c = some (.called .commit)
  transaction : pool.transactionOf c = some state
  step : pool.step (.enter c persist) = some pool'
  ok : ∃ result, pool'.phaseOf c = some (.returned .commit (.ok result))

/-- **The `COMMIT` of a transaction succeeds**, with counters of 64 bits. -/
structure Commits64 (pool : ConnectionPool) (c : Nat) (state : TransactionState)
    (persist : Option Error) (pool' : ConnectionPool) : Prop where
  phase : pool.phaseOf c = some (.called .commit)
  transaction : pool.transactionOf c = some state
  step : pool.step64 (.enter c persist) = some pool'
  ok : ∃ result, pool'.phaseOf c = some (.returned .commit (.ok result))

/-- A `COMMIT` draws no row id. -/
theorem step64_commit (hinv : pool.Inv) (hfits : pool.committed.Fits) {c : Nat}
    (hphase : pool.phaseOf c = some (.called .commit)) (persist : Option Error) :
    pool.step64 (.enter c persist) = pool.step (.enter c persist) := by
  refine (step64_eq hinv hfits fun rowId hrowId ↦ ?_).1
  rw [PoolAction.connection, hphase] at hrowId
  cases hrowId

theorem commits64_iff (hinv : pool.Inv) (hfits : pool.committed.Fits) {c : Nat}
    {state : TransactionState} {persist : Option Error} :
    pool.Commits64 c state persist pool' ↔ pool.Commits c state persist pool' := by
  constructor
  · rintro ⟨hphase, hopen, hstep, hok⟩
    rw [step64_commit hinv hfits hphase] at hstep
    exact ⟨hphase, hopen, hstep, hok⟩
  · rintro ⟨hphase, hopen, hstep, hok⟩
    rw [← step64_commit hinv hfits hphase] at hstep
    exact ⟨hphase, hopen, hstep, hok⟩

/-- A successful `COMMIT` leaves the merge of the two catalogs. -/
theorem mergeCatalogs_of_commit {c : Nat} {persist : Option Error} {state : TransactionState}
    (h : pool.Commits c state persist pool') :
    mergeCatalogs pool.committed state.catalog state.lockedRows = .ok pool'.committed := by
  obtain ⟨hphase, hopen, hstep, result, hok⟩ := h
  obtain ⟨hshared, -, hphase'⟩ := enter_commit hphase hstep
  rw [hok, hopen, Option.some_inj, Phase.returned.injEq] at hphase'
  rw [hopen] at hshared
  obtain ⟨merged, hmerged, hcatalog⟩ := commitTransaction_ok hphase'.2.symm
  rw [committed, committed, hshared, hcatalog]
  exact hmerged

/-- **The rows after a successful `COMMIT`**: those the transaction has locked are its own. -/
theorem version_of_commit (hinv : pool.Inv) {c : Nat} {persist : Option Error}
    {state : TransactionState} (h : pool.Commits c state persist pool') (table : String)
    (rowId : RowId) :
    pool'.committed.version table rowId =
      if rowLockKey table rowId ∈ state.lockedRows then state.catalog.version table rowId
      else pool.committed.version table rowId := by
  have hstate := hinv.states c state h.transaction
  exact version_mergeCatalogs (hstate.mergeInput hinv.shared) (mergeCatalogs_of_commit h)
    hstate.staged table rowId

/-- A `COMMIT` overwrites nothing that was committed since it locked the row, rows being changed in
transactions. -/
theorem lockedAt_of_commit
    (h : recorded.ReachableVia (fun p a ↦ DmlInTransactions p.1 a) (pool, history)) {c : Nat}
    {persist : Option Error} {state : TransactionState}
    (hcommit : pool.Commits c state persist pool') (table : String) (rowId : RowId)
    (hrow : (table, rowId) ∈ (history c).written ∨
      state.catalog.version table rowId ≠ (history c).snapshot.version table rowId ∨
      pool'.committed.version table rowId ≠ pool.committed.version table rowId) :
    pool.committed.version table rowId = (history c).lockedAt table rowId := by
  have hinv := inv_of_recorded h
  have hrecorded := recorded_of_reachableVia h c state hcommit.transaction
  refine version_lockedAt h c state hcommit.transaction table rowId ?_
  rcases hrow with hwritten | hchanged | hoverwritten
  · exact hrecorded.written (table, rowId) hwritten
  · exact hrecorded.changed table rowId hchanged
  · by_contra hfree
    rw [version_of_commit hinv hcommit, if_neg hfree] at hoverwritten
    exact hoverwritten rfl

/-- **A `COMMIT` overwrites nothing that was committed since it locked the row**, rows being changed
in transactions, and there being room for the row ids that are drawn. -/
theorem lockedAt_of_commit64
    (h : recorded64.ReachableVia (fun p a ↦ p.1.HasRoom a ∧ DmlInTransactions p.1 a)
      (pool, history)) {c : Nat} {persist : Option Error} {state : TransactionState}
    (hcommit : pool.Commits64 c state persist pool') (table : String) (rowId : RowId)
    (hrow : (table, rowId) ∈ (history c).written ∨
      state.catalog.version table rowId ≠ (history c).snapshot.version table rowId ∨
      pool'.committed.version table rowId ≠ pool.committed.version table rowId) :
    pool.committed.version table rowId = (history c).lockedAt table rowId := by
  obtain ⟨hrecorded, hfits⟩ := recorded_of_recorded64 h
  exact lockedAt_of_commit hrecorded ((commits64_iff (inv_of_recorded hrecorded) hfits).mp hcommit)
    table rowId hrow

/-- **A `COMMIT` publishes what its transaction has written**: the rows its statements have written
are its own, and all others stay. -/
structure PublishesWrites (pool : ConnectionPool) (state : TransactionState) (t : Transcript)
    (pool' : ConnectionPool) : Prop where
  written : ∀ p ∈ t.written, pool'.committed.version p.1 p.2 = state.catalog.version p.1 p.2
  others (table : String) (rowId : RowId) : (table, rowId) ∉ t.written →
    pool'.committed.version table rowId = pool.committed.version table rowId

/-- When a `COMMIT` publishes the writes of its transaction and nothing else: every row it has
locked and not written is up to date. -/
theorem publishes_iff (h : recorded.Reachable (pool, history)) {c : Nat} {persist : Option Error}
    {state : TransactionState} (hcommit : pool.Commits c state persist pool') :
    PublishesWrites pool state (history c) pool' ↔
      ∀ (table : String) (rowId : RowId), rowLockKey table rowId ∈ state.lockedRows →
        (table, rowId) ∉ (history c).written →
          state.catalog.version table rowId = pool.committed.version table rowId := by
  have hinv := inv_of_recorded (C := fun _ _ ↦ True) h
  have hrecorded := recorded_of_reachableVia (C := fun _ _ ↦ True) h c state hcommit.transaction
  have hversion := version_of_commit hinv hcommit
  constructor
  · intro hpublishes table rowId hlocked hnew
    have hsame := hpublishes.others table rowId hnew
    rw [hversion, if_pos hlocked] at hsame
    exact hsame
  · intro hfresh
    refine ⟨fun p hp ↦ ?_, fun table rowId hnew ↦ ?_⟩
    · rw [hversion, if_pos (hrecorded.written p hp)]
    · rw [hversion]
      split
      · rename_i hlocked
        exact hfresh table rowId hlocked hnew
      · rfl

/-- **When a `COMMIT` publishes the writes of its transaction and nothing else**: every row it has
locked and not written is up to date, there being room for the row ids that are drawn. -/
theorem publishes_iff64
    (h : recorded64.ReachableVia (fun p a ↦ p.1.HasRoom a) (pool, history)) {c : Nat}
    {persist : Option Error} {state : TransactionState}
    (hcommit : pool.Commits64 c state persist pool') :
    PublishesWrites pool state (history c) pool' ↔
      ∀ (table : String) (rowId : RowId), rowLockKey table rowId ∈ state.lockedRows →
        (table, rowId) ∉ (history c).written →
          state.catalog.version table rowId = pool.committed.version table rowId := by
  obtain ⟨hrecorded, hfits⟩ := reachable_of_recorded64 h
  have hinv := inv_of_recorded (C := fun _ _ ↦ True) hrecorded
  exact publishes_iff hrecorded ((commits64_iff hinv hfits).mp hcommit)

end Platform

/-! ## Concrete runs -/

/-- What is recorded at the start. -/
def unrecorded : Nat → Transcript := fun _ ↦ ⟨.empty, fun _ _ ↦ none, [], []⟩

/-- The recorded state after the actions of a list have been taken in a pool. -/
def recordedFrom (pool : ConnectionPool) (actions : List PoolAction) :
    ConnectionPool × (Nat → Transcript) :=
  (@recorded64 Platform.ascii).after (pool, unrecorded) actions

theorem reachableVia_recordedFrom {C : ConnectionPool × (Nat → Transcript) → PoolAction → Prop}
    {pool : ConnectionPool} (hinit : (@machine64 Platform.ascii).init pool)
    (actions : List PoolAction)
    (hC : (@recorded64 Platform.ascii).StepsSatisfy C (pool, unrecorded) actions) :
    (@recorded64 Platform.ascii).ReachableVia C
      ((recordedFrom pool actions).1, (recordedFrom pool actions).2) :=
  Machine.reachableVia_after (.init ⟨hinit, rfl⟩) hC

theorem init64_memory : (@machine64 Platform.ascii).init (memory 2) :=
  ⟨init_memory (by decide), Catalog.all_empty _⟩

/-- The step commits the transaction of the connection. -/
def commitsWith (pool : ConnectionPool) (c : Nat)
    (test : TransactionState → ConnectionPool → Bool) :
    Bool :=
  isCommit (pool.phaseOf c) && (pool.transactionOf c).any fun state ↦
    (@step Platform.ascii pool (.enter c none)).any fun pool' ↦
      (match pool'.phaseOf c with
        | some (.returned .commit (.ok _)) => true
        | _ => false) && test state pool'

theorem exists_of_commitsWith {pool : ConnectionPool} {c : Nat}
    {test : TransactionState → ConnectionPool → Bool} (h : commitsWith pool c test = true) :
    ∃ state pool', @Commits Platform.ascii pool c state none pool' ∧ test state pool' = true := by
  simp only [commitsWith, Bool.and_eq_true, Option.any_eq_true, isCommit_iff] at h
  obtain ⟨hphase, state, hopen, pool', hstep, hok, htest⟩ := h
  refine ⟨state, pool', @Commits.mk Platform.ascii _ _ _ _ _ hphase hopen hstep ?_, htest⟩
  split at hok
  · rename_i result hresult
    exact ⟨result, hresult⟩
  · cases hok

/-- Two transactions begin; each updates the row, and the first commits before the second updates
it. -/
def lostUpdate : List PoolAction :=
  .get 0 :: .get 1 :: long 0 "CREATE TABLE t (a INT)" ++ short 0 "BEGIN"
    ++ long 0 "INSERT INTO t VALUES (1)" ++ short 0 "COMMIT" ++ short 0 "BEGIN" ++ short 1 "BEGIN"
    ++ long 1 "UPDATE t SET a = 2" ++ short 1 "COMMIT" ++ long 0 "UPDATE t SET a = 3"
    ++ [.call 0 "COMMIT" {}]

theorem lostUpdate_stepsSatisfy : (@recorded64 Platform.ascii).StepsSatisfy
    (fun p a ↦ @HasRoom Platform.ascii p.1 a ∧ DmlInTransactions p.1 a) (memory 2, unrecorded)
    lostUpdate := by decide +kernel

/-- The second transaction is about to commit, and to overwrite a row that is no longer what it was
when the transaction began. -/
theorem lostUpdate_commits : commitsWith (recordedFrom (memory 2) lostUpdate).1 0 (fun state _ ↦
    (("t", 1) : String × RowId) ∈ ((recordedFrom (memory 2) lostUpdate).2 0).written ∧
    state.catalog.version "t" 1 ≠
      ((recordedFrom (memory 2) lostUpdate).2 0).snapshot.version "t" 1 ∧
    (recordedFrom (memory 2) lostUpdate).1.committed.version "t" 1 ≠
      ((recordedFrom (memory 2) lostUpdate).2 0).snapshot.version "t" 1) = true := by decide +kernel

/-- That transaction, and the state of the pool. -/
theorem exists_lostUpdate_commits : ∃ state pool',
    (@recorded64 Platform.ascii).ReachableVia
      (fun p a ↦ @HasRoom Platform.ascii p.1 a ∧ DmlInTransactions p.1 a)
      (recordedFrom (memory 2) lostUpdate) ∧
    @Commits64 Platform.ascii (recordedFrom (memory 2) lostUpdate).1 0 state none pool' ∧
    (("t", 1) : String × RowId) ∈ ((recordedFrom (memory 2) lostUpdate).2 0).written ∧
    state.catalog.version "t" 1 ≠
      ((recordedFrom (memory 2) lostUpdate).2 0).snapshot.version "t" 1 ∧
    (recordedFrom (memory 2) lostUpdate).1.committed.version "t" 1 ≠
      ((recordedFrom (memory 2) lostUpdate).2 0).snapshot.version "t" 1 := by
  have hreachable := reachableVia_recordedFrom init64_memory lostUpdate lostUpdate_stepsSatisfy
  obtain ⟨hrecorded, hfits⟩ := @recorded_of_recorded64 Platform.ascii _ _ _ hreachable
  obtain ⟨state, pool', hcommits, htest⟩ := exists_of_commitsWith lostUpdate_commits
  rw [decide_eq_true_eq] at htest
  have hinv := @inv_of_recorded Platform.ascii _ _ _ hrecorded
  exact
    ⟨state, pool', hreachable, (@commits64_iff Platform.ascii _ _ hinv hfits _ _ _).mpr hcommits,
    htest⟩

/-- In that run the row is locked by the transaction that has changed it. -/
theorem locked_lostUpdate : ∃ state,
    (recordedFrom (memory 2) lostUpdate).1.transactionOf 0 = some state ∧
      rowLockKey "t" 1 ∈ state.lockedRows ∧
      (recordedFrom (memory 2) lostUpdate).1.shared.rowLocks[rowLockKey "t" 1]? =
        some state.id := by
  obtain ⟨state, pool', hreachable, ⟨-, hopen, -, -⟩, -, hchanged, -⟩ := exists_lostUpdate_commits
  obtain ⟨hlocked, hshared, -⟩ := @locked_of_changed64 Platform.ascii _ _
    (hreachable.mono fun _ _ h ↦ h.1) 0 state hopen "t" 1 hchanged
  exact ⟨state, hopen, hlocked, hshared⟩

/-- In that run the row is what it was when it was locked. -/
theorem lockedAt_lostUpdate : (recordedFrom (memory 2) lostUpdate).1.committed.version "t" 1 =
    ((recordedFrom (memory 2) lostUpdate).2 0).lockedAt "t" 1 := by
  obtain ⟨state, pool', hreachable, hcommits, hwritten, -⟩ := exists_lostUpdate_commits
  exact @lockedAt_of_commit64 Platform.ascii _ _ _ hreachable 0 none state hcommits "t" 1
    (.inl hwritten)

/-- **An update can be lost**: a `COMMIT` overwrites a row that has changed since the snapshot of
its transaction. -/
theorem not_snapshot_of_commit : ¬∀ [Platform] (pool pool' : ConnectionPool)
    (history : Nat → Transcript) (c : Nat) (persist : Option Error) (state : TransactionState),
      recorded64.ReachableVia (fun p a ↦ p.1.HasRoom a ∧ DmlInTransactions p.1 a)
        (pool, history) → pool.Commits64 c state persist pool' → ∀ p ∈ (history c).written,
          pool.committed.version p.1 p.2 = (history c).snapshot.version p.1 p.2 := by
  intro h
  obtain ⟨state, pool', hreachable, hcommits, hwritten, -, hne⟩ := exists_lostUpdate_commits
  exact hne (@h Platform.ascii _ _ _ 0 none state hreachable hcommits ("t", 1) hwritten)

/-- A statement that fails has locked a row, which another connection then has changed. -/
def staleLock : List PoolAction :=
  .get 0 :: .get 1 :: long 0 "CREATE TABLE t (a INT PRIMARY KEY, b INT)"
    ++ short 0 "INSERT INTO t VALUES (1, 1)" ++ short 0 "BEGIN" ++ short 1 "UPDATE t SET b = 2"
    ++ long 0 "UPDATE t SET a = NULL" ++ [.call 0 "COMMIT" {}]

theorem staleLock_stepsSatisfy : (@recorded64 Platform.ascii).StepsSatisfy
    (fun p a ↦ @HasRoom Platform.ascii p.1 a) (memory 2, unrecorded) staleLock := by decide +kernel

/-- The transaction is about to commit, has written nothing, and will put the row back. -/
theorem staleLock_commits : commitsWith (recordedFrom (memory 2) staleLock).1 0 (fun _ pool' ↦
    ((recordedFrom (memory 2) staleLock).2 0).written = [] ∧
    pool'.committed.version "t" 1 ≠
      (recordedFrom (memory 2) staleLock).1.committed.version "t" 1) = true := by decide +kernel

/-- **A failed statement can have an effect**: the rows it has locked are published as they were in
the snapshot. -/
theorem not_publishesWrites_of_commit : ¬∀ [Platform] (pool pool' : ConnectionPool)
    (history : Nat → Transcript) (c : Nat) (persist : Option Error) (state : TransactionState),
      recorded64.ReachableVia (fun p a ↦ p.1.HasRoom a) (pool, history) →
        pool.Commits64 c state persist pool' → PublishesWrites pool state (history c) pool' := by
  intro h
  have hreachable := reachableVia_recordedFrom init64_memory staleLock staleLock_stepsSatisfy
  obtain ⟨hrecorded, hfits⟩ := @reachable_of_recorded64 Platform.ascii _ _ hreachable
  have hinv := @inv_of_recorded Platform.ascii _ _ (fun _ _ ↦ True) hrecorded
  obtain ⟨state, pool', hcommits, htest⟩ := exists_of_commitsWith staleLock_commits
  rw [decide_eq_true_eq] at htest
  obtain ⟨hwritten, hne⟩ := htest
  have hothers := (@h Platform.ascii _ _ _ 0 none state hreachable
    ((@commits64_iff Platform.ascii _ _ hinv hfits _ _ _).mpr hcommits)).others "t" 1
  exact hne (hothers (by simp [hwritten]))

/-- In the run that loses an update, `COMMIT` publishes what its transaction has written. -/
theorem publishes_lostUpdate : ∃ state pool',
    PublishesWrites (recordedFrom (memory 2) lostUpdate).1 state
        ((recordedFrom (memory 2) lostUpdate).2 0) pool' ↔
      ∀ (table : String) (rowId : RowId), rowLockKey table rowId ∈ state.lockedRows →
        (table, rowId) ∉ ((recordedFrom (memory 2) lostUpdate).2 0).written →
          state.catalog.version table rowId =
            (recordedFrom (memory 2) lostUpdate).1.committed.version table rowId := by
  obtain ⟨state, pool', hreachable, hcommits, -⟩ := exists_lostUpdate_commits
  exact ⟨state, pool', @publishes_iff64 Platform.ascii _ _ _
    (hreachable.mono fun _ _ h ↦ h.1) 0 none state hcommits⟩

/-! ## A counter at its end -/

/-- A table with the row ids `0` and `2 ^ 64 - 2`. -/
def fullFile : String :=
  "FSQ1\nTABLE\t74\nCOLUMN\t61\tinteger\t0\nROW\t0\t61=I:7\n" ++
    "ROW\t18446744073709551614\t61=I:1\nENDTABLE\n"

/-- The pool of two connections on the database that is read from it. -/
def loaded : ConnectionPool :=
  ⟨⟨⟨none, (@Catalog.decode64 Platform.ascii fullFile {}).toOption.getD .empty, none, {}, ∅⟩, ∅⟩,
    2, 2, 1, ∅⟩

theorem init64_loaded : (@machine64 Platform.ascii).init loaded := by
  have hfinite : (loaded.committed.tables.toList.all fun p ↦ p.2.rows.toList.all fun q ↦
      q.2.toList.all fun r ↦ r.2.isFinite) = true := by decide +kernel
  have hok : (@Catalog.decode64 Platform.ascii fullFile {}).isOk = true := by decide +kernel
  rcases hdecode : @Catalog.decode64 Platform.ascii fullFile {} with fault | catalog
  · rw [hdecode] at hok
    cases hok
  · have hcommitted : loaded.committed = catalog := by
      rw [loaded, hdecode]
      rfl
    rw [hcommitted, List.all_eq_true] at hfinite
    refine ⟨⟨loaded.shared.database, 2, ?_, rfl, rfl⟩, ?_⟩
    · show Catalog.Coherent loaded.committed
      rw [hcommitted]
      refine @Catalog.coherent_of_decode64 Platform.ascii _ _ _ hdecode ?_
      intro name t ht rowId row hrow column value hvalue
      have htable := hfinite (name, t) ((DerivedIndex.mem_toList_iff _ _ _).mpr ht)
      rw [List.all_eq_true] at htable
      have hcells := htable (rowId, row) ((DerivedIndex.mem_toList_iff _ _ _).mpr hrow)
      rw [List.all_eq_true] at hcells
      exact hcells (column, value) ((DerivedIndex.mem_toList_iff _ _ _).mpr hvalue)
    · rw [hcommitted]
      exact @fits_of_decode64 Platform.ascii _ _ _ hdecode

/-- A transaction inserts a row under the last row id, another one deletes the row `0`, and the
first inserts one more. -/
def overwrittenLock : List PoolAction :=
  .get 0 :: .get 1 :: short 0 "BEGIN" ++ long 0 "INSERT INTO t VALUES (2)" ++ short 1 "BEGIN"
    ++ long 1 "DELETE FROM t WHERE a = 7" ++ long 0 "INSERT INTO t VALUES (3)"

/-- **Without room, a changed row need not be locked**: the last insertion draws the row id `0`, and
takes the lock of the row from the transaction that has deleted it. -/
theorem not_locked_of_changed : ¬∀ [Platform] (pool : ConnectionPool) (history : Nat → Transcript)
    (c : Nat) (state : TransactionState) (table : String) (rowId : RowId),
      recorded64.Reachable (pool, history) → pool.transactionOf c = some state →
        state.catalog.version table rowId ≠ (history c).snapshot.version table rowId →
          rowLockKey table rowId ∈ state.lockedRows ∧
          pool.shared.rowLocks[rowLockKey table rowId]? = some state.id ∧
          ∀ c' state', c' ≠ c → pool.transactionOf c' = some state' →
            state'.catalog.version table rowId = (history c').snapshot.version table rowId := by
  intro h
  have hreachable := reachableVia_recordedFrom init64_loaded overwrittenLock
    (Machine.stepsSatisfy_true _ _)
  have hchanged : ((recordedFrom loaded overwrittenLock).1.transactionOf 1).any (fun state ↦
      state.catalog.version "t" 0 ≠
        ((recordedFrom loaded overwrittenLock).2 1).snapshot.version "t" 0 ∧
      (recordedFrom loaded overwrittenLock).1.shared.rowLocks[rowLockKey "t" 0]? ≠
        some state.id) = true := by decide +kernel
  rw [Option.any_eq_true] at hchanged
  obtain ⟨state, hopen, htest⟩ := hchanged
  rw [decide_eq_true_eq] at htest
  exact htest.2 (@h Platform.ascii _ _ 1 state "t" 0 hreachable hopen htest.1).2.1

end ConnectionPool

end Fsql
