import Fsql.Pool.History

/-!
# Row ids are never shared

Row ids are drawn from the committed tables, also for the insertions of open transactions.
`ConnectionPool.rowIds_of_reachable64` says that no id is drawn twice, as long as there is room in
the counters: what an open transaction has inserted is under ids that neither the committed tables
nor the other open transactions have, and so a `COMMIT` leaves alone what others have inserted since
its transaction began.

What carries this is `Fresh`: a row that is locked was in the snapshot, or is not committed.
-/

set_option autoImplicit false

namespace Fsql

section Platform

variable [Platform] {shared : SharedDatabase} {state : TransactionState}

/-! ## What is locked anew -/

/-- The rows a statement locks are there. -/
theorem version_of_rowsToLock {catalog : Catalog} (hc : catalog.Coherent) {statement : Statement}
    {options : TableRuntimeOptions} {keys : List String}
    (h : rowsToLock catalog statement options = .ok keys) {table : String} {rowId : RowId}
    (hkey : rowLockKey table rowId ∈ keys) : ∃ row, catalog.version table rowId = some row := by
  have hrows (name : String) (filter : Option Filter)
      (h : rowsToLock catalog (.delete name filter) options = .ok keys) :
      ∃ row, catalog.version table rowId = some row := by
    rw [rowsToLock] at h
    rcases ht : catalog.tables[name]? with _ | t
    · rw [ht] at h
      cases h
    · rw [ht] at h
      rcases hmatch : t.matchingRowIdsForLock filter options with error | rowIds
      · simp only [hmatch, Except.map] at h
        cases h
      · simp only [hmatch, Except.map, Except.ok.injEq] at h
        subst h
        obtain ⟨rowId', hmem, heq⟩ := List.mem_map.mp hkey
        obtain ⟨rfl, rfl⟩ := rowLockKey_inj heq
        exact version_of_matching hc ht hmatch hmem
  cases statement with
  | update name assignments filter => exact hrows name filter h
  | delete name filter => exact hrows name filter h
  | insert name columns values =>
    rw [rowsToLock] at h
    rcases hinsert : insertLockKey catalog name (.insert name columns values)
      with error | key
    · rw [hinsert] at h
      cases h
    · rw [hinsert, Except.map, Except.ok.injEq] at h
      subst h
      obtain ⟨rest, hrest⟩ := insertLockKey_eq_ok hinsert
      exact absurd ((List.mem_singleton.mp hkey).trans hrest).symm
        (insert_ne_rowLockKey rest table rowId)
  | _ =>
    obtain rfl := Except.ok.inj h
    cases hkey

omit [Platform] in
/-- The row id that is reserved is that of the next committed row. -/
theorem mem_reserveInsertRowId {statement : Statement} {key : String}
    (h : key ∈ (reserveInsertRowId shared state statement).2.2.lockedRows) :
    key ∈ state.lockedRows ∨ ∃ table t, shared.database.catalog.tables[table]? = some t ∧
      key = rowLockKey table t.nextRowId := by
  unfold reserveInsertRowId at h
  split at h
  · rename_i table columns values
    split at h
    · exact .inl h
    · rename_i committed hcommitted
      dsimp only at h
      split at h
      · exact .inl h
      · rcases (BTree.mem_insert_set _ _ _).mp h with rfl | hold
        · exact .inr ⟨table, committed, hcommitted, rfl⟩
        · exact .inl hold
  · exact .inl h

omit [Platform] in
/-- A committed table has no row under the next row id. -/
theorem Catalog.Coherent.version_nextRowId {catalog : Catalog} (hc : catalog.Coherent)
    {table : String} {t : Table} (ht : catalog.tables[table]? = some t) {rowId : RowId}
    (hle : t.nextRowId ≤ rowId) : catalog.version table rowId = none := by
  rw [Catalog.version, ht, Option.bind_some, Option.eq_none_iff_forall_not_mem]
  intro row hrow
  exact absurd ((hc table t ht).rowId_lt rowId row hrow) (Nat.not_lt.mpr hle)

/-- **What a statement locks anew** is in the working catalog, or not in the committed one. -/
theorem version_of_lockStatementRows (hs : shared.Inv) (h : state.Inv shared)
    {statement : Statement} {table : String} {rowId : RowId}
    (hmem : rowLockKey table rowId ∈ (lockStatementRows shared statement state).2.2.lockedRows) :
    rowLockKey table rowId ∈ state.lockedRows ∨
      (∃ row, state.catalog.version table rowId = some row) ∨
      shared.database.catalog.version table rowId = none := by
  rw [lockStatementRows] at hmem
  rcases hkeys : rowsToLock state.catalog statement (tableRuntimeOptions shared.database.options)
    with error | keys
  · rw [hkeys] at hmem
    exact .inl hmem
  · rw [hkeys] at hmem
    dsimp only at hmem
    have hacquired (hold : rowLockKey table rowId ∈
        (LockTable.acquire state.id keys shared.rowLocks state.lockedRows).2.2) :
        rowLockKey table rowId ∈ state.lockedRows ∨
          (∃ row, state.catalog.version table rowId = some row) :=
      (LockTable.mem_acquire hold).imp id (version_of_rowsToLock h.coherent hkeys)
    generalize LockTable.acquire state.id keys shared.rowLocks state.lockedRows = acquired
      at hmem hacquired
    obtain ⟨error | _, rowLocks, lockedRows⟩ := acquired
    · exact (hacquired hmem).imp id .inl
    · rcases mem_reserveInsertRowId hmem with hold | ⟨name, t, ht, heq⟩
      · exact (hacquired hold).imp id .inl
      · obtain ⟨rfl, rfl⟩ := rowLockKey_inj heq
        exact .inr (.inr (hs.coherent.version_nextRowId ht (Nat.le_refl _)))

/-! ## Fresh locks -/

/-- **What a transaction has locked** was in its snapshot, or is not committed. -/
def TransactionState.Fresh (snapshot committed : Catalog) (state : TransactionState) : Prop :=
  ∀ table rowId, rowLockKey table rowId ∈ state.lockedRows →
    snapshot.version table rowId = none → committed.version table rowId = none

/-- **A step of an open transaction** changes no committed row but those it has locked. -/
theorem Effect.version_eq {phase : Option Phase} {shared' : SharedDatabase} {n n' : Nat}
    {tx' : Option TransactionState} (h : Effect phase shared n (some state) shared' n' tx')
    (hs : shared.Inv) (hstate : state.Inv shared) {table : String} {rowId : RowId}
    (hfree : rowLockKey table rowId ∉ state.lockedRows) :
    shared'.database.catalog.version table rowId = shared.database.catalog.version table rowId := by
  cases h with
  | lock _ statement => exact (locking_lockStatementRows hs hstate statement).version table rowId
  | publish _ merged hmerged =>
    have hversion := version_mergeCatalogs (hstate.mergeInput hs) hmerged hstate.staged table rowId
    rw [if_neg hfree] at hversion
    exact hversion
  | _ => rfl

/-- **What is not committed stays so**, as long as only others have it locked. -/
theorem Effect.version_eq_none {phase : Option Phase} {shared' : SharedDatabase} {n n' : Nat}
    {tx tx' : Option TransactionState} (h : Effect phase shared n tx shared' n' tx')
    (hs : shared.Inv) (hstate : ∀ state ∈ tx, state.Inv shared) {table : String} {rowId : RowId}
    {owner : Nat} (howner : shared.rowLocks[rowLockKey table rowId]? = some owner)
    (hfree : ∀ state ∈ tx, rowLockKey table rowId ∉ state.lockedRows)
    (hnone : shared.database.catalog.version table rowId = none) :
    shared'.database.catalog.version table rowId = none := by
  rcases tx with _ | state
  · cases h with
    | direct statement hphase =>
      have hchanges := @executeStatement_changes _ (tableRuntimeOptions shared.database.options) _
        hs.coherent statement
      refine (hchanges.version fun htouched ↦ ?_).trans hnone
      rcases version_of_touchedRows hs.coherent htouched with
        ⟨row, hrow⟩ | ⟨-, -, t, -, ht, rfl⟩
      · rw [hnone] at hrow
        cases hrow
      · -- a lock is on a row id that has been drawn
        rw [not_locked_nextRowId hs ht] at howner
        cases howner
    | _ => exact hnone
  · exact (h.version_eq hs (hstate state rfl) (hfree state rfl)).trans hnone

/-- **A step of an open transaction** locks nothing but rows of its snapshot and rows that are not
committed. -/
theorem Effect.fresh {phase : Option Phase} {shared' : SharedDatabase} {n n' : Nat}
    {state' : TransactionState} (h : Effect phase shared n (some state) shared' n' (some state'))
    (hs : shared.Inv) (hstate : state.Inv shared) {t : Transcript}
    (hrecorded : ConnectionPool.Recorded t state)
    (hfresh : state.Fresh t.snapshot shared.database.catalog) :
    state'.Fresh t.snapshot shared'.database.catalog := by
  cases h with
  | quiet => exact hfresh
  | lock _ statement =>
    intro table rowId hmem hnone
    rw [(locking_lockStatementRows hs hstate statement).version]
    rcases version_of_lockStatementRows hs hstate hmem with hold | ⟨row, hrow⟩ | hfree
    · exact hfresh table rowId hold hnone
    · -- a row that was not in the snapshot has been locked before
      refine hfresh table rowId (hrecorded.changed table rowId ?_) hnone
      rw [hrow, hnone]
      exact Option.some_ne_none row
    · exact hfree
  | write => exact hfresh

namespace ConnectionPool

variable {pool pool' : ConnectionPool} {history : Nat → Transcript}

/-- What open transactions have locked is fresh, in every run. -/
theorem fresh_of_reachable (h : recorded.Reachable (pool, history)) (c : Nat)
    (state : TransactionState) (hopen : pool.transactionOf c = some state) :
    state.Fresh (history c).snapshot pool.committed := by
  have key := h.invariant
    (I := fun p ↦ ∀ c state, p.1.transactionOf c = some state →
      state.Fresh (p.2 c).snapshot p.1.committed) ?_ ?_
  · exact key c state hopen
  · rintro ⟨pool, history⟩ ⟨hinit, -⟩ c state hopen
    obtain ⟨database, maxConnections, -, -, hpool⟩ := hinit
    rw [fromDatabase] at hpool
    split at hpool
    · cases hpool
    · obtain rfl := Except.ok.inj hpool
      cases hopen
  · rintro ⟨pool, history⟩ action ⟨pool', history'⟩ hreachable hfresh - hstep c state' hopen'
    have hinv : pool.Inv := inv_of_recorded (C := fun _ _ ↦ True) hreachable
    have hrecorded := recorded_of_reachableVia (C := fun _ _ ↦ True) hreachable
    obtain ⟨hpoolStep, rfl⟩ := recorded_step hstep
    have hstepOf := step_cases (hinv.ready action.connection) hpoolStep
    have heffect := hstepOf.effect
    by_cases hc : c = action.connection
    · subst hc
      simp only [Function.update_self]
      rw [hopen'] at heffect
      rcases hopen : pool.transactionOf action.connection with _ | state
      · rw [hopen] at heffect
        intro table rowId hmem
        rw [effect_opened heffect rfl state' rfl] at hmem
        exact absurd hmem Std.ExtTreeSet.not_mem_empty
      · rw [hopen] at heffect
        have hsnapshot : (pool.nextTranscript (history action.connection) action pool').snapshot =
            (history action.connection).snapshot := by rw [nextTranscript, hopen, hopen']
        rw [hsnapshot]
        exact heffect.fresh hinv.shared (hinv.states _ _ hopen) (hrecorded _ _ hopen)
          (hfresh _ _ hopen)
    · simp only [Function.update_of_ne hc]
      rw [hstepOf.transactionOf_ne hc] at hopen'
      intro table rowId hmem hnone
      have hholds := (hinv.states c state' hopen').holds
      refine heffect.version_eq_none hinv.shared (hinv.ready action.connection).state
        (hholds _ hmem) (fun state hopen hlocked ↦ ?_)
          (hfresh c state' hopen' table rowId hmem hnone)
      exact hinv.id_ne hc hopen hopen' (hholds.eq_of_mem
        (hinv.states _ state hopen).holds hmem hlocked)

/-! ## Insertions -/

/-- The transaction has inserted a row, and it is still there. -/
def Inserted (t : Transcript) (state : TransactionState) (table : String) (rowId : RowId) : Prop :=
  t.snapshot.version table rowId = none ∧ ∃ row, state.catalog.version table rowId = some row

/-- Row ids are never shared, in any run of counters without a bound. -/
theorem rowIds_of_reachable (h : recorded.Reachable (pool, history)) :
    (∀ (c : Nat) (state : TransactionState) (name : String) (t : Table),
      pool.transactionOf c = some state → state.catalog.tables[name]? = some t →
        ∃ target, pool.committed.tables[name]? = some target ∧ t.nextRowId ≤ target.nextRowId) ∧
    (∀ (c : Nat) (state : TransactionState) (table : String) (rowId : RowId),
      pool.transactionOf c = some state → Inserted (history c) state table rowId →
        pool.committed.version table rowId = none ∧
        ∀ c' state', c' ≠ c → pool.transactionOf c' = some state' →
          ¬Inserted (history c') state' table rowId) ∧
    ∀ (c : Nat) (persist : Option Error) (state : TransactionState) (pool' : ConnectionPool)
      (table : String) (rowId : RowId), pool.phaseOf c = some (.called .commit) →
      pool.transactionOf c = some state → pool.step (.enter c persist) = some pool' →
      (pool.committed.version table rowId).isSome = true →
      (history c).snapshot.version table rowId = none →
        pool'.committed.version table rowId = pool.committed.version table rowId := by
  have hinv : pool.Inv := inv_of_recorded (C := fun _ _ ↦ True) h
  have hfresh := fresh_of_reachable h
  refine ⟨fun c state name t hopen ht ↦ (hinv.states c state hopen).below name t ht,
    fun c state table rowId hopen hinserted ↦ ?_,
    fun c persist state pool' table rowId hphase hopen hstep hrow hnone ↦ ?_⟩
  · obtain ⟨hnone, row, hrow⟩ := hinserted
    have hchanged : state.catalog.version table rowId ≠
      (history c).snapshot.version table rowId := by
      rw [hrow, hnone]
      exact Option.some_ne_none row
    obtain ⟨hlocked, -, hothers⟩ := locked_of_changed h hopen hchanged
    refine ⟨hfresh c state hopen table rowId hlocked hnone, fun c' state' hne hopen' ↦ ?_⟩
    rintro ⟨hnone', row', hrow'⟩
    have hsame := hothers c' state' hne hopen'
    rw [hrow', hnone'] at hsame
    cases hsame
  · have hfree : rowLockKey table rowId ∉ state.lockedRows := by
      intro hmem
      rw [hfresh c state hopen table rowId hmem hnone] at hrow
      cases hrow
    have hstepOf : StepOf pool c pool' := @step_cases _ _ _ (.enter c persist) (hinv.ready c) hstep
    have heffect := hstepOf.effect
    rw [hopen] at heffect
    exact heffect.version_eq hinv.shared (hinv.states c state hopen) hfree

/-- **Row ids are never shared**, there being room for those that are drawn: the working tables have
drawn no row ids that the committed ones have not; what one transaction has inserted, the committed
tables and the other transactions have not; and a `COMMIT` leaves every committed row alone that was
not in the snapshot. -/
theorem rowIds_of_reachable64
    (h : recorded64.ReachableVia (fun p a ↦ p.1.HasRoom a) (pool, history)) :
    (∀ (c : Nat) (state : TransactionState) (name : String) (t : Table),
      pool.transactionOf c = some state → state.catalog.tables[name]? = some t →
        ∃ target, pool.committed.tables[name]? = some target ∧ t.nextRowId ≤ target.nextRowId) ∧
    (∀ (c : Nat) (state : TransactionState) (table : String) (rowId : RowId),
      pool.transactionOf c = some state → Inserted (history c) state table rowId →
        pool.committed.version table rowId = none ∧
        ∀ c' state', c' ≠ c → pool.transactionOf c' = some state' →
          ¬Inserted (history c') state' table rowId) ∧
    ∀ (c : Nat) (persist : Option Error) (state : TransactionState) (pool' : ConnectionPool)
      (table : String) (rowId : RowId), pool.phaseOf c = some (.called .commit) →
      pool.transactionOf c = some state → pool.step64 (.enter c persist) = some pool' →
      (pool.committed.version table rowId).isSome = true →
      (history c).snapshot.version table rowId = none →
        pool'.committed.version table rowId = pool.committed.version table rowId := by
  obtain ⟨hrecorded, hfits⟩ := reachable_of_recorded64 h
  have hinv : pool.Inv := inv_of_recorded (C := fun _ _ ↦ True) hrecorded
  obtain ⟨hbelow, hinserted, hcommit⟩ := rowIds_of_reachable hrecorded
  refine ⟨hbelow, hinserted, fun c persist state pool' table rowId hphase hopen hstep ↦ ?_⟩
  rw [step64_commit hinv hfits hphase] at hstep
  exact hcommit c persist state pool' table rowId hphase hopen hstep

end ConnectionPool

end Platform

namespace ConnectionPool

/-- Two transactions insert a row each, and the first commits. -/
def concurrentInserts : List PoolAction :=
  .get 0 :: .get 1 :: long 0 "CREATE TABLE t (a INT PRIMARY KEY)" ++ short 0 "BEGIN"
    ++ short 1 "BEGIN" ++ long 0 "INSERT INTO t VALUES (1)" ++ long 1 "INSERT INTO t VALUES (2)"
    ++ short 0 "COMMIT" ++ [.call 1 "COMMIT" {}]

theorem concurrentInserts_stepsSatisfy : (@recorded64 Platform.ascii).StepsSatisfy
    (fun p a ↦ @HasRoom Platform.ascii p.1 a) (memory 2, unrecorded) concurrentInserts := by
  decide +kernel

/-- The second transaction is about to commit, and the first has inserted a row meanwhile. -/
theorem concurrentInserts_commits :
    commitsWith (recordedFrom (memory 2) concurrentInserts).1 1 (fun _ _ ↦
      ((recordedFrom (memory 2) concurrentInserts).1.committed.version "t" 1).isSome ∧
      ((recordedFrom (memory 2) concurrentInserts).2 1).snapshot.version "t" 1 = none) = true := by
  decide +kernel

/-- The row stays. -/
theorem rowIds_concurrentInserts : ∃ pool',
    (@step64 Platform.ascii (recordedFrom (memory 2) concurrentInserts).1 (.enter 1 none)) =
        some pool' ∧
      pool'.committed.version "t" 1 =
        (recordedFrom (memory 2) concurrentInserts).1.committed.version "t" 1 := by
  have hreachable :=
    reachableVia_recordedFrom init64_memory concurrentInserts concurrentInserts_stepsSatisfy
  obtain ⟨hrecorded, hfits⟩ := @reachable_of_recorded64 Platform.ascii _ _ hreachable
  have hinv := @inv_of_recorded Platform.ascii _ _ (fun _ _ ↦ True) hrecorded
  obtain ⟨state, pool', hcommits, htest⟩ := exists_of_commitsWith concurrentInserts_commits
  rw [decide_eq_true_eq] at htest
  obtain ⟨hphase, hopen, hstep, -⟩ :=
    (@commits64_iff Platform.ascii _ _ hinv hfits _ _ _).mpr hcommits
  exact ⟨pool', hstep, (@rowIds_of_reachable64 Platform.ascii _ _ hreachable).2.2 1 none state pool'
    "t" 1 hphase hopen hstep htest.1 htest.2⟩

/-- Two transactions begin where one more row id can be drawn; one inserts a row and commits, and
the other inserts a row then. -/
def sharedRowId : List PoolAction :=
  .get 0 :: .get 1 :: short 0 "BEGIN" ++ short 1 "BEGIN" ++ long 1 "INSERT INTO t VALUES (5)"
    ++ short 1 "COMMIT" ++ long 0 "INSERT INTO t VALUES (6)"

/-- **Without room, a row id can be shared**: the working table still has the counter it began with,
and its row gets the id of the one that has been committed. -/
theorem not_rowIds_of_reachable : ¬∀ [Platform] (pool : ConnectionPool)
    (history : Nat → Transcript) (c : Nat) (state : TransactionState) (table : String)
    (rowId : RowId), recorded64.Reachable (pool, history) → pool.transactionOf c = some state →
      Inserted (history c) state table rowId → pool.committed.version table rowId = none := by
  intro h
  have hreachable := reachableVia_recordedFrom init64_loaded sharedRowId
    (Machine.stepsSatisfy_true _ _)
  have hshared : ((recordedFrom loaded sharedRowId).1.transactionOf 0).any (fun state ↦
      ((recordedFrom loaded sharedRowId).2 0).snapshot.version "t" maxRowId = none ∧
      (state.catalog.version "t" maxRowId).isSome ∧
      ((recordedFrom loaded sharedRowId).1.committed.version "t" maxRowId).isSome) = true := by
    decide +kernel
  rw [Option.any_eq_true] at hshared
  obtain ⟨state, hopen, htest⟩ := hshared
  rw [decide_eq_true_eq] at htest
  obtain ⟨hnone, hrow, hcommitted⟩ := htest
  have hfree := @h Platform.ascii _ _ 0 state "t" maxRowId hreachable hopen
    ⟨hnone, Option.isSome_iff_exists.mp hrow⟩
  rw [hfree] at hcommitted
  cases hcommitted

end ConnectionPool

end Fsql
