import Fsql.Pool.Invariant
import Fsql.Storage.RowIds

/-!
# The counters in 64 bits

A row-id counter of the source is a `u64`, and drawing a row id adds one to it.  At `2 ^ 64 - 1`
the sum does not fit: a build that checks for overflow panics, and one that does not, as a release
build, goes on from `0`.  `ConnectionPool.machine64` is the pool of the latter.

No pool comes to that by counting, but it can begin there: with a table that has been read from a
file with the row id `2 ^ 64 - 2`.  `ConnectionPool.HasRoom` says of the state before a step that
the step draws no row id from a counter that is at its end.  Where all steps are so, every sum fits,
in either build, and a run is one of `ConnectionPool.machine`, which counts without a bound
(`ConnectionPool.step64_eq`).
-/

set_option autoImplicit false

namespace Fsql

/-! ## Counting modulo `2 ^ 64` -/

/-- The counter of the table as a `u64`. -/
def Table.wrap (t : Table) : Table := { t with nextRowId := t.nextRowId % 2 ^ 64 }

/-- The counters of the catalog as `u64`. -/
def Catalog.wrap (c : Catalog) : Catalog := ⟨c.tables.map fun _ t ↦ t.wrap⟩

/-- The counters of the working catalog as `u64`. -/
def TransactionState.wrap (state : TransactionState) : TransactionState :=
  { state with catalog := state.catalog.wrap }

/-- All counters of the catalog fit. -/
def Catalog.Fits (c : Catalog) : Prop := c.All fun t ↦ t.nextRowId ≤ maxRowId

theorem Table.wrap_of_le {t : Table} (h : t.nextRowId ≤ maxRowId) : t.wrap = t := by
  have hlt : t.nextRowId < 2 ^ 64 := Nat.lt_of_le_of_lt h (by decide)
  rw [Table.wrap, Nat.mod_eq_of_lt hlt]

theorem Catalog.Fits.wrap {c : Catalog} (h : c.Fits) : c.wrap = c := by
  rw [Catalog.wrap, BTree.map_eq_self fun name t ht ↦ Table.wrap_of_le (h name t ht)]

namespace ConnectionPool

/-- All counters of the pool as `u64`. -/
def wrap (pool : ConnectionPool) : ConnectionPool :=
  { pool with
    shared := { pool.shared with
      database := { pool.shared.database with catalog := pool.committed.wrap } }
    connections := pool.connections.map fun _ connection ↦
      { connection with transaction := connection.transaction.map TransactionState.wrap } }

section Platform

variable [Platform] {pool pool' : ConnectionPool}

/-- One step of one connection, with counters of 64 bits.  A critical section adds to a counter at
most once, and does not look at it afterwards, so that the sum may be taken modulo `2 ^ 64` at its
end. -/
def step64 (pool : ConnectionPool) (action : PoolAction) : Option ConnectionPool :=
  (pool.step action).map wrap

/-- **The runs of a pool with counters of 64 bits**, on a database in which all counters fit. -/
def machine64 : Machine ConnectionPool PoolAction where
  init pool := machine.init pool ∧ pool.committed.Fits
  step := step64

/-- A database that has been read has counters that fit. -/
theorem fits_of_decode64 {input : String} {options : TableRuntimeOptions} {catalog : Catalog}
    (h : Catalog.decode64 input options = .ok catalog) : catalog.Fits :=
  fun name t ht ↦ (Catalog.decode64_rowIdsOk h name t ht).nextRowId_le

/-! ## Room for one more -/

/-- The checks pass that an `INSERT` makes before it draws a row id: in a transaction, its key can
be locked; outside one, the values make a row of the table. -/
def insertPasses (shared : SharedDatabase) (transaction : Option TransactionState) (t : Table)
    (table : String) (columns : Option (List String)) (values : List Value) : Bool :=
  let options := tableRuntimeOptions shared.database.options
  match transaction with
  | some state =>
    match rowsToLock state.catalog (.insert table columns values) options with
    | .error _ => false
    | .ok keys => (LockTable.acquire state.id keys shared.rowLocks state.lockedRows).1.isOk
  | none => (t.insertRow columns values options).isOk

/-- The row id that the next critical section of a connection draws. -/
def drawnIn (shared : SharedDatabase) (transaction : Option TransactionState)
    (phase : Option Phase) : Option RowId :=
  match phase with
  | some (.called (.insert table columns values)) =>
    (shared.database.catalog.tables[table]?).bind fun t ↦
      if insertPasses shared transaction t table columns values then some t.nextRowId else none
  | _ => none

/-- **There is room for the step**: it draws no row id from a counter that is at its end. -/
def HasRoom (pool : ConnectionPool) (action : PoolAction) : Prop :=
  ∀ rowId ∈ drawnIn pool.shared (pool.transactionOf action.connection)
    (pool.phaseOf action.connection), rowId < maxRowId

instance decidableHasRoom (pool : ConnectionPool) (action : PoolAction) :
    Decidable (pool.HasRoom action) :=
  inferInstanceAs (Decidable (∀ rowId ∈ drawnIn pool.shared (pool.transactionOf action.connection)
    (pool.phaseOf action.connection), rowId < maxRowId))

/-- What is drawn is below the end of its counter. -/
theorem lt_of_insertPasses {shared : SharedDatabase} {transaction : Option TransactionState}
    {table : String} {columns : Option (List String)} {values : List Value} {t : Table}
    (hroom : ∀ rowId ∈ drawnIn shared transaction (some (.called (.insert table columns values))),
      rowId < maxRowId)
    (ht : shared.database.catalog.tables[table]? = some t)
    (hpasses : insertPasses shared transaction t table columns values = true) :
    t.nextRowId < maxRowId := by
  refine hroom t.nextRowId ?_
  rw [drawnIn, ht, Option.bind_some, if_pos hpasses]
  rfl

/-! ## A step with room -/

/-- A statement leaves counters that fit, if an insertion finds room. -/
theorem fits_executeStatement {catalog : Catalog} (hc : catalog.Coherent) (hfits : catalog.Fits)
    {options : TableRuntimeOptions} (statement : Statement)
    (hroom : ∀ table columns values t, statement = .insert table columns values →
      catalog.tables[table]? = some t → (t.insertRow columns values options).isOk = true →
        t.nextRowId < maxRowId) :
    (executeStatementWithOptions catalog statement options).2.Fits := by
  intro name t' ht'
  have hchanges := @executeStatement_changes _ options catalog hc statement
  rcases ht : catalog.tables[name]? with _ | t
  · rw [(hchanges.added name t' ht ht').2.2]
    decide
  · obtain ⟨t'', ht'', htable⟩ := hchanges.kept name t ht
    obtain rfl := Option.some.inj (ht'.symm.trans ht'')
    by_contra hgt
    have hle := hfits name t ht
    rcases version_of_touchedRows hc (htable.new maxRowId hle (Nat.not_le.mp hgt)) with
      ⟨row, hrow⟩ | ⟨columns, values, u, rfl, hu, hmax⟩
    · -- the row is there, and so its id is below the counter
      rw [Catalog.version, ht, Option.bind_some] at hrow
      exact absurd ((hc name t ht).rowId_lt maxRowId row hrow) (Nat.not_lt.mpr hle)
    · obtain rfl := Option.some.inj (ht.symm.trans hu)
      rcases hrow : t.insertRow columns values options with error | row
      · -- an insertion whose checks fail leaves the table
        have hsame : (executeStatementWithOptions catalog (.insert name columns values)
            options).2.tables[name]? = some t := by
          simp only [executeStatementWithOptions]
          rw [Catalog.modifyTable_self _ ht, BTree.getElem?_insert, if_pos rfl]
          simp only [Table.insertWithOptions, hrow]
        obtain rfl := Option.some.inj (ht'.symm.trans hsame)
        exact hgt hle
      · have hlt := hroom name columns values t rfl ht (by rw [hrow]; rfl)
        rw [← hmax] at hlt
        exact absurd hlt (Nat.lt_irrefl _)

/-- Locking leaves counters that fit, if an insertion finds room. -/
theorem fits_lockStatementRows {shared : SharedDatabase} {state : TransactionState}
    (hfits : shared.database.catalog.Fits) {statement : Statement}
    (hroom : ∀ rowId ∈ drawnIn shared (some state) (some (.called statement)), rowId < maxRowId) :
    (lockStatementRows shared statement state).2.1.database.catalog.Fits := by
  rw [lockStatementRows]
  rcases hkeys : rowsToLock state.catalog statement (tableRuntimeOptions shared.database.options)
    with error | keys
  · exact hfits
  · dsimp only
    rcases hacquire : LockTable.acquire state.id keys shared.rowLocks state.lockedRows with
      ⟨error | _, rowLocks, lockedRows⟩
    · exact hfits
    · dsimp only
      unfold reserveInsertRowId
      split
      · rename_i table columns values
        rcases hcommitted : shared.database.catalog.tables[table]? with _ | committed
        · exact hfits
        · have hlt := lt_of_insertPasses hroom hcommitted (by
            simp only [insertPasses, hkeys, hacquire]
            rfl)
          have hbumped : Catalog.Fits ⟨shared.database.catalog.tables.insert table
              { committed with nextRowId := committed.nextRowId + 1 }⟩ := by
            intro name t ht
            rw [BTree.getElem?_insert] at ht
            split at ht
            · obtain rfl := Option.some.inj ht
              exact hlt
            · exact hfits name t ht
          dsimp only
          split <;> exact hbumped
      · exact hfits

/-- A merge draws no row ids. -/
theorem fits_mergeCatalogs {base staged merged : Catalog} {lockedRows : BTreeSet String}
    (h : MergeInput base staged lockedRows) (hfits : base.Fits)
    (hok : mergeCatalogs base staged lockedRows = .ok merged) : merged.Fits := by
  obtain ⟨-, hkept, hnew⟩ := mergeCatalogs_spec h hok
  intro name m hm
  rcases hstaged : staged.tables[name]? with _ | t
  · exact hfits name m ((hkept name hstaged).symm.trans hm)
  · obtain ⟨target, m', htarget, hm', hfrom⟩ := hnew name t hstaged
    obtain rfl := Option.some.inj (hm.symm.trans hm')
    rw [hfrom.nextRowId]
    exact hfits name target htarget

/-- **What an effect leaves fits**, if there is room for it. -/
theorem fits_of_effect {phase : Option Phase} {shared shared' : SharedDatabase} {n n' : Nat}
    {tx tx' : Option TransactionState} (h : Effect phase shared n tx shared' n' tx')
    (hs : shared.Inv) (hstate : ∀ state ∈ tx, state.Inv shared)
    (hfits : shared.database.catalog.Fits)
    (hroom : ∀ rowId ∈ drawnIn shared tx phase, rowId < maxRowId) :
    shared'.database.catalog.Fits := by
  cases h with
  | lock state statement hphase =>
    rw [hphase] at hroom
    exact fits_lockStatementRows hfits hroom
  | publish state merged hmerged =>
    exact fits_mergeCatalogs ((hstate state rfl).mergeInput hs) hfits hmerged
  | direct statement hphase =>
    refine fits_executeStatement hs.coherent hfits statement ?_
    rintro table columns values t rfl ht hrow
    rcases hphase with rfl | ⟨-, hddl⟩
    · exact lt_of_insertPasses hroom ht hrow
    · cases hddl
  | _ => exact hfits

/-- **Counters that fit are left as they are.** -/
theorem Inv.wrap_eq (hinv : pool.Inv) (hfits : pool.committed.Fits) : pool.wrap = pool := by
  have hconnections : (pool.connections.map fun _ connection ↦
      { connection with transaction := connection.transaction.map TransactionState.wrap }) =
      pool.connections := by
    refine BTree.map_eq_self fun c connection hconnection ↦ ?_
    rcases htransaction : connection.transaction with _ | state
    · rw [Option.map_none, ← htransaction]
    · -- the counters of a transaction are at most the committed ones
      have hbelow := (hinv.states c state
        ((transactionOf_eq hconnection).trans htransaction)).below
      have hstate : state.catalog.Fits := by
        intro name t ht
        obtain ⟨target, htarget, hle⟩ := hbelow name t ht
        exact le_trans hle (hfits name target htarget)
      rw [Option.map_some, TransactionState.wrap, hstate.wrap, ← htransaction]
  rw [wrap, hfits.wrap, hconnections]

/-- **A step with room** is one without a bound, and leaves counters that fit. -/
theorem step64_eq (hinv : pool.Inv) (hfits : pool.committed.Fits) {action : PoolAction}
    (hroom : pool.HasRoom action) :
    pool.step64 action = pool.step action ∧
      ∀ pool', pool.step action = some pool' → pool'.committed.Fits := by
  have hafter (pool' : ConnectionPool) (hstep : pool.step action = some pool') :
      pool'.Inv ∧ pool'.committed.Fits := by
    have hstepOf := step_cases (hinv.ready action.connection) hstep
    exact ⟨hstepOf.inv hinv, fits_of_effect hstepOf.effect hinv.shared
      (hinv.ready action.connection).state hfits hroom⟩
  refine ⟨?_, fun pool' hstep ↦ (hafter pool' hstep).2⟩
  rw [step64]
  rcases hstep : pool.step action with _ | pool'
  · rfl
  · obtain ⟨hinv', hfits'⟩ := hafter pool' hstep
    rw [Option.map_some, hinv'.wrap_eq hfits']

end Platform

end ConnectionPool

end Fsql
