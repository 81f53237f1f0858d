import Fsql.Engine
import Fsql.Library.LockTable

/-!
# The connection pool

`pool.rs`: connections that share one database, each with a transaction of its own.  A transaction
works on a copy of the catalog; the rows it touches are locked by key in a table that all share,
and `COMMIT` copies the locked rows back.

The shared state is guarded by a mutex that one call takes several times, so a call is not one step
of the system but a step for each critical section, in the order of `Phase`: the text is parsed and
the logs are opened (`call`); the transaction is begun or ended, a statement outside a transaction
is executed, a schema change is admitted, or the rows are locked (`enter`); an admitted or locked
statement is executed (`proceed`); the logs are closed (`finish`).  Between these the other
connections run.  `ConnectionPool.machine` has all interleavings of such steps.

The times in the log records, the error log, and the poisoning of mutexes other than that of a
statement cache are left out.
-/

set_option autoImplicit false

namespace Fsql

/-! ## Transactions and locks -/

/-- `TransactionState`. -/
structure TransactionState where
  /-- The number the row locks are entered under. -/
  id : Nat
  /-- The working catalog. -/
  catalog : Catalog
  /-- The keys of the row locks held. -/
  lockedRows : BTreeSet String

/-- `SharedDatabase`. -/
structure SharedDatabase where
  /-- The database, with the committed catalog. -/
  database : Database
  /-- The transaction that holds each key. -/
  rowLocks : LockTable String Nat

/-- `row_lock_key`. -/
def rowLockKey (table : String) (rowId : RowId) : String :=
  "row:" ++ table ++ ":" ++ String.ofList (Number.decimal rowId)

/-- `insert_lock_key`. -/
def insertLockKey (catalog : Catalog) (table : String) (statement : Statement) : Result String :=
  match statement with
  | .insert _ columns values =>
    match catalog.tables[table]? with
    | none => .error (execution "unknown table")
    | some tableRef =>
      let next :=
        "insert:" ++ table ++ ":next:" ++ String.ofList (Number.decimal tableRef.nextRowId)
      match tableRef.primaryKey with
      | none => .ok next
      | some primaryKey =>
        let targetColumns := columns.getD (tableRef.columns.map (·.name))
        match (targetColumns.zip values).find? (·.1 = primaryKey) with
        | some (_, value) => (indexKey value).map fun key ↦ "insert:" ++ table ++ ":" ++ key
        | none => .ok next
  | _ => .error (execution "insert lock requested for non-insert statement")

/-- `release_locks`. -/
def releaseLocks (rowLocks : LockTable String Nat) (state : TransactionState) :
    LockTable String Nat :=
  LockTable.release state.id state.lockedRows.toList rowLocks

/-- `reserve_insert_row_id`.  The sum has no bound here; `ConnectionPool.step64` takes it modulo
`2 ^ 64`. -/
def reserveInsertRowId (shared : SharedDatabase) (state : TransactionState)
    (statement : Statement) : Result Unit × SharedDatabase × TransactionState :=
  match statement with
  | .insert table _ _ =>
    match shared.database.catalog.tables[table]? with
    | none => (.error (execution "unknown table"), shared, state)
    | some committed =>
      let reserved := committed.nextRowId
      let catalog : Catalog := ⟨shared.database.catalog.tables.insert table
        { committed with nextRowId := committed.nextRowId + 1 }⟩
      let shared := { shared with database := { shared.database with catalog } }
      match state.catalog.tables[table]? with
      | none => (.error (execution "unknown table"), shared, state)
      | some staged =>
        let staged := if staged.nextRowId < reserved then { staged with nextRowId := reserved }
          else staged
        let rowKey := rowLockKey table reserved
        (.ok (), { shared with rowLocks := shared.rowLocks.insert rowKey state.id },
          { state with
            catalog := ⟨state.catalog.tables.insert table staged⟩
            lockedRows := state.lockedRows.insert rowKey })
  | _ => (.ok (), shared, state)

section Platform

variable [Platform]

/-- `rows_to_lock`. -/
def rowsToLock (catalog : Catalog) (statement : Statement) (options : TableRuntimeOptions) :
    Result (List String) :=
  match statement with
  | .update table _ filter | .delete table filter =>
    match catalog.tables[table]? with
    | none => .error (execution "unknown table")
    | some tableRef =>
      (tableRef.matchingRowIdsForLock filter options).map fun rowIds ↦ rowIds.map (rowLockKey table)
  | .insert table _ _ => (insertLockKey catalog table statement).map ([·])
  | _ => .ok []

/-- `Connection::lock_statement_rows`. -/
def lockStatementRows (shared : SharedDatabase) (statement : Statement)
    (state : TransactionState) : Result Unit × SharedDatabase × TransactionState :=
  match rowsToLock state.catalog statement (tableRuntimeOptions shared.database.options) with
  | .error error => (.error error, shared, state)
  | .ok rows =>
    match LockTable.acquire state.id rows shared.rowLocks state.lockedRows with
    | (.error row, rowLocks, lockedRows) =>
      (.error (execution s!"row lock conflict on {row}"), { shared with rowLocks },
        { state with lockedRows })
    | (.ok (), rowLocks, lockedRows) =>
      reserveInsertRowId { shared with rowLocks } { state with lockedRows } statement

/-! ## Merging -/

/-- Copy the rows whose keys are in a list from the staged table, erasing those it has not. -/
def overlayRows (tableName : String) (staged : Table) :
    List String → BTreeMap RowId Row → Result (BTreeMap RowId Row)
  | [], rows => .ok rows
  | key :: keys, rows =>
    let pre := ("row:" ++ tableName ++ ":").toList
    if pre.isPrefixOf key.toList then
      match Number.parseUnbounded (key.toList.drop pre.length) with
      | none => .error (execution "invalid locked row id")
      | some rowId =>
        overlayRows tableName staged keys (match staged.rows[rowId]? with
          | some row => rows.insert rowId row
          | none => rows.erase rowId)
    else overlayRows tableName staged keys rows

/-- Copy the rows with the ids of a list from the staged table. -/
def appendRows (staged : Table) (rowIds : List RowId) (rows : BTreeMap RowId Row) :
    BTreeMap RowId Row :=
  rowIds.foldl (fun rows rowId ↦
    match staged.rows[rowId]? with
    | some row => rows.insert rowId row
    | none => rows) rows

/-- The merge of one table into the committed one.  The indexes are rebuilt with default options. -/
def mergeTable (tableName : String) (target staged : Table) (lockedRows : List String) :
    Result Table := do
  let rows ← overlayRows tableName staged lockedRows target.rows
  let merged := { target with
    rows := appendRows staged
      (List.range' target.nextRowId (staged.nextRowId - target.nextRowId)) rows
    nextRowId := max target.nextRowId staged.nextRowId }
  let (result, merged) := merged.rebuildIndexesWithOptions {}
  result.map fun _ ↦ merged

/-- The merge of the staged tables of a list, one after the other. -/
def mergeTables (lockedRows : List String) : List (String × Table) → Catalog → Result Catalog
  | [], merged => .ok merged
  | (tableName, table) :: tables, merged =>
    match merged.tables[tableName]? with
    | none => mergeTables lockedRows tables ⟨merged.tables.insert tableName table⟩
    | some target =>
      match mergeTable tableName target table lockedRows with
      | .error error => .error error
      | .ok table => mergeTables lockedRows tables ⟨merged.tables.insert tableName table⟩

/-- `merge_catalogs`. -/
def mergeCatalogs (base staged : Catalog) (lockedRows : BTreeSet String) : Result Catalog :=
  mergeTables lockedRows.toList staged.tables.toList base

/-! ## Statements -/

/-- `Connection::begin`, with the number the next transaction gets. -/
def beginTransaction (shared : SharedDatabase) (nextTransactionId : Nat)
    (transaction : Option TransactionState) :
    Result QueryResult × Nat × Option TransactionState :=
  if transaction.isSome then
    (.error (execution "transaction already active"), nextTransactionId, transaction)
  else
    (.ok (.ofMessage "transaction started"), nextTransactionId + 1,
      some ⟨nextTransactionId, shared.database.activeCatalog, ∅⟩)

/-- `Database::replace_catalog`. -/
def Database.replaceCatalog (db : Database) (catalog : Catalog) : Database :=
  { db with catalog, transaction := none }

/-- `Connection::commit`.  A merge that fails returns before the locks are released. -/
def commitTransaction (shared : SharedDatabase) (transaction : Option TransactionState)
    (persist : Option Error) : Result QueryResult × SharedDatabase × Option TransactionState :=
  match transaction with
  | none => (.error (execution "no active transaction"), shared, none)
  | some state =>
    let previous := shared.database.catalog
    match mergeCatalogs shared.database.catalog state.catalog state.lockedRows with
    | .error error => (.error error, shared, none)
    | .ok merged =>
      let database := shared.database.replaceCatalog merged
      match database.persist persist with
      | .error error =>
        (.error error,
          ⟨database.replaceCatalog previous, releaseLocks shared.rowLocks state⟩, none)
      | .ok () =>
        (.ok (.ofMessage "transaction committed"),
          ⟨database, releaseLocks shared.rowLocks state⟩, none)

/-- `Connection::rollback`. -/
def rollbackTransaction (shared : SharedDatabase) (transaction : Option TransactionState) :
    Result QueryResult × SharedDatabase × Option TransactionState :=
  match transaction with
  | none => (.error (execution "no active transaction"), shared, none)
  | some state =>
    (.ok (.ofMessage "transaction rolled back"),
      { shared with rowLocks := releaseLocks shared.rowLocks state }, none)

/-- `Connection::execute_catalog_statement` outside a transaction: the statement is executed on the
committed catalog, which is put back when it fails or cannot be made durable. -/
def executeShared (shared : SharedDatabase) (statement : Statement) (persist : Option Error) :
    Result QueryResult × SharedDatabase :=
  let before := shared.database.catalog
  let (result, catalog) := executeStatementWithOptions shared.database.catalog statement
    (tableRuntimeOptions shared.database.options)
  let database := { shared.database with catalog }
  match result with
  | .error error => (.error error, { shared with database := database.replaceCatalog before })
  | .ok result =>
    match database.persist persist with
    | .error error => (.error error, { shared with database := database.replaceCatalog before })
    | .ok () => (.ok result, { shared with database })

/-! ## Connections -/

/-- How far a connection is with the statement of a call. -/
inductive Phase
  /-- No call is going on. -/
  | idle
  /-- The statement is parsed, and the logs are opened. -/
  | called (statement : Statement)
  /-- The schema change has passed the check of the row locks. -/
  | admitted (statement : Statement)
  /-- The rows of the statement are locked. -/
  | locked (statement : Statement)
  /-- The statement has been executed with a result. -/
  | returned (statement : Statement) (result : Result QueryResult)

/-- `Connection`. -/
structure Connection where
  /-- The open transaction. -/
  transaction : Option TransactionState := none
  /-- The statements parsed so far. -/
  statementCache : BTreeMap String Statement := ∅
  /-- The parser has panicked while the statement cache was locked. -/
  cachePoisoned : Bool := false
  /-- How far the current call is. -/
  phase : Phase := .idle
  /-- What the last call has returned. -/
  lastResult : Option (Parse QueryResult) := none

/-- The first critical section of a statement: what the call goes on with, and the shared state,
the next transaction's number and the connection's transaction after it. -/
def enterStatement (shared : SharedDatabase) (nextTransactionId : Nat)
    (transaction : Option TransactionState) (statement : Statement) (persist : Option Error) :
    Phase × SharedDatabase × Nat × Option TransactionState :=
  match statement with
  | .begin =>
    let (result, nextTransactionId, transaction) :=
      beginTransaction shared nextTransactionId transaction
    (.returned statement result, shared, nextTransactionId, transaction)
  | .commit =>
    let (result, shared, transaction) := commitTransaction shared transaction persist
    (.returned statement result, shared, nextTransactionId, transaction)
  | .rollback =>
    let (result, shared, transaction) := rollbackTransaction shared transaction
    (.returned statement result, shared, nextTransactionId, transaction)
  | statement =>
    if statement.isDdl then
      if transaction.isSome then
        (.returned statement
          (.error (execution "ddl is not allowed inside an active transaction")), shared,
          nextTransactionId, transaction)
      else if ¬shared.rowLocks.isEmpty then
        (.returned statement (.error (execution "ddl blocked by active dml transactions")), shared,
          nextTransactionId, transaction)
      else (.admitted statement, shared, nextTransactionId, transaction)
    else
      match transaction with
      | some state =>
        match lockStatementRows shared statement state with
        | (.error error, shared, state) =>
          (.returned statement (.error error), shared, nextTransactionId, some state)
        | (.ok (), shared, state) => (.locked statement, shared, nextTransactionId, some state)
      | none =>
        let (result, shared) := executeShared shared statement persist
        (.returned statement result, shared, nextTransactionId, none)

/-- The second critical section, of a statement that has one. -/
def proceedStatement (shared : SharedDatabase) (transaction : Option TransactionState)
    (phase : Phase) (persist : Option Error) :
    Option (Phase × SharedDatabase × Option TransactionState) :=
  match phase, transaction with
  | .admitted statement, none =>
    let (result, shared) := executeShared shared statement persist
    some (.returned statement result, shared, none)
  | .locked statement, some state =>
    let (result, catalog) := executeStatementWithOptions state.catalog statement
      (tableRuntimeOptions shared.database.options)
    some (.returned statement result, shared, some { state with catalog })
  | _, _ => none

/-! ## The pool -/

/-- `PoolInner`, with the connections that are checked out. -/
structure ConnectionPool where
  /-- The state the connections share. -/
  shared : SharedDatabase
  /-- The number of connections that can still be checked out. -/
  permits : Nat
  /-- The number of connections that can be checked out at all. -/
  maxConnections : Nat
  /-- The number the next transaction gets. -/
  nextTransactionId : Nat
  /-- The connections that are checked out. -/
  connections : BTreeMap Nat Connection

/-- A step of one connection; what the environment decides comes with it. -/
inductive PoolAction
  /-- The connection is checked out. -/
  | get (connection : Nat)
  /-- The connection is dropped. -/
  | drop (connection : Nat)
  /-- A text is passed to the connection. -/
  | call (connection : Nat) (sql : String) (log : LogOutcome)
  /-- The statement's first critical section. -/
  | enter (connection : Nat) (persist : Option Error)
  /-- The statement's second critical section. -/
  | proceed (connection : Nat) (persist : Option Error)
  /-- The call returns. -/
  | finish (connection : Nat) (log : LogOutcome)

namespace ConnectionPool

/-- `ConnectionPool::from_database`. -/
def fromDatabase (database : Database) (maxConnections : Nat) : Result ConnectionPool :=
  if maxConnections = 0 then .error (execution "connection pool size must be greater than zero")
  else .ok ⟨⟨database, ∅⟩, maxConnections, maxConnections, 1, ∅⟩

/-- `ConnectionPool::get`. -/
def get (pool : ConnectionPool) (c : Nat) : Option ConnectionPool :=
  if pool.permits = 0 ∨ c ∈ pool.connections then none
  else some { pool with
    permits := pool.permits - 1
    connections := pool.connections.insert c {} }

/-- `Drop for Connection`. -/
def drop (pool : ConnectionPool) (c : Nat) : Option ConnectionPool :=
  match pool.connections[c]? with
  | some ⟨transaction, _, _, .idle, _⟩ => some { pool with
      shared := { pool.shared with
        rowLocks := match transaction with
          | some state => releaseLocks pool.shared.rowLocks state
          | none => pool.shared.rowLocks }
      permits := pool.permits + 1
      connections := pool.connections.erase c }
  | _ => none

/-- The text is parsed, and the logs are opened. -/
def callConnection (pool : ConnectionPool) (connection : Connection) (sql : String)
    (log : LogOutcome) : Connection :=
  if connection.cachePoisoned then
    { connection with
      lastResult := some (.error (.error (execution "statement cache lock poisoned"))) }
  else
    let options := pool.shared.database.options
    match parseWithCache connection.statementCache options.cacheCapacity sql options.sqlDialect with
    | (.error fault, statementCache) =>
      { connection with
        statementCache, cachePoisoned := fault = .panic, lastResult := some (.error fault) }
    | (.ok statement, statementCache) =>
      match pool.shared.database.logBefore statement log with
      | .error error =>
        { connection with statementCache, lastResult := some (.error (.error error)) }
      | .ok () => { connection with statementCache, phase := .called statement }

@[inherit_doc callConnection]
def call (pool : ConnectionPool) (c : Nat) (sql : String) (log : LogOutcome) :
    Option ConnectionPool :=
  match pool.connections[c]? with
  | some ⟨transaction, statementCache, cachePoisoned, .idle, lastResult⟩ =>
    some { pool with
      connections := pool.connections.insert c (pool.callConnection
        ⟨transaction, statementCache, cachePoisoned, .idle, lastResult⟩ sql log) }
  | _ => none

/-- The first critical section of the statement a connection is called with. -/
def enter (pool : ConnectionPool) (c : Nat) (persist : Option Error) : Option ConnectionPool :=
  match pool.connections[c]? with
  | some connection =>
    match connection.phase with
    | .called statement =>
      let (phase, shared, nextTransactionId, transaction) := enterStatement pool.shared
        pool.nextTransactionId connection.transaction statement persist
      some { pool with
        shared, nextTransactionId
        connections := pool.connections.insert c { connection with phase, transaction } }
    | _ => none
  | none => none

/-- The second critical section. -/
def proceed (pool : ConnectionPool) (c : Nat) (persist : Option Error) : Option ConnectionPool :=
  match pool.connections[c]? with
  | some connection =>
    match proceedStatement pool.shared connection.transaction connection.phase persist with
    | some (phase, shared, transaction) =>
      some { pool with
        shared
        connections := pool.connections.insert c { connection with phase, transaction } }
    | none => none
  | none => none

/-- What a call returns: the result of its statement, unless the logs cannot be closed. -/
def finalResult (pool : ConnectionPool) (statement : Statement) (result : Result QueryResult)
    (log : LogOutcome) : Result QueryResult :=
  match result with
  | .error error => .error error
  | .ok result => (pool.shared.database.logAfter statement log).map fun _ ↦ result

/-- The logs are closed, and the call returns. -/
def finish (pool : ConnectionPool) (c : Nat) (log : LogOutcome) : Option ConnectionPool :=
  match pool.connections[c]? with
  | some connection =>
    match connection.phase with
    | .returned statement result =>
      some { pool with
        connections := pool.connections.insert c { connection with
          phase := .idle
          lastResult := some ((pool.finalResult statement result log).mapError .error) } }
    | _ => none
  | none => none

/-- One step of one connection. -/
def step (pool : ConnectionPool) : PoolAction → Option ConnectionPool
  | .get c => pool.get c
  | .drop c => pool.drop c
  | .call c sql log => pool.call c sql log
  | .enter c persist => pool.enter c persist
  | .proceed c persist => pool.proceed c persist
  | .finish c log => pool.finish c log

/-- **The runs of a pool** on a database that is coherent and has no transaction of its own.  Row-id
counters have no bound here; `ConnectionPool.machine64` has those of 64 bits. -/
def machine : Machine ConnectionPool PoolAction where
  init pool := ∃ database maxConnections, database.catalog.Coherent ∧
    database.transaction = none ∧ fromDatabase database maxConnections = .ok pool
  step := step

end ConnectionPool

end Platform

end Fsql
