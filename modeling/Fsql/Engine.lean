import Fsql.Library.Machine
import Fsql.Sql.Parser
import Fsql.Storage.Catalog

/-!
# The engine

`engine.rs`: executing one statement on a catalog, and the `Database`, which parses a text, keeps
the committed catalog and the working catalog of an open transaction, and writes the logs.

What the environment decides — which log writes and which writes of the database file fail — is in
an `Outcome`.  The times in the log records and the slow-statement log, which no result depends on,
are left out.
-/

set_option autoImplicit false

namespace Fsql

open Text

/-! ## Executing a statement on a catalog -/

/-- `table_runtime_options`. -/
def tableRuntimeOptions (options : DatabaseOptions) : TableRuntimeOptions where
  fulltextTokenizer := options.fulltextTokenizer
  vectorIndex := options.vectorIndex
  geoCoordinateSystem := options.geoCoordinateSystem
  workerThreads := options.workerThreads

section Execute

variable [Platform]

/-- `execute_statement_with_options`. -/
def executeStatementWithOptions (catalog : Catalog) (statement : Statement)
    (options : TableRuntimeOptions) : Result QueryResult × Catalog :=
  match statement with
  | .createTable name columns =>
    if name ∈ catalog.tables then
      (.error (execution s!"table {name} already exists"), catalog)
    else
      match Table.new name columns with
      | .error error => (.error error, catalog)
      | .ok table => (.ok (.ofMessage "table created"), ⟨catalog.tables.insert name table⟩)
  | .createIndex name table column fulltext =>
    let (result, catalog) := catalog.modifyTable table fun table ↦
      if fulltext then table.createFulltextIndexWithOptions name column options
      else table.createIndex name column
    (result.map fun _ ↦ .ofMessage "index created", catalog)
  | .insert table columns values =>
    let (result, catalog) := catalog.modifyTable table (·.insertWithOptions columns values options)
    (result.map fun _ ↦ .affected 1 "row inserted", catalog)
  | .select table projection filter order limit =>
    match catalog.tables[table]? with
    | none => (.error (execution "unknown table"), catalog)
    | some table =>
      ((table.selectWithOptions projection filter order limit options).map QueryResult.ofRows,
        catalog)
  | .update table assignments filter =>
    let (result, catalog) := catalog.modifyTable table
      (·.updateWithOptions assignments filter options)
    (result.map fun affected ↦ .affected affected "row(s) updated", catalog)
  | .delete table filter =>
    let (result, catalog) := catalog.modifyTable table (·.deleteWithOptions filter options)
    (result.map fun affected ↦ .affected affected "row(s) deleted", catalog)
  | .parsedOnly kind sql =>
    (.error (execution
      s!"{kind.asStr} parsed successfully but execution is not implemented yet: {sql}"), catalog)
  | .begin | .commit | .rollback | .explain _ =>
    (.error (execution
      "transaction statements must be executed by the transaction manager"), catalog)

end Execute

/-- `explain_row`. -/
def explainRow (table : String) (filter : Option Filter) (accessPath : AccessPath) : Row :=
  let predicate := match filter with
    | some (.equals column _) => s!"{column} = ?"
    | some (.fullText column _) => s!"MATCH({column}, ...)"
    | some (.geoWithin column _ _ _) => s!"GEO_DISTANCE({column}, ...)"
    | none => "none"
  let (accessMethod, indexName) : String × Value := match accessPath with
    | .tableScan => ("table_scan", .null)
    | .primaryKey => ("primary_key", .text "PRIMARY")
    | .secondaryIndex indexName => ("secondary_index", .text indexName)
    | .fullTextIndex indexName => ("fulltext_index", .text indexName)
  (((∅ : Row).insert "table" (.text table)).insert "predicate" (.text predicate)).insert
    "access_method" (.text accessMethod) |>.insert "index_name" indexName

/-! ## The statement cache -/

/-- `parse_with_cache`. -/
def parseWithCache (cache : BTreeMap String Statement) (capacity : Nat) (sql : String)
    (dialect : SqlDialect) : Parse Statement × BTreeMap String Statement :=
  if capacity = 0 then (parseSqlWithDialect sql dialect, cache)
  else
    let key := String.ofList (stripStatement sql.toList)
    match cache[key]? with
    | some statement => (.ok statement, cache)
    | none =>
      match parseSqlWithDialect sql dialect with
      | .error fault => (.error fault, cache)
      | .ok statement =>
        let cache := if capacity ≤ cache.size then
            match cache.keys.head? with
            | some firstKey => cache.erase firstKey
            | none => cache
          else cache
        (.ok statement, cache.insert key statement)

/-! ## The database -/

/-- What the environment does during one call. -/
structure Outcome where
  /-- The log writes. -/
  log : LogOutcome := {}
  /-- The write of the database file: none, or the error it fails with. -/
  persist : Option Error := none
deriving DecidableEq

/-- `Database`.  The path is `none` for an in-memory database. -/
structure Database where
  /-- The database file. -/
  path : Option String
  /-- The committed catalog. -/
  catalog : Catalog
  /-- The working catalog of the open transaction. -/
  transaction : Option Catalog
  /-- The options it was opened with. -/
  options : DatabaseOptions
  /-- The statements parsed so far, by their stripped text. -/
  statementCache : BTreeMap String Statement

namespace Database

/-- `Database::try_memory_with_options`. -/
def tryMemoryWithOptions (options : DatabaseOptions) : Result Database := do
  options.validate
  return ⟨none, .empty, none, options, ∅⟩

/-- `Database::active_catalog`. -/
def activeCatalog (db : Database) : Catalog := db.transaction.getD db.catalog

/-- `Database::persist`, given what becomes of the write. -/
def persist (db : Database) (outcome : Option Error) : Result Unit :=
  appendOptionalLine db.path outcome

/-- `Database::parse_statement`. -/
def parseStatement (db : Database) (sql : String) : Parse Statement × Database :=
  let (result, cache) :=
    parseWithCache db.statementCache db.options.cacheCapacity sql db.options.sqlDialect
  (result, { db with statementCache := cache })

/-- `Database::begin`. -/
def begin (db : Database) : Result QueryResult × Database :=
  if db.transaction.isSome then (.error (execution "transaction already active"), db)
  else (.ok (.ofMessage "transaction started"), { db with transaction := some db.catalog })

/-- `Database::commit`. -/
def commit (db : Database) (outcome : Option Error) : Result QueryResult × Database :=
  match db.transaction with
  | none => (.error (execution "no active transaction"), db)
  | some transaction =>
    match { db with catalog := transaction }.persist outcome with
    | .error error => (.error error, db)
    | .ok () =>
      (.ok (.ofMessage "transaction committed"),
        { db with catalog := transaction, transaction := none })

/-- `Database::rollback`. -/
def rollback (db : Database) : Result QueryResult × Database :=
  if db.transaction.isNone then (.error (execution "no active transaction"), db)
  else (.ok (.ofMessage "transaction rolled back"), { db with transaction := none })

section Platform

variable [Platform]

/-- `Database::explain`. -/
def explain (db : Database) (statement : Statement) : Result QueryResult :=
  match statement with
  | .select table _ filter _ _ =>
    match db.activeCatalog.tables[table]? with
    | none => .error (execution "unknown table")
    | some tableRef => do
      let accessPath ← tableRef.explainFilter filter (tableRuntimeOptions db.options)
      return .ofRows [explainRow table filter accessPath]
  | _ => .error (execution "EXPLAIN only supports SELECT")

/-- `Database::execute_catalog_statement`: outside a transaction, a mutating statement that fails,
or that cannot be made durable, is undone by putting the catalog back. -/
def executeCatalogStatement (db : Database) (statement : Statement) (outcome : Option Error) :
    Result QueryResult × Database :=
  let options := tableRuntimeOptions db.options
  match db.transaction with
  | some transaction =>
    let (result, transaction) := executeStatementWithOptions transaction statement options
    (result, { db with transaction := some transaction })
  | none =>
    let (result, catalog) := executeStatementWithOptions db.catalog statement options
    if statement.mutatesCatalog then
      match result with
      | .error error => (.error error, db)
      | .ok result =>
        match { db with catalog }.persist outcome with
        | .error error => (.error error, db)
        | .ok () => (.ok result, { db with catalog })
    else (result, { db with catalog })

/-- `Database::execute_parsed`. -/
def executeParsed (db : Database) (statement : Statement) (outcome : Option Error) :
    Result QueryResult × Database :=
  match statement with
  | .begin => db.begin
  | .commit => db.commit outcome
  | .rollback => db.rollback
  | .explain statement => (db.explain statement, db)
  | statement => db.executeCatalogStatement statement outcome

/-- The log records written before a statement is executed. -/
def logBefore (db : Database) (statement : Statement) (log : LogOutcome) : Result Unit :=
  if statement.mutatesCatalog then do
    appendUndolog db.options log.undo
    appendRedolog db.options log.redoBegin
  else if statement = .commit then appendRedolog db.options log.redoBegin
  else .ok ()

/-- The log records written after a statement has succeeded. -/
def logAfter (db : Database) (statement : Statement) (log : LogOutcome) : Result Unit := do
  if statement.mutatesCatalog || statement.isTransactionControl then
    appendBinlog db.options log.binlog
  if statement.mutatesCatalog || statement = .commit then
    appendRedolog db.options log.redoCommit

/-- `Database::execute`. -/
def execute (db : Database) (sql : String) (outcome : Outcome) :
    Parse QueryResult × Database :=
  match db.parseStatement sql with
  | (.error fault, db) => (.error fault, db)
  | (.ok statement, db) =>
    match db.logBefore statement outcome.log with
    | .error error => (.error (.error error), db)
    | .ok () =>
      match db.executeParsed statement outcome.persist with
      | (.error error, db) => (.error (.error error), db)
      | (.ok result, db) =>
        match db.logAfter statement outcome.log with
        | .error error => (.error (.error error), db)
        | .ok () => (.ok result, db)

/-- **The runs of an in-memory database**: texts are executed one after the other, and the
environment decides what becomes of the log records. -/
def machine (options : DatabaseOptions) : Machine Database (String × Outcome) where
  init db := tryMemoryWithOptions options = .ok db
  step db action := some (db.execute action.1 action.2).2

end Platform

end Database

end Fsql
