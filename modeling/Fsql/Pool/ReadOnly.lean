import Fsql.Durable
import Fsql.Pool.RowLocks

/-!
# Queries and the database file

A statement that does not mutate the catalog has nothing to be made durable.  `Database` knows this
(`Database.execute_of_not_mutates`): whether the database file can be written makes no difference to
a query.  A pooled connection writes the file after every statement that succeeds outside a
transaction, queries included (`executeShared`), and a query whose rows have been found fails when
the file cannot be written.  `readOnly_iff` says that these are the only ones.
-/

set_option autoImplicit false

namespace Fsql

/-! ## What is written -/

/-- The catalogs that `Database::persist_catalog` tries to write. -/
def Database.persistWrites (db : Database) : List Catalog :=
  if db.path.isSome then [db.catalog] else []

/-- Without an attempt to write, what would become of it does not matter. -/
theorem Database.persist_eq_ok {db : Database} (h : db.persistWrites = [])
    (outcome : Option Error) : db.persist outcome = .ok () := by
  rw [persistWrites] at h
  split at h
  · cases h
  · rename_i hpath
    rw [persist, Option.not_isSome_iff_eq_none.mp hpath]
    rfl

section Platform

variable [Platform]

/-- The catalogs that `executeShared` tries to write. -/
def executeSharedWrites (shared : SharedDatabase) (statement : Statement) : List Catalog :=
  let (result, catalog) := executeStatementWithOptions shared.database.catalog statement
    (tableRuntimeOptions shared.database.options)
  match result with
  | .error _ => []
  | .ok _ => { shared.database with catalog }.persistWrites

/-- The catalogs that the first critical section of a statement tries to write. -/
def enterStatementWrites (shared : SharedDatabase) (transaction : Option TransactionState)
    (statement : Statement) : List Catalog :=
  match statement with
  | .begin | .rollback => []
  | .commit =>
    match transaction with
    | none => []
    | some state =>
      match mergeCatalogs shared.database.catalog state.catalog state.lockedRows with
      | .error _ => []
      | .ok merged => (shared.database.replaceCatalog merged).persistWrites
  | statement =>
    if statement.isDdl then []
    else
      match transaction with
      | some _ => []
      | none => executeSharedWrites shared statement

theorem enterStatementWrites_eq {statement : Statement} (h : statement.isTransactionControl = false)
    (shared : SharedDatabase) (transaction : Option TransactionState) :
    enterStatementWrites shared transaction statement =
      if statement.isDdl then []
      else
        match transaction with
        | some _ => []
        | none => executeSharedWrites shared statement := by
  cases statement <;> first | rfl | cases h

theorem executeShared_congr {shared : SharedDatabase} {statement : Statement}
    (h : executeSharedWrites shared statement = []) (persist persist' : Option Error) :
    executeShared shared statement persist = executeShared shared statement persist' := by
  dsimp only [executeShared, executeSharedWrites] at h ⊢
  generalize executeStatementWithOptions shared.database.catalog statement
    (tableRuntimeOptions shared.database.options) = executed at h ⊢
  obtain ⟨error | result, catalog⟩ := executed
  · rfl
  · dsimp only at h ⊢
    rw [Database.persist_eq_ok h, Database.persist_eq_ok h]

theorem commitTransaction_congr {shared : SharedDatabase} {transaction : Option TransactionState}
    (h : enterStatementWrites shared transaction .commit = []) (persist persist' : Option Error) :
    commitTransaction shared transaction persist =
      commitTransaction shared transaction persist' := by
  rcases transaction with _ | state
  · rfl
  · dsimp only [commitTransaction, enterStatementWrites] at h ⊢
    generalize mergeCatalogs shared.database.catalog state.catalog state.lockedRows = merge at h ⊢
    rcases merge with error | merged
    · rfl
    · dsimp only at h ⊢
      rw [Database.persist_eq_ok h, Database.persist_eq_ok h]

/-- **A section that does not try to write** takes the same course whatever would become of a
write. -/
theorem enterStatement_congr {shared : SharedDatabase} {transaction : Option TransactionState}
    {statement : Statement} (h : enterStatementWrites shared transaction statement = [])
    (nextTransactionId : Nat) (persist persist' : Option Error) :
    enterStatement shared nextTransactionId transaction statement persist =
      enterStatement shared nextTransactionId transaction statement persist' := by
  by_cases hcontrol : statement.isTransactionControl = false
  · rw [enterStatementWrites_eq hcontrol] at h
    rw [enterStatement_eq hcontrol, enterStatement_eq hcontrol]
    rcases hddl : statement.isDdl
    · rcases transaction with _ | state
      · rw [hddl] at h
        rw [executeShared_congr h persist persist']
      · rfl
    · rfl
  · cases statement with
    | begin => rfl
    | rollback => rfl
    | commit => rw [enterStatement, enterStatement, commitTransaction_congr h persist persist']
    | _ => exact absurd rfl hcontrol

/-! ## Queries -/

/-- The statement is a query whose rows can be found. -/
def Catalog.Answers (catalog : Catalog) (statement : Statement) (options : TableRuntimeOptions) :
    Prop :=
  match statement with
  | .select table projection filter order limit => ∃ t rows, catalog.tables[table]? = some t ∧
      t.selectWithOptions projection filter order limit options = .ok rows
  | _ => False

/-- **What executing a statement does that does not mutate the catalog**: it fails, unless it is a
query whose rows can be found. -/
theorem executeStatement_isOk_iff {statement : Statement} (h : statement.mutatesCatalog = false)
    (catalog : Catalog) (options : TableRuntimeOptions) :
    (∃ result, (executeStatementWithOptions catalog statement options).1 = .ok result) ↔
      catalog.Answers statement options := by
  cases statement with
  | select table projection filter order limit =>
    rw [executeStatementWithOptions, Catalog.Answers]
    rcases catalog.tables[table]? with _ | t
    · simp
    · rcases hselect : t.selectWithOptions projection filter order limit options with error | rows
      · simp [hselect, Except.map]
      · simp [hselect, Except.map]
  | createTable | createIndex | insert | update | delete => cases h
  | _ => simp [executeStatementWithOptions, Catalog.Answers]

/-- **When a query tries to write the database file**: if there is one and the rows are found. -/
theorem executeSharedWrites_eq_nil_iff {shared : SharedDatabase} {statement : Statement}
    (h : statement.mutatesCatalog = false) :
    executeSharedWrites shared statement = [] ↔ shared.database.path = none ∨
      ¬shared.database.catalog.Answers statement (tableRuntimeOptions shared.database.options) := by
  rw [← executeStatement_isOk_iff h, executeSharedWrites]
  rcases executeStatementWithOptions shared.database.catalog statement
    (tableRuntimeOptions shared.database.options) with ⟨error | result, catalog⟩
  · simp
  · simp [Database.persistWrites]

/-! ## The runs of a pool -/

namespace ConnectionPool

/-- The catalogs that the first critical section of a connection's statement tries to write. -/
def enterWrites (pool : ConnectionPool) (c : Nat) : List Catalog :=
  match pool.connections[c]? with
  | some connection =>
    match connection.phase with
    | .called statement => enterStatementWrites pool.shared connection.transaction statement
    | _ => []
  | none => []

/-- **The statement of the connection does not depend on persistence**: its critical section leads
to the same state and result whether the database file can be written, and does not try to. -/
def ReadsOnly (pool : ConnectionPool) (c : Nat) : Prop :=
  (∀ persist persist' : Option Error, pool.enter c persist = pool.enter c persist') ∧
    pool.enterWrites c = []

theorem enter_congr {pool : ConnectionPool} {c : Nat} (h : pool.enterWrites c = [])
    (persist persist' : Option Error) : pool.enter c persist = pool.enter c persist' := by
  dsimp only [enter, enterWrites] at h ⊢
  rcases hconnection : pool.connections[c]? with _ | connection
  · rfl
  · rw [hconnection] at h
    dsimp only at h ⊢
    rcases hphase : connection.phase with _ | statement | _ | _ | _
    case called =>
      rw [hphase] at h
      dsimp only
      rw [enterStatement_congr h pool.nextTransactionId persist persist']
    all_goals rfl

/-- **Which statements do not depend on persistence.** -/
theorem readsOnly_iff {pool : ConnectionPool} {c : Nat} {statement : Statement}
    (hphase : pool.phaseOf c = some (.called statement)) (hopen : pool.transactionOf c = none)
    (h : statement.mutatesCatalog = false) :
    pool.ReadsOnly c ↔ pool.shared.database.path = none ∨
      ¬pool.shared.database.catalog.Answers statement
        (tableRuntimeOptions pool.shared.database.options) := by
  obtain ⟨connection, hconnection, hphase⟩ := Option.map_eq_some_iff.mp hphase
  have htransaction : connection.transaction = none :=
    (transactionOf_eq hconnection).symm.trans hopen
  have hwrites : pool.enterWrites c = [] ↔ pool.shared.database.path = none ∨
      ¬pool.shared.database.catalog.Answers statement
        (tableRuntimeOptions pool.shared.database.options) := by
    simp only [enterWrites, hconnection, hphase, htransaction]
    by_cases hcontrol : statement.isTransactionControl = false
    · have hddl : statement.isDdl = false := by
        cases statement <;> first | rfl | cases h
      rw [enterStatementWrites_eq hcontrol, hddl]
      exact executeSharedWrites_eq_nil_iff h
    · cases statement with
      | begin | commit | rollback => simp [enterStatementWrites, Catalog.Answers]
      | _ => exact absurd rfl hcontrol
  rw [ReadsOnly, hwrites]
  exact and_iff_right_of_imp fun hcases ↦ enter_congr (hwrites.mpr hcases)

end ConnectionPool

/-! ## The database -/

namespace Database

theorem executeParsed_of_not_mutates {db : Database} (hnone : db.transaction = none)
    {statement : Statement} (h : statement.mutatesCatalog = false)
    (persist persist' : Option Error) :
    db.executeParsed statement persist = db.executeParsed statement persist' := by
  have hcatalog : db.executeCatalogStatement statement persist =
      db.executeCatalogStatement statement persist' := by
    rw [executeCatalogStatement, executeCatalogStatement, hnone, h]
    rfl
  cases statement with
  | commit => rw [executeParsed, executeParsed, commit, commit, hnone]
  | begin | rollback | explain => rfl
  | _ => exact hcatalog

/-- **A statement of a database that does not mutate the catalog** does not depend on whether the
database file can be written. -/
theorem execute_of_not_mutates {db : Database} (hnone : db.transaction = none) {sql : String}
    (h : ∀ statement, (db.parseStatement sql).1 = .ok statement → statement.mutatesCatalog = false)
    (log : LogOutcome) (persist persist' : Option Error) :
    db.execute sql ⟨log, persist⟩ = db.execute sql ⟨log, persist'⟩ := by
  have hparse : (db.parseStatement sql).2.transaction = none := hnone
  rw [execute, execute]
  generalize db.parseStatement sql = parsed at h hparse ⊢
  obtain ⟨fault | statement, parsed⟩ := parsed
  · rfl
  · dsimp only
    rw [executeParsed_of_not_mutates hparse (h statement rfl) persist persist']

end Database

/-- **When the statements of a pool that do not mutate the catalog do not depend on persistence**:
if the database is in memory, or they are not queries whose rows are found. -/
theorem readOnly_iff :
    (∀ (db : Database) (sql : String), db.transaction = none →
      (∀ statement, (db.parseStatement sql).1 = .ok statement → statement.mutatesCatalog = false) →
        ∀ (log : LogOutcome) (persist persist' : Option Error),
          db.execute sql ⟨log, persist⟩ = db.execute sql ⟨log, persist'⟩) ∧
    ∀ pool : ConnectionPool, ConnectionPool.machine.Reachable pool →
      ∀ (c : Nat) (statement : Statement), pool.phaseOf c = some (.called statement) →
        pool.transactionOf c = none → statement.mutatesCatalog = false →
          (pool.ReadsOnly c ↔ pool.shared.database.path = none ∨
            ¬pool.shared.database.catalog.Answers statement
              (tableRuntimeOptions pool.shared.database.options)) :=
  ⟨fun _ _ hnone h ↦ Database.execute_of_not_mutates hnone h,
    fun _ _ _ _ hphase hopen h ↦ ConnectionPool.readsOnly_iff hphase hopen h⟩

end Platform

namespace ConnectionPool

/-- A pool on a file that is missing or empty when it is opened. -/
def onFile (path : String) (maxConnections : Nat) : ConnectionPool :=
  ⟨⟨⟨some path, .empty, none, {}, ∅⟩, ∅⟩, maxConnections, maxConnections, 1, ∅⟩

/-- A query of an empty table is about to be executed. -/
def aboutToSelect (pool : ConnectionPool) : ConnectionPool :=
  (@machine Platform.ascii).after pool
    (.get 0 :: long 0 "CREATE TABLE t (a INT)" ++ [.call 0 "SELECT * FROM t" {}])

/-- In memory, the query does not depend on persistence. -/
theorem readsOnly_memory : @ReadsOnly Platform.ascii (aboutToSelect (memory 1)) 0 := by
  have hreachable : (@machine Platform.ascii).Reachable (aboutToSelect (memory 1)) :=
    Machine.reachableVia_after (.init (init_memory (by decide))) (Machine.stepsSatisfy_true _ _)
  have hcalled : calledStatement ((aboutToSelect (memory 1)).phaseOf 0) =
      some (.select "t" .all none none none) := by decide +kernel
  have hopen : ((aboutToSelect (memory 1)).transactionOf 0).isNone = true := by decide +kernel
  exact ((@readOnly_iff Platform.ascii).2 _ hreachable 0 _ (eq_called_of_calledStatement hcalled)
    (Option.isNone_iff_eq_none.mp hopen) rfl).mpr (.inl (by decide +kernel))

/-- The statement the connection is called with is executed and succeeds. -/
def succeeds (pool : ConnectionPool) (c : Nat) (persist : Option Error) : Bool :=
  (@enter Platform.ascii pool c persist).any fun pool ↦
    match pool.phaseOf c with
    | some (.returned _ (.ok _)) => true
    | _ => false

/-- **A query of a table on a file fails when the file cannot be written.** -/
theorem not_readsOnly : ¬∀ [Platform] (pool : ConnectionPool), machine.Reachable pool →
    ∀ (c : Nat) (statement : Statement), pool.phaseOf c = some (.called statement) →
      pool.transactionOf c = none → statement.mutatesCatalog = false → pool.ReadsOnly c := by
  intro h
  have hinit : (@machine Platform.ascii).init (onFile "db" 1) :=
    ⟨_, _, Catalog.all_empty _, rfl, by rw [fromDatabase, if_neg (Nat.succ_ne_zero 0)]; rfl⟩
  have hreachable : (@machine Platform.ascii).Reachable (aboutToSelect (onFile "db" 1)) :=
    Machine.reachableVia_after (.init hinit) (Machine.stepsSatisfy_true _ _)
  have hcalled : calledStatement ((aboutToSelect (onFile "db" 1)).phaseOf 0) =
      some (.select "t" .all none none none) := by decide +kernel
  have hopen : ((aboutToSelect (onFile "db" 1)).transactionOf 0).isNone = true := by
    decide +kernel
  have hreads := (@h Platform.ascii _ hreachable 0 _ (eq_called_of_calledStatement hcalled)
    (Option.isNone_iff_eq_none.mp hopen) rfl).1
  have hsucceeds : succeeds (aboutToSelect (onFile "db" 1)) 0 none = true := by decide +kernel
  have hfails : succeeds (aboutToSelect (onFile "db" 1)) 0 (some (.io "disk full")) = false := by
    decide +kernel
  rw [succeeds, hreads none (some (.io "disk full")), ← succeeds, hfails] at hsucceeds
  cases hsucceeds

end ConnectionPool

end Fsql
