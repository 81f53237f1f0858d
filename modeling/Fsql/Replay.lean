import Fsql.EngineAtomic
import Fsql.FailedCalls
import Fsql.LogRecords
import Fsql.Recovery
import Fsql.StatementCache

/-!
# Replaying the binlog

The binlog of a `Database` lists the texts of the mutating and of the transaction-control statements
that succeeded.  `Database.binlog_replays` says that executing them on an empty database, in order,
succeeds and leads to the same catalogs: a text that is not listed has changed nothing
(`executeParsed_unchanged`), and a listed one does the same once more (`executeParsed_congr`).

What has to be seen to is the full-text indexes.  A failed statement inside a transaction may
rebuild the derived maps, so nothing changes only where a rebuild changes nothing, and `CREATE
INDEX` rebuilds with the default tokenizer, whatever the options say.
-/

set_option autoImplicit false

namespace Fsql

section Platform

variable [Platform]

/-! ## Nothing is left of a failed statement -/

namespace Table

/-- A rebuild uses the tokenizer and no other option. -/
theorem rebuild_congr {options options' : TableRuntimeOptions}
    (h : options'.fulltextTokenizer = options.fulltextTokenizer) (t : Table) :
    t.rebuildIndexesWithOptions options' = t.rebuildIndexesWithOptions options := by
  rw [rebuildIndexesWithOptions, rebuildIndexesWithOptions, h]

theorem rebuilt_rebuild (t : Table) (options : TableRuntimeOptions) :
    (t.rebuildIndexesWithOptions options).2.Rebuilt options := by
  rw [Rebuilt, (t.rebuild_sameData options).rebuild_eq options]

/-- **Two tables with the same data whose derived maps are built anew are the same.** -/
theorem SameData.eq_of_rebuilt {t t' : Table} {options : TableRuntimeOptions} (h : t.SameData t')
    (ht : t.Rebuilt options) (ht' : t'.Rebuilt options) : t' = t := by
  have heq := congrArg Prod.snd (h.rebuild_eq options)
  rw [Rebuilt] at ht ht'
  rw [ht, ht'] at heq
  exact heq

/-- A statement on a table leaves the derived maps built anew, when every rebuild uses the default
tokenizer. -/
theorem Rebuilt.perform {t : Table} {options : TableRuntimeOptions} (h : t.Rebuilt options)
    (hsimple : options.fulltextTokenizer = .simple) {statement : Statement}
    (htable : statement.tableName.isSome = true) :
    (t.perform options statement).2.Rebuilt options := by
  have hrebuild (changed : Table) :
      changed.rebuildIndexesWithOptions (statement.rebuildOptions options) =
        changed.rebuildIndexesWithOptions options := by
    refine rebuild_congr ?_ changed
    cases statement with
    | createIndex _ _ _ fulltext =>
      cases fulltext
      · exact hsimple.symm
      · rfl
    | _ => rfl
  rcases t.perform_cases options htable with
    ⟨-, error, heq⟩ | ⟨changed, -, ⟨-, heq⟩ | ⟨-, error, heq⟩⟩ <;> rw [heq]
  · exact h
  · rw [hrebuild]
    exact rebuilt_rebuild changed options
  · dsimp only
    split
    · exact rebuilt_rebuild t options
    · rw [hrebuild]
      exact rebuilt_rebuild changed options

theorem rebuilt_new {name : String} {columns : List Column} {t : Table}
    (h : Table.new name columns = .ok t) (options : TableRuntimeOptions) : t.Rebuilt options := by
  rcases hcheck : checkColumns columns ∅ none with error | primaryKey
  · rw [Table.new, hcheck] at h
    cases h
  · rw [Table.new, hcheck] at h
    obtain rfl := Except.ok.inj h
    rfl

/-- What every statement preserves: coherence, and derived maps that are built anew. -/
def Fresh (options : TableRuntimeOptions) (t : Table) : Prop := t.Coherent ∧ t.Rebuilt options

theorem preserved_fresh {options : TableRuntimeOptions}
    (hsimple : options.fulltextTokenizer = .simple) :
    Table.Preserved options (Table.Fresh options) where
  new h := ⟨(preserved_coherent options).new h, rebuilt_new h options⟩
  insert columns values h := ⟨(preserved_coherent options).insert columns values h.1,
    @Rebuilt.perform _ _ _ h.2 hsimple (.insert "" columns values) rfl⟩
  update assignments filter h := ⟨(preserved_coherent options).update assignments filter h.1,
    @Rebuilt.perform _ _ _ h.2 hsimple (.update "" assignments filter) rfl⟩
  delete filter h := ⟨(preserved_coherent options).delete filter h.1,
    @Rebuilt.perform _ _ _ h.2 hsimple (.delete "" filter) rfl⟩

end Table

theorem executeStatement_fresh {options : TableRuntimeOptions}
    (hsimple : options.fulltextTokenizer = .simple) {catalog : Catalog}
    (h : catalog.All (Table.Fresh options)) (statement : Statement) :
    (executeStatementWithOptions catalog statement options).2.All (Table.Fresh options) := by
  refine executeStatement_all (Table.preserved_fresh hsimple) ?_ h
  cases statement with
  | createIndex name table column fulltext =>
    intro t _ ht
    exact ⟨ht.1.createAnyIndex name column fulltext options,
      @Table.Rebuilt.perform _ _ _ ht.2 hsimple (.createIndex name table column fulltext) rfl⟩
  | _ => trivial

/-- **A statement that fails changes nothing.** -/
theorem executeStatement_failed_eq {options : TableRuntimeOptions}
    (hsimple : options.fulltextTokenizer = .simple) {catalog : Catalog}
    (h : catalog.All (Table.Fresh options)) {statement : Statement} {error : Error}
    (herror : (executeStatementWithOptions catalog statement options).1 = .error error) :
    (executeStatementWithOptions catalog statement options).2 = catalog := by
  have hafter := executeStatement_fresh hsimple h statement
  have hsame := executeStatement_failed (fun name t ht ↦ (h name t ht).1) herror
  refine congrArg Catalog.mk (Std.ExtTreeMap.ext_getElem? fun name ↦ ?_)
  have hname := hsame name
  rcases ht : catalog.tables[name]? with _ | t <;>
    rcases ht' : (executeStatementWithOptions catalog statement options).2.tables[name]? with _ | t'
      <;> rw [ht, ht'] at hname
  · cases hname
  · cases hname
  · rcases hname with ⟨hbut⟩
    rw [hbut.data.eq_of_rebuilt (h name t ht).2 (hafter name t' ht').2]

namespace Database

/-! ## One call -/

/-- What a statement does depends on the catalogs and the options, when no write fails. -/
theorem executeParsed_congr {db db' : Database} (hcatalog : db'.catalog = db.catalog)
    (htransaction : db'.transaction = db.transaction) (hoptions : db'.options = db.options)
    (statement : Statement) :
    (db'.executeParsed statement none).1 = (db.executeParsed statement none).1 ∧
      (db'.executeParsed statement none).2.catalog = (db.executeParsed statement none).2.catalog ∧
      (db'.executeParsed statement none).2.transaction =
        (db.executeParsed statement none).2.transaction := by
  rcases db with ⟨path, catalog, transaction, options, cache⟩
  rcases db' with ⟨path', catalog', transaction', options', cache'⟩
  dsimp only at hcatalog htransaction hoptions
  subst hcatalog htransaction hoptions
  have hstatement (db db' : Database)
      (hdb : db = ⟨path, catalog', transaction', options', cache⟩)
      (hdb' : db' = ⟨path', catalog', transaction', options', cache'⟩) :
      (db'.executeCatalogStatement statement none).1 =
          (db.executeCatalogStatement statement none).1 ∧
        (db'.executeCatalogStatement statement none).2.catalog =
          (db.executeCatalogStatement statement none).2.catalog ∧
        (db'.executeCatalogStatement statement none).2.transaction =
          (db.executeCatalogStatement statement none).2.transaction := by
    subst hdb hdb'
    simp only [executeCatalogStatement, persist, appendOptionalLine_none]
    rcases transaction' with _ | transaction
    · dsimp only
      split
      · split <;> exact ⟨rfl, rfl, rfl⟩
      · exact ⟨rfl, rfl, rfl⟩
    · exact ⟨rfl, rfl, rfl⟩
  cases statement with
  | begin =>
    rw [executeParsed, executeParsed, begin, begin]
    split <;> exact ⟨rfl, rfl, rfl⟩
  | commit =>
    simp only [executeParsed, commit, persist, appendOptionalLine_none]
    rcases transaction' with _ | transaction <;> exact ⟨rfl, rfl, rfl⟩
  | rollback =>
    rw [executeParsed, executeParsed, rollback, rollback]
    split <;> exact ⟨rfl, rfl, rfl⟩
  | explain statement => exact ⟨rfl, rfl, rfl⟩
  | _ => exact hstatement _ _ rfl rfl

/-- **A statement that fails, or that neither mutates nor controls a transaction, changes
nothing.** -/
theorem executeParsed_unchanged {db : Database}
    (hsimple : db.options.fulltextTokenizer = .simple)
    (h : db.Holds (Catalog.All (Table.Fresh (tableRuntimeOptions db.options))))
    {statement : Statement} {outcome : Option Error}
    (hstatement : (statement.mutatesCatalog || statement.isTransactionControl) = true →
      (db.executeParsed statement outcome).1.isOk = false) :
    (db.executeParsed statement outcome).2.catalog = db.catalog ∧
      (db.executeParsed statement outcome).2.transaction = db.transaction := by
  have hcatalog (hfailed : statement.mutatesCatalog = true →
      (db.executeCatalogStatement statement outcome).1.isOk = false) :
      (db.executeCatalogStatement statement outcome).2.catalog = db.catalog ∧
        (db.executeCatalogStatement statement outcome).2.transaction = db.transaction := by
    rcases hmutates : statement.mutatesCatalog
    · rw [executeCatalogStatement]
      rcases htx : db.transaction with _ | transaction
      · simp only [hmutates, executeStatement_of_not_mutates hmutates]
        exact ⟨rfl, rfl⟩
      · simp only [executeStatement_of_not_mutates hmutates]
        exact ⟨trivial, trivial⟩
    · have herror := hfailed hmutates
      rw [executeCatalogStatement] at herror ⊢
      rcases htx : db.transaction with _ | transaction
      · rw [htx] at herror
        dsimp only at herror ⊢
        rw [if_pos hmutates] at herror ⊢
        split at herror
        · exact ⟨rfl, htx⟩
        · split at herror
          · exact ⟨rfl, htx⟩
          · cases herror
      · rw [htx] at herror
        dsimp only at herror ⊢
        rcases hresult : (executeStatementWithOptions transaction statement
          (tableRuntimeOptions db.options)).1 with error | result
        · exact
            ⟨rfl, congrArg some (executeStatement_failed_eq hsimple (h.2 transaction htx) hresult)⟩
        · rw [hresult] at herror
          cases herror
  cases statement with
  | begin =>
    have hfailed := hstatement rfl
    rw [executeParsed, begin] at hfailed ⊢
    split
    · exact ⟨rfl, rfl⟩
    · rename_i hnone
      rw [if_neg hnone] at hfailed
      cases hfailed
  | commit =>
    have hfailed := hstatement rfl
    rw [executeParsed, commit] at hfailed ⊢
    split at hfailed
    · exact ⟨rfl, rfl⟩
    · split at hfailed
      · exact ⟨rfl, rfl⟩
      · cases hfailed
  | rollback =>
    have hfailed := hstatement rfl
    rw [executeParsed, rollback] at hfailed ⊢
    split
    · exact ⟨rfl, rfl⟩
    · rename_i hsome
      rw [if_neg hsome] at hfailed
      cases hfailed
  | explain statement => exact ⟨rfl, rfl⟩
  | parsedOnly | select =>
    refine hcatalog fun hmutates ↦ ?_
    cases hmutates
  | _ => exact hcatalog fun _ ↦ hstatement rfl

/-! ## The log and its replay -/

/-- Whether a call appends a record to the binlog. -/
def binlogs (db : Database) (action : String × Outcome) : Bool :=
  match db.parseStatement action.1 with
  | (.error _, _) => false
  | (.ok statement, db) =>
    (statement.mutatesCatalog || statement.isTransactionControl) &&
      (db.logBefore statement action.2.log).isOk &&
      (db.executeParsed statement action.2.persist).1.isOk &&
      db.options.binlogPath.isSome && action.2.log.binlog.isNone

/-- **The runs of a database with its binlog**, a list of the texts in its records. -/
def logging (options : DatabaseOptions) : Machine (Database × List String) (String × Outcome) :=
  (fresh options).withHistory (fun _ ↦ []) fun db log action _ ↦
    if db.binlogs action then log ++ [escape action.1] else log

/-- Executing texts in order, none when one of them fails. -/
def replay (db : Database) : List String → Option Database
  | [] => some db
  | sql :: texts =>
    match db.execute sql {} with
    | (.ok _, db) => db.replay texts
    | (.error _, _) => none

theorem replay_concat {db db' db'' : Database} {texts : List String} {sql : String}
    {result : QueryResult} (h : db.replay texts = some db')
    (hexecute : db'.execute sql {} = (.ok result, db'')) :
    db.replay (texts ++ [sql]) = some db'' := by
  induction texts generalizing db with
  | nil =>
    obtain rfl := Option.some.inj h
    rw [List.nil_append, replay, hexecute]
    rfl
  | cons text texts ih =>
    rw [replay] at h
    rw [List.cons_append, replay]
    split at h
    · exact ih h
    · cases h

/-- What a call is when no write fails. -/
theorem execute_ok {db : Database} {sql : String} {statement : Statement}
    (h : (db.parseStatement sql).1 = .ok statement) :
    db.execute sql {} =
        (((db.parseStatement sql).2.executeParsed statement none).1.mapError .error,
          ((db.parseStatement sql).2.executeParsed statement none).2) ∧
      db.binlogs (sql, {}) = ((statement.mutatesCatalog || statement.isTransactionControl) &&
        ((db.parseStatement sql).2.executeParsed statement none).1.isOk &&
          db.options.binlogPath.isSome) := by
  rcases hparse : db.parseStatement sql with ⟨result, db'⟩
  rw [hparse] at h
  obtain rfl : result = .ok statement := h
  have hoptions : db'.options = db.options := by
    have : (db.parseStatement sql).2.options = db.options := rfl
    rwa [hparse] at this
  constructor
  · rw [execute, hparse]
    simp only [logBefore_default, logAfter_default]
    rcases db'.executeParsed statement none with ⟨error | result, db''⟩ <;> rfl
  · rw [binlogs, hparse]
    simp only [logBefore_default, hoptions]
    simp [Except.isOk, Except.toBool]

theorem execute_error {db : Database} {sql : String} {fault : Fault}
    (h : (db.parseStatement sql).1 = .error fault) :
    db.execute sql {} = (.error fault, (db.parseStatement sql).2) ∧
      db.binlogs (sql, {}) = false := by
  rcases hparse : db.parseStatement sql with ⟨result, db'⟩
  rw [hparse] at h
  obtain rfl : result = .error fault := h
  exact ⟨by rw [execute, hparse], by rw [binlogs, hparse]⟩

/-- A database parses a text as if it had no statement cache. -/
structure Parses (options : DatabaseOptions) (db : Database) : Prop where
  /-- The options are the ones it was opened with. -/
  options_eq : db.options = options
  /-- A cached statement is the one its text parses to. -/
  cacheOk : CacheOk options.sqlDialect db.statementCache

/-- What holds of a database whose log is replayed, and of the one that replays it. -/
structure Replayable (options : DatabaseOptions) (db : Database) : Prop extends
    Parses options db where
  /-- Tables are coherent, and a rebuild changes nothing. -/
  fresh : db.Holds (Catalog.All (Table.Fresh (tableRuntimeOptions options)))

variable {options : DatabaseOptions} {db db' : Database}

theorem parses_init (h : (Database.fresh options).init db) : db.Parses options := by
  obtain ⟨-, path, rfl⟩ := h
  exact ⟨rfl, cacheOk_empty _⟩

theorem replayable_init (h : (Database.fresh options).init db) : db.Replayable options := by
  refine ⟨parses_init h, ?_⟩
  obtain ⟨-, path, rfl⟩ := h
  exact ⟨Catalog.all_empty _, by simp⟩

omit [Platform] in
/-- Parsing gives what the text parses to. -/
theorem Parses.parseStatement (h : db.Parses options) (sql : String) :
    (db.parseStatement sql).1 = parseSqlWithDialect sql options.sqlDialect ∧
      (db.parseStatement sql).2.Parses options := by
  obtain ⟨hoptions, hcache⟩ := h
  obtain ⟨hparse, hcache'⟩ := parseWithCache_eq hcache db.options.cacheCapacity sql
  rw [← hoptions] at hparse hcache'
  rw [← hoptions]
  exact ⟨hparse, rfl, hcache'⟩

theorem statementCache_executeParsed (db : Database) (statement : Statement)
    (outcome : Option Error) :
    (db.executeParsed statement outcome).2.statementCache = db.statementCache := by
  have hcatalog : (db.executeCatalogStatement statement outcome).2.statementCache =
      db.statementCache := by
    rw [executeCatalogStatement]
    split
    · rfl
    · dsimp only
      split
      · split
        · rfl
        · split <;> rfl
      · rfl
  cases statement with
  | begin =>
    rw [executeParsed, begin]
    split <;> rfl
  | commit =>
    rw [executeParsed, commit]
    split
    · rfl
    · split <;> rfl
  | rollback =>
    rw [executeParsed, rollback]
    split <;> rfl
  | explain statement => rfl
  | _ => exact hcatalog

theorem Parses.executeParsed (h : db.Parses options) (statement : Statement)
    (outcome : Option Error) : (db.executeParsed statement outcome).2.Parses options := by
  refine ⟨(options_executeParsed db statement outcome).trans h.options_eq, ?_⟩
  rw [statementCache_executeParsed]
  exact h.cacheOk

theorem Replayable.parseStatement (h : db.Replayable options) (sql : String) :
    (db.parseStatement sql).2.Replayable options :=
  ⟨(h.toParses.parseStatement sql).2, h.fresh⟩

theorem Replayable.executeParsed (h : db.Replayable options)
    (hsimple : options.fulltextTokenizer = .simple) (statement : Statement)
    (outcome : Option Error) : (db.executeParsed statement outcome).2.Replayable options := by
  refine ⟨h.toParses.executeParsed statement outcome, ?_⟩
  refine executeParsed_holds (fun hactive ↦ ?_) outcome h.fresh
  rw [h.options_eq]
  exact executeStatement_fresh hsimple hactive statement

/-- **The database and the replay of its log** have the same catalogs. -/
structure Replays (options : DatabaseOptions) (db₀ db : Database) (log : List String) : Prop where
  /-- The database. -/
  replayable : db.Replayable options
  /-- The replay succeeds. -/
  replay : ∃ texts replica, log = texts.map escape ∧ db₀.replay texts = some replica ∧
    replica.Replayable options ∧ replica.catalog = db.catalog ∧
      replica.transaction = db.transaction

/-- **One more call.** -/
theorem Replays.step {db₀ : Database} {log : List String} (h : Replays options db₀ db log)
    (hsimple : options.fulltextTokenizer = .simple) (hbinlog : options.binlogPath.isSome = true)
    (sql : String) :
    Replays options db₀ (db.execute sql {}).2
      (if db.binlogs (sql, {}) then log ++ [escape sql] else log) := by
  obtain ⟨hreplayable, texts, replica, hlog, hreplay, hreplica, hcatalog, htransaction⟩ := h
  have hparse := (hreplayable.toParses.parseStatement sql).1
  have hparse' := (hreplica.toParses.parseStatement sql).1
  have hparsed := hreplayable.parseStatement sql
  have hparsed' := hreplica.parseStatement sql
  rcases hresult : parseSqlWithDialect sql options.sqlDialect with fault | statement
  · rw [hresult] at hparse
    obtain ⟨hexecute, hbinlogs⟩ := execute_error hparse
    rw [hexecute, if_neg (by rw [hbinlogs]; exact Bool.false_ne_true)]
    exact ⟨hparsed, texts, replica, hlog, hreplay, hreplica, hcatalog, htransaction⟩
  · rw [hresult] at hparse hparse'
    obtain ⟨hexecute, hbinlogs⟩ := execute_ok hparse
    obtain ⟨hexecute', -⟩ := execute_ok hparse'
    obtain ⟨hsame, hsameCatalog, hsameTransaction⟩ :=
      @executeParsed_congr _ (db.parseStatement sql).2 (replica.parseStatement sql).2 hcatalog
        htransaction (hparsed'.options_eq.trans hparsed.options_eq.symm) statement
    have hafter := hparsed.executeParsed hsimple statement none
    rw [hexecute, hbinlogs]
    rcases hexecuted : ((db.parseStatement sql).2.executeParsed statement none).1 with
      error | result
    · -- a failed statement is not listed
      obtain ⟨hunchanged, hunchanged'⟩ := @executeParsed_unchanged _ (db.parseStatement sql).2
        (hparsed.options_eq ▸ hsimple) (hparsed.options_eq ▸ hparsed.fresh) statement none
        fun _ ↦ by rw [hexecuted]; rfl
      rw [if_neg (by simp [Except.isOk, Except.toBool])]
      exact ⟨hafter, texts, replica, hlog, hreplay, hreplica, hcatalog.trans hunchanged.symm,
        htransaction.trans hunchanged'.symm⟩
    · by_cases hlisted : (statement.mutatesCatalog || statement.isTransactionControl) = true
      · -- a listed statement is executed once more
        rw [hsame, hexecuted] at hexecute'
        rw [hlisted, hreplayable.options_eq, hbinlog]
        refine ⟨hafter, texts ++ [sql], _, ?_, replay_concat hreplay hexecute',
          hparsed'.executeParsed hsimple statement none, hsameCatalog, hsameTransaction⟩
        rw [hlog, List.map_append]
        rfl
      · obtain ⟨hunchanged, hunchanged'⟩ := @executeParsed_unchanged _ (db.parseStatement sql).2
          (hparsed.options_eq ▸ hsimple) (hparsed.options_eq ▸ hparsed.fresh) statement none
          fun hlisted' ↦ absurd hlisted' hlisted
        rw [Bool.not_eq_true] at hlisted
        rw [hlisted]
        exact ⟨hafter, texts, replica, hlog, hreplay, hreplica, hcatalog.trans hunchanged.symm,
          htransaction.trans hunchanged'.symm⟩

/-- **The binlog is a faithful logical log.**  Whatever texts are executed, the log determines the
texts it lists, and executing them on an empty database with the same options succeeds and leads to
the same committed catalog and to the same working catalog. -/
theorem binlog_replays {log : List String} {db₀ : Database}
    (h : (logging options).ReachableVia (fun _ action ↦ action.2 = {}) (db, log))
    (hsimple : options.fulltextTokenizer = .simple) (hbinlog : options.binlogPath.isSome = true)
    (h₀ : (Database.fresh options).init db₀) :
    ∃ texts replica, (∀ texts' : List String, log = texts'.map escape ↔ texts' = texts) ∧
      db₀.replay texts = some replica ∧ replica.catalog = db.catalog ∧
        replica.transaction = db.transaction := by
  have hreplays : Replays options db₀ db log := by
    refine h.invariant (I := fun state ↦ Replays options db₀ state.1 state.2) ?_ ?_
    · rintro ⟨db, log⟩ ⟨hinit, hlog⟩
      refine ⟨replayable_init hinit, [], db₀, hlog, rfl, replayable_init h₀, ?_, ?_⟩
      · obtain ⟨-, path, rfl⟩ := hinit
        obtain ⟨-, path₀, rfl⟩ := h₀
        rfl
      · obtain ⟨-, path, rfl⟩ := hinit
        obtain ⟨-, path₀, rfl⟩ := h₀
        rfl
    · rintro ⟨db, log⟩ ⟨sql, outcome⟩ ⟨db', log'⟩ - hreplays rfl hstep
      obtain ⟨hstep, hlog⟩ := Machine.withHistory_step_eq_some.mp hstep
      obtain rfl := Option.some.inj hstep
      obtain rfl := hlog
      exact hreplays.step hsimple hbinlog sql
  obtain ⟨-, texts, replica, hlog, hreplay, -, hcatalog, htransaction⟩ := hreplays
  refine ⟨texts, replica, fun texts' ↦ ?_, hreplay, hcatalog, htransaction⟩
  rw [hlog, List.map_inj_right fun _ _ h ↦ escape_injective h]
  exact eq_comm

end Database

end Platform

namespace Database

/-- The options of a database with a binlog. -/
abbrev binlogOptions : DatabaseOptions := { binlogPath := some "binlog" }

/-- The database that has executed some texts, with its binlog. -/
def loggedTexts (texts : List String) : Database × List String :=
  ((@logging Platform.ascii binlogOptions).runFrom (⟨none, .empty, none, binlogOptions, ∅⟩, [])
    (texts.map (·, {}))).getD (⟨none, .empty, none, binlogOptions, ∅⟩, [])

theorem reachable_loggedTexts (texts : List String) :
    (@logging Platform.ascii binlogOptions).ReachableVia (fun _ action ↦ action.2 = {})
      (loggedTexts texts) := by
  have hinit : (@logging Platform.ascii binlogOptions).ReachableVia (fun _ action ↦ action.2 = {})
      (⟨none, .empty, none, binlogOptions, ∅⟩, []) := .init ⟨⟨by decide, none, rfl⟩, rfl⟩
  have hwrites (texts : List String) (state : Database × List String) :
      (@logging Platform.ascii binlogOptions).StepsSatisfy (fun _ action ↦ action.2 = {}) state
        (texts.map (·, {})) := by
    induction texts generalizing state with
    | nil => trivial
    | cons text texts ih => exact ⟨rfl, fun state' _ ↦ ih state'⟩
  rw [loggedTexts]
  rcases hrun : (@logging Platform.ascii binlogOptions).runFrom
    (⟨none, .empty, none, binlogOptions, ∅⟩, []) (texts.map (·, {})) with _ | state
  · exact hinit
  · exact Machine.reachableVia_of_runFrom hinit (hwrites texts _) hrun

/-- Two rows, one of them in an open transaction, and statements that fail or only read. -/
def someTexts : List String :=
  ["CREATE TABLE t (a INT PRIMARY KEY)", "INSERT INTO t VALUES\t(1)", "COMMIT", "SELECT * FROM t",
    "BEGIN", "INSERT INTO t VALUES (1)", "INSERT INTO t VALUES (2)"]

theorem binlog_replays_someTexts :
    (loggedTexts someTexts).2 = ["CREATE TABLE t (a INT PRIMARY KEY)",
      "INSERT INTO t VALUES\\t(1)", "BEGIN", "INSERT INTO t VALUES (2)"] ∧
    ∃ texts replica,
      (∀ texts' : List String, (loggedTexts someTexts).2 = texts'.map escape ↔ texts' = texts) ∧
      @replay Platform.ascii ⟨none, .empty, none, binlogOptions, ∅⟩ texts = some replica ∧
        replica.catalog = (loggedTexts someTexts).1.catalog ∧
          replica.transaction = (loggedTexts someTexts).1.transaction := by
  refine ⟨by decide +kernel, ?_⟩
  have hreachable := reachable_loggedTexts someTexts
  have hinit : (@Database.fresh Platform.ascii binlogOptions).init
      ⟨none, .empty, none, binlogOptions, ∅⟩ := ⟨by decide, none, rfl⟩
  generalize loggedTexts someTexts = state at hreachable ⊢
  exact @binlog_replays Platform.ascii binlogOptions state.1 state.2 _ hreachable rfl rfl hinit

end Database

end Fsql
