import Fsql.FulltextLookup
import Fsql.Library.Simulation
import Fsql.Replay
import Fsql.Storage.Refinement

/-!
# The relational database

What the clients of a database can see of it: relations by name (`Relations`), a committed state and
the working state of an open transaction (`RelationalDatabase`).  There are no row ids, no derived
maps and no statement cache here, a statement that fails does nothing, and `EXPLAIN` answers what it
answers on a table without rows.

`Database.simulates_relational` is the step: a database on a file or in memory answers a call as the
relational database does.  `Database.answers_relational` is the run, from an empty database.  The
one condition is that a `CREATE INDEX` comes where the simple tokenizer finds the tokens of the
configured one (`RelationalDatabase.KeepsTokens`); it holds of every call when the simple tokenizer
is the configured one.
-/

set_option autoImplicit false

namespace Fsql

open DerivedIndex Std

/-! ## Relations by name -/

/-- Two tokenizers find the same tokens in the texts of a column. -/
def Relation.TokensAgree [Platform] (r : Relation) (left right : FullTextTokenizer)
    (column : String) : Prop :=
  ∀ row ∈ r.rows, columnTokens left column row ⊆ columnTokens right column row ∧
    columnTokens right column row ⊆ columnTokens left column row

instance Relation.decidableTokensAgree [Platform] (r : Relation) (left right : FullTextTokenizer)
    (column : String) : Decidable (r.TokensAgree left right column) :=
  inferInstanceAs (Decidable (∀ row ∈ r.rows, _ ∧ _))

/-- The relations of a database. -/
abbrev Relations := BTreeMap String Relation

namespace Relations

/-- A statement on one relation. -/
def modify {α : Type} (relations : Relations) (name : String)
    (f : Relation → Result α × Relation) : Result α × Relations :=
  match relations[name]? with
  | none => (.error (execution "unknown table"), relations)
  | some relation => ((f relation).1, relations.insert name (f relation).2)

section Platform

variable [Platform]

/-- **What a statement is for.** -/
def execute (relations : Relations) (statement : Statement) (options : TableRuntimeOptions) :
    Result QueryResult × Relations :=
  match statement with
  | .createTable name columns =>
    if name ∈ relations then
      (.error (execution s!"table {name} already exists"), relations)
    else
      match Table.new name columns with
      | .error error => (.error error, relations)
      | .ok table => (.ok (.ofMessage "table created"), relations.insert name table.relation)
  | .createIndex name table column fulltext =>
    let (result, relations) := relations.modify table (·.createIndex name column fulltext options)
    (result.map fun _ ↦ .ofMessage "index created", relations)
  | .insert table columns values =>
    let (result, relations) := relations.modify table (·.insert columns values options)
    (result.map fun _ ↦ .affected 1 "row inserted", relations)
  | .select table projection filter order limit =>
    match relations[table]? with
    | none => (.error (execution "unknown table"), relations)
    | some relation =>
      ((relation.select projection filter order limit options).map QueryResult.ofRows, relations)
  | .update table assignments filter =>
    let (result, relations) := relations.modify table (·.update assignments filter options)
    (result.map fun affected ↦ .affected affected "row(s) updated", relations)
  | .delete table filter =>
    let (result, relations) := relations.modify table (·.delete filter options)
    (result.map fun affected ↦ .affected affected "row(s) deleted", relations)
  | .parsedOnly kind sql =>
    (.error (execution
      s!"{kind.asStr} parsed successfully but execution is not implemented yet: {sql}"), relations)
  | .begin | .commit | .rollback | .explain _ =>
    (.error (execution
      "transaction statements must be executed by the transaction manager"), relations)

/-- `EXPLAIN` of a statement: the access path is that of a table without rows. -/
def explain (relations : Relations) (statement : Statement) (options : TableRuntimeOptions) :
    Result QueryResult :=
  match statement with
  | .select table _ filter _ _ =>
    match relations[table]? with
    | none => .error (execution "unknown table")
    | some relation => do
      let accessPath ← relation.schema.explainFilter filter options
      return .ofRows [explainRow table filter accessPath]
  | _ => .error (execution "EXPLAIN only supports SELECT")

/-! ### What a statement does to the relations -/

variable {options : TableRuntimeOptions}

omit [Platform] in
theorem mem_modify {α : Type} (relations : Relations) (name : String)
    (f : Relation → Result α × Relation) (n : String) :
    n ∈ (relations.modify name f).2 ↔ n ∈ relations := by
  rw [modify]
  rcases hname : relations[name]? with _ | r
  · rfl
  · rw [ExtTreeMap.mem_iff_isSome_getElem?, BTree.getElem?_insert,
      ExtTreeMap.mem_iff_isSome_getElem?]
    split
    · rename_i heq
      rw [← heq, hname]
      rfl
    · rfl

omit [Platform] in
theorem modify_error {α : Type} {relations : Relations} {name : String}
    {f : Relation → Result α × Relation} {error : Error}
    (hf : ∀ r, (f r).1 = .error error → (f r).2 = r)
    (h : (relations.modify name f).1 = .error error) : (relations.modify name f).2 = relations := by
  rw [modify] at h ⊢
  rcases hname : relations[name]? with _ | r
  · rfl
  · rw [hname] at h
    dsimp only at h ⊢
    rw [hf r h]
    refine ExtTreeMap.ext_getElem? fun n ↦ ?_
    rw [BTree.getElem?_insert]
    split
    · rename_i heq
      rw [← heq, hname]
    · rfl

/-- **Only `CREATE TABLE` makes a relation.** -/
theorem mem_execute {relations : Relations} {statement : Statement} {n : String}
    (h : n ∈ (relations.execute statement options).2) :
    n ∈ relations ∨ ∃ columns, statement = .createTable n columns := by
  cases statement with
  | createTable name columns =>
    rw [execute] at h
    split at h
    · exact .inl h
    · split at h
      · exact .inl h
      · rw [ExtTreeMap.mem_iff_isSome_getElem?, BTree.getElem?_insert] at h
        split at h
        · rename_i heq
          exact .inr ⟨columns, heq ▸ rfl⟩
        · exact .inl (ExtTreeMap.mem_iff_isSome_getElem?.mpr h)
  | createIndex | insert | update | delete => exact .inl ((mem_modify _ _ _ _).mp h)
  | select table projection filter order limit =>
    rw [execute] at h
    split at h <;> exact .inl h
  | _ => exact .inl h

/-- **A statement that fails does nothing.** -/
theorem execute_error {relations : Relations} {statement : Statement} {error : Error}
    (hddl : statement.isDdl = false)
    (h : (relations.execute statement options).1 = .error error) :
    (relations.execute statement options).2 = relations := by
  have hmodify {α : Type} {name : String} {f : Relation → Result α × Relation} {g : α → QueryResult}
      (hf : ∀ r error, (f r).1 = .error error → (f r).2 = r)
      (h : ((relations.modify name f).1.map g) = .error error) :
      (relations.modify name f).2 = relations := by
    rcases hresult : (relations.modify name f).1 with error' | a
    · exact modify_error (fun r ↦ hf r error') hresult
    · rw [hresult] at h
      cases h
  cases statement with
  | createTable | createIndex => cases hddl
  | insert table columns values =>
    refine hmodify (fun r error ↦ ?_) h
    rw [Relation.insert]
    split
    · exact fun _ ↦ rfl
    · dsimp only
      split
      · exact fun _ ↦ rfl
      · exact fun h ↦ (by cases h)
  | update table assignments filter =>
    refine hmodify (fun r error ↦ ?_) h
    rw [Relation.update]
    split
    · exact fun _ ↦ rfl
    · split
      · exact fun _ ↦ rfl
      · dsimp only
        split
        · exact fun _ ↦ rfl
        · exact fun h ↦ (by cases h)
  | delete table filter =>
    refine hmodify (fun r error ↦ ?_) h
    rw [Relation.delete]
    split
    · exact fun _ ↦ rfl
    · exact fun h ↦ (by cases h)
  | select table projection filter order limit =>
    rw [execute]
    split <;> rfl
  | _ => rfl

/-- A statement that changes nothing does nothing. -/
theorem execute_of_not_mutates {relations : Relations} {statement : Statement}
    (h : statement.mutatesCatalog = false) :
    (relations.execute statement options).2 = relations := by
  cases statement with
  | createTable | createIndex | insert | update | delete => cases h
  | select table projection filter order limit =>
    rw [execute]
    split <;> rfl
  | _ => rfl

end Platform

end Relations

/-! ## The relational database -/

/-- **A database as its clients see it.** -/
structure RelationalDatabase where
  /-- The database file. -/
  path : Option String
  /-- The committed relations. -/
  committed : Relations
  /-- The relations an open transaction works on. -/
  working : Option Relations
  /-- The options it was opened with. -/
  options : DatabaseOptions

namespace RelationalDatabase

/-- A database without relations. -/
def empty (path : Option String) (options : DatabaseOptions) : RelationalDatabase :=
  ⟨path, ∅, none, options⟩

/-- The relations a statement is executed on. -/
def current (db : RelationalDatabase) : Relations := db.working.getD db.committed

/-- The log records written before a statement is executed. -/
def logBefore (db : RelationalDatabase) (statement : Statement) (log : LogOutcome) : Result Unit :=
  if statement.mutatesCatalog then do
    appendUndolog db.options log.undo
    appendRedolog db.options log.redoBegin
  else if statement = .commit then appendRedolog db.options log.redoBegin
  else .ok ()

/-- The log records written after a statement has succeeded. -/
def logAfter (db : RelationalDatabase) (statement : Statement) (log : LogOutcome) :
    Result Unit := do
  if statement.mutatesCatalog || statement.isTransactionControl then
    appendBinlog db.options log.binlog
  if statement.mutatesCatalog || statement = .commit then
    appendRedolog db.options log.redoCommit

section Platform

variable [Platform]

/-- A statement on the current relations: one that fails does nothing, and one that succeeds outside
a transaction is made durable before it is visible. -/
def executeStatement (db : RelationalDatabase) (statement : Statement) (outcome : Option Error) :
    Result QueryResult × RelationalDatabase :=
  match db.current.execute statement (tableRuntimeOptions db.options) with
  | (.error error, _) => (.error error, db)
  | (.ok result, relations) =>
    if db.working.isSome then (.ok result, { db with working := some relations })
    else if statement.mutatesCatalog then
      match appendOptionalLine db.path outcome with
      | .error error => (.error error, db)
      | .ok () => (.ok result, { db with committed := relations })
    else (.ok result, db)

/-- **What a call is for**: `BEGIN` sets the committed relations apart, `ROLLBACK` gives up what has
been done since, and `COMMIT` makes it durable and then visible. -/
def executeParsed (db : RelationalDatabase) (statement : Statement) (outcome : Option Error) :
    Result QueryResult × RelationalDatabase :=
  match statement with
  | .begin =>
    if db.working.isSome then (.error (execution "transaction already active"), db)
    else (.ok (.ofMessage "transaction started"), { db with working := some db.committed })
  | .commit =>
    match db.working with
    | none => (.error (execution "no active transaction"), db)
    | some relations =>
      match appendOptionalLine db.path outcome with
      | .error error => (.error error, db)
      | .ok () =>
        (.ok (.ofMessage "transaction committed"),
          { db with committed := relations, working := none })
  | .rollback =>
    if db.working.isNone then (.error (execution "no active transaction"), db)
    else (.ok (.ofMessage "transaction rolled back"), { db with working := none })
  | .explain statement =>
    (db.current.explain statement (tableRuntimeOptions db.options), db)
  | statement => db.executeStatement statement outcome

/-- A call: the text is parsed, the statement executed, and both are logged. -/
def execute (db : RelationalDatabase) (sql : String) (outcome : Outcome) :
    Parse QueryResult × RelationalDatabase :=
  match parseSqlWithDialect sql db.options.sqlDialect with
  | .error fault => (.error fault, db)
  | .ok statement =>
    match db.logBefore statement outcome.log with
    | .error error => (.error (.error error), db)
    | .ok () =>
      match db.executeParsed statement outcome.persist with
      | (.error error, db) => (.error (.error error), db)
      | (.ok result, db) =>
        match db.logAfter statement outcome.log with
        | .error error => (.error (.error error), db)
        | .ok () => (.ok result, db)

/-- The relational database answers calls. -/
def service : Service RelationalDatabase (String × Outcome) (Parse QueryResult) :=
  fun db action ↦ db.execute action.1 action.2

/-- **A secondary index that gets created is created where the simple tokenizer does.** -/
def KeepsTokens (db : RelationalDatabase) : Statement → Prop
  | .createIndex name table column false =>
    ∀ r ∈ db.current[table]?, (r.schema.column column).toOption.isSome →
      name ∉ r.schema.indexes → name ∉ r.schema.fulltextIndexes →
        ∀ entry ∈ r.schema.fulltextIndexes.toList,
          r.TokensAgree .simple db.options.fulltextTokenizer entry.2.column
  | _ => True

/-- The same of the statement a call comes to execute. -/
def CallKeepsTokens (db : RelationalDatabase) (action : String × Outcome) : Prop :=
  ∀ statement ∈ (parseSqlWithDialect action.1 db.options.sqlDialect).toOption,
    db.logBefore statement action.2.log = .ok () → db.KeepsTokens statement

instance decidableKeepsTokens (db : RelationalDatabase) :
    ∀ statement, Decidable (db.KeepsTokens statement)
  | .createIndex name table column false =>
    inferInstanceAs (Decidable (∀ r ∈ db.current[table]?,
      (r.schema.column column).toOption.isSome →
        name ∉ r.schema.indexes → name ∉ r.schema.fulltextIndexes →
          ∀ entry ∈ r.schema.fulltextIndexes.toList,
            r.TokensAgree .simple db.options.fulltextTokenizer entry.2.column))
  | .createIndex _ _ _ true | .createTable .. | .insert .. | .select .. | .update .. | .delete ..
  | .explain _ | .begin | .commit | .rollback | .parsedOnly .. => isTrue trivial

instance decidableCallKeepsTokens (db : RelationalDatabase) (action : String × Outcome) :
    Decidable (db.CallKeepsTokens action) :=
  inferInstanceAs (Decidable (∀ statement ∈
    (parseSqlWithDialect action.1 db.options.sqlDialect).toOption,
      db.logBefore statement action.2.log = .ok () → db.KeepsTokens statement))

/-! ### Without logs -/

variable {db : RelationalDatabase}

theorem options_executeStatement (statement : Statement) (outcome : Option Error) :
    (db.executeStatement statement outcome).2.options = db.options := by
  rw [executeStatement]
  split
  · rfl
  · split
    · rfl
    · split
      · split <;> rfl
      · rfl

theorem options_executeParsed (statement : Statement) (outcome : Option Error) :
    (db.executeParsed statement outcome).2.options = db.options := by
  cases statement with
  | begin | rollback =>
    rw [executeParsed]
    split <;> rfl
  | commit =>
    rw [executeParsed]
    split
    · rfl
    · split <;> rfl
  | explain => rfl
  | _ => exact db.options_executeStatement _ outcome

theorem options_execute (sql : String) (outcome : Outcome) :
    (db.execute sql outcome).2.options = db.options := by
  rw [execute]
  split
  · rfl
  · rename_i statement _
    split
    · rfl
    · have hoptions := db.options_executeParsed statement outcome.persist
      generalize db.executeParsed statement outcome.persist = executed at hoptions ⊢
      obtain ⟨error | result, db'⟩ := executed
      · exact hoptions
      · dsimp only
        split <;> exact hoptions

omit [Platform] in
/-- Nothing is logged by default. -/
theorem log_eq_ok (h : db.options = {}) (statement : Statement) (log : LogOutcome) :
    db.logBefore statement log = .ok () ∧ db.logAfter statement log = .ok () := by
  rw [logBefore, logAfter, h]
  constructor
  · split
    · rfl
    · split <;> rfl
  · rcases statement.mutatesCatalog || statement.isTransactionControl with _ | _ <;>
      rcases statement.mutatesCatalog || decide (statement = .commit) with _ | _ <;> rfl

/-- Without logs, a call is the statement that its text is parsed to. -/
theorem execute_eq (h : db.options = {}) {sql : String} {statement : Statement}
    (hparse : parseSqlWithDialect sql db.options.sqlDialect = .ok statement) (outcome : Outcome) :
    db.execute sql outcome = ((db.executeParsed statement outcome.persist).1.mapError .error,
      (db.executeParsed statement outcome.persist).2) := by
  have hoptions := (db.options_executeParsed statement outcome.persist).trans h
  rw [execute, hparse]
  dsimp only
  rw [(log_eq_ok h statement outcome.log).1]
  generalize db.executeParsed statement outcome.persist = executed at hoptions ⊢
  obtain ⟨error | result, db'⟩ := executed
  · rfl
  · dsimp only at hoptions ⊢
    rw [(log_eq_ok hoptions statement outcome.log).2]
    rfl

end Platform

end RelationalDatabase

/-! ## What a database says -/

namespace Catalog

/-- What the tables of a catalog say. -/
def relations (catalog : Catalog) : Relations := catalog.tables.map fun _ table ↦ table.relation

theorem getElem?_relations (catalog : Catalog) (name : String) :
    catalog.relations[name]? = catalog.tables[name]?.map Table.relation :=
  ExtTreeMap.getElem?_map

theorem mem_relations (catalog : Catalog) (name : String) :
    name ∈ catalog.relations ↔ name ∈ catalog.tables :=
  ExtTreeMap.mem_map

theorem relations_insert (catalog : Catalog) (name : String) (table : Table) :
    (Catalog.mk (catalog.tables.insert name table)).relations =
      catalog.relations.insert name table.relation := by
  refine ExtTreeMap.ext_getElem? fun n ↦ ?_
  rw [getElem?_relations, BTree.getElem?_insert, BTree.getElem?_insert, getElem?_relations]
  split <;> rfl

/-- What is done to one table is done to what it says. -/
theorem relations_modifyTable {α : Type} (catalog : Catalog) (name : String)
    {f : Table → Result α × Table} {g : Relation → Result α × Relation}
    (h : ∀ t, catalog.tables[name]? = some t →
      (f t).1 = (g t.relation).1 ∧ (f t).2.relation = (g t.relation).2) :
    (catalog.modifyTable name f).1 = (catalog.relations.modify name g).1 ∧
      (catalog.modifyTable name f).2.relations = (catalog.relations.modify name g).2 := by
  rw [modifyTable, Relations.modify, getElem?_relations]
  rcases htable : catalog.tables[name]? with _ | t
  · exact ⟨rfl, rfl⟩
  · obtain ⟨hresult, hrelation⟩ := h t htable
    refine ⟨hresult, ?_⟩
    show (Catalog.mk (catalog.tables.insert name (f t).2)).relations = _
    rw [relations_insert, hrelation]
    rfl

/-- What only the full-text indexes differ in says the same. -/
theorem SameButFulltext.relations_eq {c c' : Catalog} (h : c.SameButFulltext c') :
    c'.relations = c.relations := by
  refine ExtTreeMap.ext_getElem? fun name ↦ ?_
  rw [getElem?_relations, getElem?_relations]
  have hname := h name
  rcases ht : c.tables[name]? with _ | t
  · rw [ht] at hname
    rcases ht' : c'.tables[name]? with _ | t'
    · rfl
    · rw [ht'] at hname
      cases hname
  · rw [ht] at hname
    rcases ht' : c'.tables[name]? with _ | t'
    · rw [ht'] at hname
      cases hname
    · rw [ht'] at hname
      rcases hname with ⟨hsame⟩
      exact congrArg some hsame.data.relation_eq

end Catalog

section Platform

variable [Platform] {options : TableRuntimeOptions}

/-- **A statement on tables does what it is for.** -/
theorem executeStatement_relations {catalog : Catalog}
    (h : catalog.All (Table.FulltextCoherent options.fulltextTokenizer)) (statement : Statement) :
    (executeStatementWithOptions catalog statement options).1 =
        (catalog.relations.execute statement options).1 ∧
      (executeStatementWithOptions catalog statement options).2.relations =
        (catalog.relations.execute statement options).2 := by
  cases statement with
  | createTable name columns =>
    rw [executeStatementWithOptions, Relations.execute]
    simp only [catalog.mem_relations]
    by_cases hmem : name ∈ catalog.tables
    · rw [if_pos hmem, if_pos hmem]
      exact ⟨rfl, rfl⟩
    · rw [if_neg hmem, if_neg hmem]
      rcases Table.new name columns with error | t
      · exact ⟨rfl, rfl⟩
      · exact ⟨rfl, catalog.relations_insert name t⟩
  | createIndex name table column fulltext =>
    obtain ⟨hresult, hrelations⟩ := catalog.relations_modifyTable table
      (f := (·.createAnyIndex name column fulltext options))
      (g := (·.createIndex name column fulltext options)) fun t ht ↦
        Table.createIndex_relation (h table t ht).coherent name column fulltext
    exact ⟨congrArg (Except.map fun _ ↦ QueryResult.ofMessage "index created") hresult, hrelations⟩
  | insert table columns values =>
    obtain ⟨hresult, hrelations⟩ := catalog.relations_modifyTable table
      (f := (·.insertWithOptions columns values options))
      (g := (·.insert columns values options)) fun t ht ↦
        Table.insertWithOptions_relation (h table t ht).coherent columns values
    exact ⟨congrArg (Except.map fun _ ↦ QueryResult.affected 1 "row inserted") hresult, hrelations⟩
  | select table projection filter order limit =>
    rw [executeStatementWithOptions, Relations.execute, catalog.getElem?_relations]
    rcases htable : catalog.tables[table]? with _ | t
    · exact ⟨rfl, rfl⟩
    · refine ⟨congrArg (Except.map QueryResult.ofRows) ?_, rfl⟩
      exact Table.selectWithOptions_relation (h table t htable).coherent (h table t htable).exact
        projection filter order limit
  | update table assignments filter =>
    obtain ⟨hresult, hrelations⟩ := catalog.relations_modifyTable table
      (f := (·.updateWithOptions assignments filter options))
      (g := (·.update assignments filter options)) fun t ht ↦
        Table.updateWithOptions_relation (h table t ht).coherent (h table t ht).exact assignments
          filter
    exact
      ⟨congrArg (Except.map fun n ↦ QueryResult.affected n "row(s) updated") hresult, hrelations⟩
  | delete table filter =>
    obtain ⟨hresult, hrelations⟩ := catalog.relations_modifyTable table
      (f := (·.deleteWithOptions filter options)) (g := (·.delete filter options)) fun t ht ↦
        Table.deleteWithOptions_relation (h table t ht).coherent (h table t ht).exact filter
    exact
      ⟨congrArg (Except.map fun n ↦ QueryResult.affected n "row(s) deleted") hresult, hrelations⟩
  | _ => exact ⟨rfl, rfl⟩

/-! ## Explaining -/

namespace Table

omit [Platform] in
/-- **Which index is used on a column** can be told from the definition. -/
theorem indexOn_schema (t : Table) (column : String) :
    (indexOn t.schema.indexes column).map Prod.fst = (indexOn t.indexes column).map Prod.fst ∧
      (indexOn t.schema.fulltextIndexes column).map Prod.fst =
        (indexOn t.fulltextIndexes column).map Prod.fst := by
  have hindexOn (indexes : BTreeMap String Index) :
      (indexOn indexes column).map Prod.fst =
        ((indexColumns indexes).find? fun p ↦ p.2 = column).map Prod.fst := by
    rw [indexOn, indexColumns, List.find?_map, Option.map_map]
    rfl
  obtain ⟨hindexes, hfulltext⟩ := indexColumns_cleared { t with rows := ∅, nextRowId := 1 }
  rw [hindexOn, hindexOn, hindexOn, hindexOn]
  exact ⟨congrArg (fun l ↦ (List.find? _ l).map Prod.fst) hindexes,
    congrArg (fun l ↦ (List.find? _ l).map Prod.fst) hfulltext⟩

/-- **`EXPLAIN` answers what it answers on a table without rows.** -/
theorem explainFilter_schema (t : Table) (filter : Option Filter) :
    t.schema.explainFilter filter options = t.explainFilter filter options := by
  have hfilter : t.schema.normalizeFilter filter options = t.normalizeFilter filter options := rfl
  rw [explainFilter, explainFilter, hfilter]
  rcases hnormal : t.normalizeFilter filter options with error | normalized
  · rfl
  · show (t.schema.matchingRowIds normalized options).map Prod.snd =
      (t.matchingRowIds normalized options).map Prod.snd
    rcases normalized with _ | ⟨column, value⟩ | ⟨column, query⟩ |
      ⟨column, point, meters, inclusive⟩
    · rfl
    · have hname := (t.indexOn_schema column).1
      rw [matchingRowIds, matchingRowIds]
      rcases indexKey value with error | key
      · rfl
      · simp only [bind, Except.bind, pure, Except.pure]
        show Except.map Prod.snd (if t.primaryKey = some column then _ else _) = _
        split
        · rfl
        · rcases hindex : indexOn t.indexes column with _ | ⟨indexName, index⟩
          · rw [hindex, Option.map_none, Option.map_eq_none_iff] at hname
            rw [hname]
            rfl
          · rw [hindex, Option.map_some, Option.map_eq_some_iff] at hname
            obtain ⟨⟨indexName', index'⟩, hindex', rfl⟩ := hname
            rw [hindex']
            rfl
    · have hname := (t.indexOn_schema column).2
      refine congrArg Except.ok ?_
      rw [matchFulltext, matchFulltext]
      rcases tokenize query options.fulltextTokenizer with _ | ⟨token, tokens⟩
      · rfl
      · rcases hindex : indexOn t.fulltextIndexes column with _ | ⟨indexName, index⟩
        · rw [hindex, Option.map_none, Option.map_eq_none_iff] at hname
          rw [hname]
        · rw [hindex, Option.map_some, Option.map_eq_some_iff] at hname
          obtain ⟨⟨indexName', index'⟩, hindex', rfl⟩ := hname
          rw [hindex']
    · rfl

end Table

namespace Database

omit [Platform] in
/-- What a database says. -/
def relational (db : Database) : RelationalDatabase :=
  ⟨db.path, db.catalog.relations, db.transaction.map Catalog.relations, db.options⟩

/-- A database answers calls. -/
def service : Service Database (String × Outcome) (Parse QueryResult) :=
  fun db action ↦ db.execute action.1 action.2

/-- **A database implements the relational one**: it says the same, its derived maps are those of
its rows, and its cached statements are those of their texts. -/
structure Implements (db : Database) (model : RelationalDatabase) : Prop where
  /-- It says what the relational database says. -/
  relational_eq : db.relational = model
  /-- The derived maps are those of the rows. -/
  all : db.All (Table.FulltextCoherent db.options.fulltextTokenizer)
  /-- A cached statement is the one its text parses to. -/
  parses : db.Parses db.options

omit [Platform] in
theorem relations_activeCatalog (db : Database) :
    db.activeCatalog.relations = db.relational.current := by
  rw [activeCatalog, RelationalDatabase.current, relational]
  rcases db.transaction with _ | transaction <;> rfl

/-- The condition on what a database says is one on the database. -/
theorem keepsTokens_of_relational {db : Database} {statement : Statement}
    (h : db.relational.KeepsTokens statement) : db.KeepsTokens statement := by
  cases statement with
  | createIndex name table column fulltext =>
    rcases fulltext with _ | _
    · intro t ht hcolumn hname hfulltext entry hentry
      have hr : t.relation ∈ db.relational.current[table]? := by
        rw [← db.relations_activeCatalog, Catalog.getElem?_relations]
        exact Option.mem_map_of_mem _ ht
      have hentry' : (entry.1, { entry.2 with map := ∅ }) ∈ t.schema.fulltextIndexes.toList := by
        show _ ∈ (t.fulltextIndexes.map fun _ index ↦ { index with map := ∅ }).toList
        rw [ExtTreeMap.toList_map]
        exact List.mem_map_of_mem hentry
      exact fun stored hstored ↦ h _ hr hcolumn (mt (t.mem_schema name).1.mp hname)
        (mt (t.mem_schema name).2.mp hfulltext) _ hentry' stored.2 (List.mem_map_of_mem hstored)
    · trivial
  | _ => trivial

theorem explain_relational (db : Database) (statement : Statement) :
    db.explain statement =
      db.relational.current.explain statement (tableRuntimeOptions db.options) := by
  cases statement with
  | select table projection filter order limit =>
    rw [explain, Relations.explain, ← db.relations_activeCatalog, Catalog.getElem?_relations]
    rcases db.activeCatalog.tables[table]? with _ | t
    · rfl
    · show _ = (do
        let accessPath ← t.schema.explainFilter filter (tableRuntimeOptions db.options)
        return QueryResult.ofRows [explainRow table filter accessPath])
      rw [Table.explainFilter_schema]
  | _ => rfl

/-- **A statement does to a database what it does to the relational one.** -/
theorem executeCatalogStatement_relational {db : Database}
    (h : db.All (Table.FulltextCoherent db.options.fulltextTokenizer)) (statement : Statement)
    (outcome : Option Error) :
    (db.executeCatalogStatement statement outcome).1 =
        (db.relational.executeStatement statement outcome).1 ∧
      (db.executeCatalogStatement statement outcome).2.relational =
        (db.relational.executeStatement statement outcome).2 := by
  have hrelations := @executeStatement_relations _ (tableRuntimeOptions db.options) _
    h.activeCatalog statement
  have hfailed := @executeStatement_failed _ (tableRuntimeOptions db.options) db.activeCatalog
    (fun name t ht ↦ (h.activeCatalog name t ht).coherent) statement
  rw [db.relations_activeCatalog] at hrelations
  rcases hexecuted : executeStatementWithOptions db.activeCatalog statement
    (tableRuntimeOptions db.options) with ⟨result, catalog⟩
  rw [hexecuted] at hrelations hfailed
  have hmodel : db.relational.current.execute statement
      (tableRuntimeOptions db.relational.options) = (result, catalog.relations) :=
    (Prod.ext hrelations.1 hrelations.2).symm
  rw [RelationalDatabase.executeStatement, hmodel, executeCatalogStatement]
  rcases htx : db.transaction with _ | transaction
  · rw [activeCatalog, htx, Option.getD_none] at hexecuted hfailed
    have hworking : db.relational.working = none := congrArg (Option.map Catalog.relations) htx
    have hcommitted {catalog' : Catalog} (h' : catalog'.relations = db.catalog.relations) :
        Database.relational { db with catalog := catalog' } = db.relational :=
      congrArg (RelationalDatabase.mk db.path · _ db.options) h'
    rw [htx] at hcommitted
    simp only [hexecuted, hworking, Option.isSome_none, Bool.false_eq_true, if_false]
    rcases result with error | result
    · split
      · exact ⟨rfl, rfl⟩
      · exact ⟨rfl, hcommitted (hfailed rfl).relations_eq⟩
    · dsimp only
      split
      · have hpath : db.relational.path = db.path := rfl
        rw [hpath, persist]
        rcases appendOptionalLine db.path outcome with error | _
        · exact ⟨rfl, rfl⟩
        · exact ⟨rfl, rfl⟩
      · rename_i hmutates
        have hsame := executeStatement_of_not_mutates (Bool.eq_false_iff.mpr hmutates) db.catalog
          (tableRuntimeOptions db.options)
        rw [hexecuted] at hsame
        exact ⟨rfl, hcommitted (congrArg Catalog.relations hsame)⟩
  · rw [activeCatalog, htx, Option.getD_some] at hexecuted hfailed
    have hworking : db.relational.working = some transaction.relations :=
      congrArg (Option.map Catalog.relations) htx
    simp only [hexecuted, hworking, Option.isSome_some, if_true]
    rcases result with error | result
    · refine ⟨rfl, congrArg (RelationalDatabase.mk db.path db.catalog.relations · db.options) ?_⟩
      rw [htx]
      exact congrArg some (hfailed rfl).relations_eq
    · exact ⟨rfl, rfl⟩

/-- The same of every statement. -/
theorem executeParsed_relational {db : Database}
    (h : db.All (Table.FulltextCoherent db.options.fulltextTokenizer)) (statement : Statement)
    (outcome : Option Error) :
    (db.executeParsed statement outcome).1 =
        (db.relational.executeParsed statement outcome).1 ∧
      (db.executeParsed statement outcome).2.relational =
        (db.relational.executeParsed statement outcome).2 := by
  have hworking : db.relational.working = db.transaction.map Catalog.relations := rfl
  cases statement with
  | begin =>
    rw [executeParsed, begin, RelationalDatabase.executeParsed, hworking, Option.isSome_map]
    split <;> exact ⟨rfl, rfl⟩
  | commit =>
    rw [executeParsed, commit, RelationalDatabase.executeParsed, hworking]
    rcases db.transaction with _ | transaction
    · exact ⟨rfl, rfl⟩
    · have hpath : db.relational.path = db.path := rfl
      dsimp only [Option.map_some]
      rw [hpath, persist]
      rcases appendOptionalLine db.path outcome with error | _ <;> exact ⟨rfl, rfl⟩
  | rollback =>
    rw [executeParsed, rollback, RelationalDatabase.executeParsed, hworking, Option.isNone_map]
    split <;> exact ⟨rfl, rfl⟩
  | explain statement => exact ⟨db.explain_relational statement, rfl⟩
  | _ => exact executeCatalogStatement_relational h _ outcome

/-- **A call does to a database what it does to the relational one.** -/
theorem execute_relational {db : Database}
    (h : db.All (Table.FulltextCoherent db.options.fulltextTokenizer))
    (hparses : db.Parses db.options) (sql : String) (outcome : Outcome) :
    (db.execute sql outcome).1 = (db.relational.execute sql outcome).1 ∧
      (db.execute sql outcome).2.relational = (db.relational.execute sql outcome).2 := by
  have hparse : (db.parseStatement sql).1 =
    parseSqlWithDialect sql db.relational.options.sqlDialect := (hparses.parseStatement sql).1
  rw [execute, RelationalDatabase.execute, ← hparse]
  have hall : (db.parseStatement sql).2.All
    (Table.FulltextCoherent (db.parseStatement sql).2.options.fulltextTokenizer) := h
  have hrelational : (db.parseStatement sql).2.relational = db.relational := rfl
  rcases heq : db.parseStatement sql with ⟨fault | statement, db'⟩
  · rw [heq] at hrelational
    exact ⟨rfl, hrelational⟩
  · rw [heq] at hall hrelational
    obtain ⟨hresult, hnext⟩ := executeParsed_relational hall statement outcome.persist
    have hbefore : db'.logBefore statement outcome.log =
      db'.relational.logBefore statement outcome.log := rfl
    dsimp only at hrelational hresult hnext ⊢
    rw [hbefore, hrelational]
    rw [hrelational] at hresult hnext
    rcases db.relational.logBefore statement outcome.log with error | _
    · exact ⟨rfl, hrelational⟩
    · dsimp only
      generalize db'.executeParsed statement outcome.persist = executed at hresult hnext ⊢
      generalize db.relational.executeParsed statement outcome.persist = model at hresult hnext ⊢
      obtain ⟨result, db₁⟩ := executed
      obtain ⟨result', model⟩ := model
      obtain rfl : result = result' := hresult
      obtain rfl : db₁.relational = model := hnext
      rcases result with error | result
      · exact ⟨rfl, rfl⟩
      · have hafter : db₁.logAfter statement outcome.log =
          db₁.relational.logAfter statement outcome.log := rfl
        dsimp only
        rw [hafter]
        rcases db₁.relational.logAfter statement outcome.log with error | _ <;> exact ⟨rfl, rfl⟩

/-- A call keeps the cached statements those of their texts. -/
theorem Parses.execute {db : Database} {options : DatabaseOptions} (h : db.Parses options)
    (sql : String) (outcome : Outcome) : (db.execute sql outcome).2.Parses options := by
  have hparsed := (h.parseStatement sql).2
  rw [Database.execute]
  generalize db.parseStatement sql = parsed at hparsed ⊢
  obtain ⟨fault | statement, db'⟩ := parsed
  · exact hparsed
  · have hexecuted := Parses.executeParsed hparsed statement outcome.persist
    dsimp only at hexecuted ⊢
    rcases db'.logBefore statement outcome.log with error | _
    · exact hparsed
    · generalize db'.executeParsed statement outcome.persist = executed at hexecuted ⊢
      obtain ⟨error | result, db₁⟩ := executed
      · exact hexecuted
      · dsimp only
        rcases db₁.logAfter statement outcome.log with error | _ <;> exact hexecuted

/-- **A database answers a call as the relational database does**, and goes on implementing it. -/
theorem simulates_relational :
    Service.Simulates service RelationalDatabase.service RelationalDatabase.CallKeepsTokens
      Implements := by
  intro db model action himplements hkeeps
  obtain ⟨rfl, hall, hparses⟩ := himplements
  obtain ⟨hresult, hnext⟩ := execute_relational hall hparses action.1 action.2
  refine ⟨hresult, hnext, ?_, ?_⟩
  · show (db.execute action.1 action.2).2.All (Table.FulltextCoherent
      (db.execute action.1 action.2).2.options.fulltextTokenizer)
    rw [options_execute]
    refine execute_all (Table.preserved_fulltextCoherent (tableRuntimeOptions db.options)) ?_ hall
    intro statement hexecutes
    refine (keepsTokens_of_relational (hkeeps statement ?_ hexecutes.2)).indexPreserves
    have hparse : (db.parseStatement action.1).1 =
      parseSqlWithDialect action.1 db.relational.options.sqlDialect :=
        (hparses.parseStatement action.1).1
    rw [← hparse, hexecutes.1]
    rfl
  · show (db.execute action.1 action.2).2.Parses (db.execute action.1 action.2).2.options
    rw [options_execute]
    exact hparses.execute action.1 action.2

omit [Platform] in
theorem relational_empty (path : Option String) (options : DatabaseOptions)
    (cache : BTreeMap String Statement) :
    relational ⟨path, .empty, none, options, cache⟩ = .empty path options := by
  have hrelations : Catalog.relations .empty = ∅ := ExtTreeMap.map_eq_empty_iff.mpr rfl
  show RelationalDatabase.mk path (Catalog.relations .empty) none options = _
  rw [hrelations]
  rfl

/-- A database without tables implements the one without relations. -/
theorem implements_empty (path : Option String) (options : DatabaseOptions) :
    Implements ⟨path, .empty, none, options, ∅⟩ (.empty path options) :=
  ⟨relational_empty path options ∅, ⟨Catalog.all_empty _, by simp⟩, ⟨rfl, cacheOk_empty _⟩⟩

/-- **A database is the relational database**: started empty, in memory or on a file, it answers
every sequence of calls as the relational database does, whatever becomes of its log records and of
its writes, and says the same at the end. -/
theorem answers_relational (path : Option String) (options : DatabaseOptions)
    (calls : List (String × Outcome))
    (h : RelationalDatabase.service.Along RelationalDatabase.CallKeepsTokens
      (.empty path options) calls) :
    service.answers ⟨path, .empty, none, options, ∅⟩ calls =
        RelationalDatabase.service.answers (.empty path options) calls ∧
      (service.after ⟨path, .empty, none, options, ∅⟩ calls).relational =
        RelationalDatabase.service.after (.empty path options) calls := by
  obtain ⟨hanswers, hafter⟩ := simulates_relational.run (implements_empty path options) h
  exact ⟨hanswers, hafter.relational_eq⟩

end Database

end Platform

namespace Database

/-- Calls that create a secondary index on a table with a full-text index and a text. -/
def indexingCalls : List (String × Outcome) :=
  ["CREATE TABLE t (a TEXT, b INT)", "CREATE FULLTEXT INDEX f ON t (a)",
    "INSERT INTO t VALUES ('x y', 1)", "BEGIN", "CREATE INDEX i ON t (b)",
    "UPDATE t SET b = 2 WHERE MATCH(a, 'y')", "SELECT * FROM t WHERE b = 2", "ROLLBACK",
    "EXPLAIN SELECT * FROM t WHERE b = 2"].map (·, {})

theorem answers_indexingCalls :
    (@service Platform.ascii).answers ⟨none, .empty, none, whitespaceOptions, ∅⟩ indexingCalls =
      (@RelationalDatabase.service Platform.ascii).answers (.empty none whitespaceOptions)
        indexingCalls :=
  (@answers_relational Platform.ascii none whitespaceOptions indexingCalls (by decide +kernel)).1

end Database

end Fsql
