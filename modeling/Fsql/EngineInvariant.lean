import Fsql.Engine
import Fsql.Storage.Typed

/-!
# What holds in every state of a database

A statement changes a catalog one table at a time, so an invariant of tables that the operations on
tables preserve is an invariant of the catalogs of a database: of the committed one and of the
working one (`Database.All`).  `Database.execute_all` is the step, for an arbitrary predicate; the
runs come from `Machine.ReachableVia.invariant`.

Two predicates are carried through.  Coherence is preserved by everything
(`Database.coherent_of_reachable`).  Well-formedness is preserved by everything but a
`CREATE INDEX` that names its column by something else than the column's name
(`Database.wellFormed_of_reachable`).
-/

set_option autoImplicit false

namespace Fsql

section Platform

variable [Platform]

/-- A predicate of tables that every operation but the creation of an index preserves. -/
structure Table.Preserved (options : TableRuntimeOptions) (P : Table → Prop) : Prop where
  /-- A new table satisfies it. -/
  new {name : String} {columns : List Column} {t : Table} : Table.new name columns = .ok t → P t
  /-- An insertion preserves it. -/
  insert {t : Table} (columns : Option (List String)) (values : List Value) :
    P t → P (t.insertWithOptions columns values options).2
  /-- An update preserves it. -/
  update {t : Table} (assignments : List (String × Value)) (filter : Option Filter) :
    P t → P (t.updateWithOptions assignments filter options).2
  /-- A deletion preserves it. -/
  delete {t : Table} (filter : Option Filter) : P t → P (t.deleteWithOptions filter options).2

/-- The creation of an index on a table, of either kind. -/
def Table.createAnyIndex (t : Table) (name column : String) (fulltext : Bool)
    (options : TableRuntimeOptions) : Result Unit × Table :=
  if fulltext then t.createFulltextIndexWithOptions name column options
  else t.createIndex name column

/-- If the statement creates an index, that preserves the predicate. -/
def IndexPreserves (options : TableRuntimeOptions) (P : Table → Prop) (catalog : Catalog) :
    Statement → Prop
  | .createIndex name table column fulltext =>
    ∀ t, catalog.tables[table]? = some t → P t → P (t.createAnyIndex name column fulltext options).2
  | _ => True

/-- **A statement preserves what the operations on tables preserve.** -/
theorem executeStatement_all {options : TableRuntimeOptions} {P : Table → Prop}
    (hP : Table.Preserved options P) {catalog : Catalog} {statement : Statement}
    (hindex : IndexPreserves options P catalog statement) (h : catalog.All P) :
    (executeStatementWithOptions catalog statement options).2.All P := by
  cases statement with
  | createTable name columns =>
    rw [executeStatementWithOptions]
    split
    · exact h
    · split
      · exact h
      · rename_i t hnew
        exact h.insert name (hP.new hnew)
  | createIndex name table column fulltext => exact h.modifyTable fun t ht ↦ hindex t ht
  | insert table columns values => exact h.modifyTable fun _ _ ↦ hP.insert columns values
  | select table projection filter order limit =>
    rw [executeStatementWithOptions]
    split <;> exact h
  | update table assignments filter => exact h.modifyTable fun _ _ ↦ hP.update assignments filter
  | delete table filter => exact h.modifyTable fun _ _ ↦ hP.delete filter
  | _ => exact h

/-- Coherence is preserved by every operation. -/
theorem Table.preserved_coherent (options : TableRuntimeOptions) :
    Table.Preserved options Table.Coherent where
  new h := (coherent_new h).1
  insert columns values h := by
    cases hrow : Table.insertRow _ columns values options with
    | error error => rw [insertWithOptions_error hrow]; exact h
    | ok row =>
      obtain ⟨t', heq, hcoherent, -⟩ := insertWithOptions_ok h hrow
      rw [heq]
      exact hcoherent
  update assignments filter h := by
    rcases updateWithOptions_cases h assignments filter options with
      ⟨error, -, heq⟩ | ⟨_, _, t', -, hcoherent, ⟨-, -, heq⟩ | ⟨-, -, error, heq⟩⟩
    · rw [heq]
      exact h
    · rw [heq]
      exact hcoherent
    · rw [heq]
      exact hcoherent
  delete filter h := by
    rcases deleteWithOptions_cases h filter options with
      ⟨error, -, heq⟩ | ⟨_, t', -, hcoherent, -, heq⟩
    · rw [heq]
      exact h
    · rw [heq]
      exact hcoherent

theorem Table.Coherent.createAnyIndex {t : Table} (h : t.Coherent) (name column : String)
    (fulltext : Bool) (options : TableRuntimeOptions) :
    (t.createAnyIndex name column fulltext options).2.Coherent := by
  rw [Table.createAnyIndex]
  split
  · rcases createFulltextIndexWithOptions_cases h name column options with
      ⟨error, heq⟩ | ⟨_, t', -, -, -, -, hcoherent, -, heq⟩
    · rw [heq]
      exact h
    · rw [heq]
      exact hcoherent
  · rcases createIndex_cases h name column with
      ⟨error, heq⟩ | ⟨_, t', -, -, -, hcoherent, -, heq⟩
    · rw [heq]
      exact h
    · rw [heq]
      exact hcoherent

theorem executeStatement_coherent {options : TableRuntimeOptions} {catalog : Catalog}
    (h : catalog.Coherent) (statement : Statement) :
    (executeStatementWithOptions catalog statement options).2.Coherent := by
  refine executeStatement_all (Table.preserved_coherent options) ?_ h
  cases statement with
  | createIndex name table column fulltext =>
    exact fun t _ ht ↦ ht.createAnyIndex name column fulltext options
  | _ => trivial

/-- Well-formedness is preserved by every operation but the creation of an index. -/
theorem Table.preserved_wellFormed (options : TableRuntimeOptions) :
    Table.Preserved options (Table.WellFormed options) where
  new := new_wellFormed
  insert columns values h := insertWithOptions_wellFormed h columns values
  update assignments filter h := updateWithOptions_wellFormed h assignments filter
  delete filter h := deleteWithOptions_wellFormed h filter

/-! ## The catalogs of a database -/

namespace Database

/-- Every table of the committed and of the working catalog satisfies a predicate. -/
def All (P : Table → Prop) (db : Database) : Prop :=
  db.catalog.All P ∧ ∀ transaction, db.transaction = some transaction → transaction.All P

omit [Platform] in
theorem All.activeCatalog {P : Table → Prop} {db : Database} (h : db.All P) :
    db.activeCatalog.All P := by
  rw [Database.activeCatalog]
  cases htx : db.transaction with
  | none => exact h.1
  | some transaction => exact h.2 transaction htx

/-- The statement a call comes to execute: the text parses, and the log records before it are
written. -/
def Executes (db : Database) (action : String × Outcome) (statement : Statement) : Prop :=
  (db.parseStatement action.1).1 = .ok statement ∧
    db.logBefore statement action.2.log = .ok ()

/-- A predicate of catalogs holds of the committed catalog and of the working one. -/
def Holds (Q : Catalog → Prop) (db : Database) : Prop :=
  Q db.catalog ∧ ∀ transaction, db.transaction = some transaction → Q transaction

omit [Platform] in
theorem Holds.activeCatalog {Q : Catalog → Prop} {db : Database} (h : db.Holds Q) :
    Q db.activeCatalog := by
  rw [Database.activeCatalog]
  cases htx : db.transaction with
  | none => exact h.1
  | some transaction => exact h.2 transaction htx

/-- What the statement preserves on the catalog it is executed on holds afterwards. -/
theorem executeParsed_holds {Q : Catalog → Prop} {db : Database} {statement : Statement}
    (hstep : Q db.activeCatalog → Q (executeStatementWithOptions db.activeCatalog statement
      (tableRuntimeOptions db.options)).2)
    (outcome : Option Error) (h : db.Holds Q) : (db.executeParsed statement outcome).2.Holds Q := by
  have hcatalog : (db.executeCatalogStatement statement outcome).2.Holds Q := by
    have hexecuted := hstep h.activeCatalog
    rw [executeCatalogStatement]
    rw [Database.activeCatalog] at hexecuted
    cases htx : db.transaction with
    | some transaction =>
      rw [htx, Option.getD_some] at hexecuted
      exact ⟨h.1, fun t ht ↦ Option.some.inj ht ▸ hexecuted⟩
    | none =>
      rw [htx, Option.getD_none] at hexecuted
      simp only
      split
      · split
        · exact h
        · split
          · exact h
          · exact ⟨hexecuted, by simp⟩
      · exact ⟨hexecuted, by simp⟩
  cases statement with
  | begin =>
    rw [executeParsed, begin]
    split
    · exact h
    · exact ⟨h.1, fun t ht ↦ Option.some.inj ht ▸ h.1⟩
  | commit =>
    rw [executeParsed, commit]
    split
    · exact h
    · rename_i transaction htx
      split
      · exact h
      · exact ⟨h.2 transaction htx, by simp⟩
  | rollback =>
    rw [executeParsed, rollback]
    split
    · exact h
    · exact ⟨h.1, by simp⟩
  | explain statement => exact h
  | _ => exact hcatalog

/-- The same of one call. -/
theorem execute_holds {Q : Catalog → Prop} {db : Database} {action : String × Outcome}
    (hstep : ∀ statement, db.Executes action statement → Q db.activeCatalog →
      Q (executeStatementWithOptions db.activeCatalog statement
        (tableRuntimeOptions db.options)).2)
    (h : db.Holds Q) : (db.execute action.1 action.2).2.Holds Q := by
  have hparse : (db.parseStatement action.1).2.Holds Q := h
  rw [execute]
  split
  · rename_i fault db' heq
    rw [heq] at hparse
    exact hparse
  · rename_i statement db' heq
    have hstatement : (db.parseStatement action.1).1 = .ok statement := by rw [heq]
    have hsame : db' = (db.parseStatement action.1).2 := by rw [heq]
    subst hsame
    split
    · exact hparse
    · rename_i hlog
      have hexecuted : ((db.parseStatement action.1).2.executeParsed statement
          action.2.persist).2.Holds Q :=
        @executeParsed_holds _ Q (db.parseStatement action.1).2 statement
          (hstep statement ⟨hstatement, hlog⟩) action.2.persist hparse
      split
      · rename_i heq'
        rw [heq'] at hexecuted
        exact hexecuted
      · rename_i heq'
        rw [heq'] at hexecuted
        split <;> exact hexecuted

/-- **One call preserves what the operations on tables preserve.** -/
theorem execute_all {P : Table → Prop} {db : Database}
    (hP : Table.Preserved (tableRuntimeOptions db.options) P) {action : String × Outcome}
    (hindex : ∀ statement, db.Executes action statement →
      IndexPreserves (tableRuntimeOptions db.options) P db.activeCatalog statement)
    (h : db.All P) : (db.execute action.1 action.2).2.All P :=
  execute_holds (fun statement hexecutes ↦ executeStatement_all hP (hindex statement hexecutes)) h

/-- A statement keeps the options and the path. -/
theorem settings_executeParsed (db : Database) (statement : Statement) (outcome : Option Error) :
    (db.executeParsed statement outcome).2.options = db.options ∧
      (db.executeParsed statement outcome).2.path = db.path := by
  have hcatalog : (db.executeCatalogStatement statement outcome).2.options = db.options ∧
      (db.executeCatalogStatement statement outcome).2.path = db.path := by
    rw [executeCatalogStatement]
    cases db.transaction with
    | some transaction => exact ⟨rfl, rfl⟩
    | none =>
      simp only
      split
      · split
        · exact ⟨rfl, rfl⟩
        · split <;> exact ⟨rfl, rfl⟩
      · exact ⟨rfl, rfl⟩
  cases statement with
  | begin =>
    rw [executeParsed, begin]
    split <;> exact ⟨rfl, rfl⟩
  | commit =>
    rw [executeParsed, commit]
    split
    · exact ⟨rfl, rfl⟩
    · split <;> exact ⟨rfl, rfl⟩
  | rollback =>
    rw [executeParsed, rollback]
    split <;> exact ⟨rfl, rfl⟩
  | explain statement => exact ⟨rfl, rfl⟩
  | _ => exact hcatalog

theorem options_executeParsed (db : Database) (statement : Statement) (outcome : Option Error) :
    (db.executeParsed statement outcome).2.options = db.options :=
  (db.settings_executeParsed statement outcome).1

/-- No call changes the options or the path. -/
theorem settings_execute (db : Database) (sql : String) (outcome : Outcome) :
    (db.execute sql outcome).2.options = db.options ∧
      (db.execute sql outcome).2.path = db.path := by
  have hparse : (db.parseStatement sql).2.options = db.options ∧
      (db.parseStatement sql).2.path = db.path := ⟨rfl, rfl⟩
  rw [execute]
  split
  · rename_i heq
    rw [heq] at hparse
    exact hparse
  · rename_i statement db' heq
    rw [heq] at hparse
    obtain ⟨hoptions, hpath⟩ := db'.settings_executeParsed statement outcome.persist
    split
    · exact hparse
    · split
      · rename_i heq'
        rw [heq'] at hoptions hpath
        exact ⟨hoptions.trans hparse.1, hpath.trans hparse.2⟩
      · rename_i heq'
        rw [heq'] at hoptions hpath
        split <;> exact ⟨hoptions.trans hparse.1, hpath.trans hparse.2⟩

theorem options_execute (db : Database) (sql : String) (outcome : Outcome) :
    (db.execute sql outcome).2.options = db.options :=
  (db.settings_execute sql outcome).1

/-! ## Runs -/

variable {options : DatabaseOptions}

omit [Platform] in
theorem all_of_init {P : Table → Prop} {db : Database}
    (h : tryMemoryWithOptions options = .ok db) : db.options = options ∧ db.All P := by
  rw [tryMemoryWithOptions] at h
  cases hvalid : options.validate with
  | error error => simp [hvalid, bind, Except.bind] at h
  | ok _ =>
    simp only [hvalid, bind, Except.bind, pure, Except.pure, Except.ok.injEq] at h
    subst h
    exact ⟨rfl, Catalog.all_empty P, by simp⟩

/-- **What the operations on tables preserve holds in every state of a run** whose index creations
preserve it too. -/
theorem all_of_reachableVia {P : Table → Prop} {C : Database → String × Outcome → Prop}
    (hP : Table.Preserved (tableRuntimeOptions options) P)
    (hC : ∀ (db : Database) (action : String × Outcome), C db action → db.options = options →
      ∀ statement, db.Executes action statement →
        IndexPreserves (tableRuntimeOptions options) P db.activeCatalog statement)
    {db : Database} (h : (machine options).ReachableVia C db) :
    db.options = options ∧ db.All P := by
  refine h.invariant (I := fun db ↦ db.options = options ∧ db.All P)
    (fun _ hinit ↦ all_of_init hinit) ?_
  intro db action db' _ ⟨hoptions, hall⟩ hc hstep
  obtain rfl := Option.some.inj hstep
  refine ⟨(options_execute db _ _).trans hoptions, execute_all (hoptions ▸ hP) ?_ hall⟩
  intro statement hexecutes
  rw [hoptions]
  exact hC db action hc hoptions statement hexecutes

/-- **The runs of a database**, in memory or on a file that is missing or empty when it is
opened. -/
def fresh (options : DatabaseOptions) : Machine Database (String × Outcome) where
  init db := options.validate = .ok () ∧ ∃ path, db = ⟨path, .empty, none, options, ∅⟩
  step db action := some (db.execute action.1 action.2).2

/-- What every statement preserves holds in every state of a run. -/
theorem holds_of_fresh {Q : Catalog → Prop} {C : Database → String × Outcome → Prop}
    (hempty : Q .empty)
    (hC : ∀ (db : Database) (action : String × Outcome), C db action → db.options = options →
      ∀ statement, db.Executes action statement → Q db.activeCatalog →
        Q (executeStatementWithOptions db.activeCatalog statement (tableRuntimeOptions options)).2)
    {db : Database} (h : (fresh options).ReachableVia C db) :
    db.options = options ∧ db.Holds Q := by
  refine h.invariant (I := fun db ↦ db.options = options ∧ db.Holds Q) ?_ ?_
  · rintro db ⟨-, path, rfl⟩
    exact ⟨rfl, hempty, by simp⟩
  · intro db action db' _ ⟨hoptions, hholds⟩ hc hstep
    obtain rfl := Option.some.inj hstep
    refine ⟨(options_execute db _ _).trans hoptions, execute_holds ?_ hholds⟩
    intro statement hexecutes
    rw [hoptions]
    exact hC db action hc hoptions statement hexecutes

/-- **Every table of every state is coherent**, whatever statements are executed. -/
theorem coherent_of_reachable {db : Database} (h : (machine options).Reachable db) :
    db.All Table.Coherent := by
  refine (all_of_reachableVia (Table.preserved_coherent _) ?_ h).2
  intro db action _ _ statement _
  cases statement with
  | createIndex name table column fulltext =>
    exact fun t _ ht ↦ ht.createAnyIndex name column fulltext _
  | _ => trivial

/-! ## Well-formedness -/

/-- **An index that gets created is declared on a column by that column's own name.**  An index
that does not get created — its column does not resolve, or has the wrong type, or the name of the
index is taken — may name anything. -/
def NamesIndexedColumn (db : Database) : Statement → Prop
  | .createIndex name table column fulltext =>
    ∀ t ∈ db.activeCatalog.tables[table]?, ∀ c ∈ (t.column column).toOption,
      (fulltext = true → c.ty = .text) → name ∉ t.indexes → name ∉ t.fulltextIndexes →
        t.NamesColumn column fulltext
  | _ => True

/-- The same of the statement a call comes to execute. -/
def NamesIndexedColumns (db : Database) (action : String × Outcome) : Prop :=
  ∀ statement ∈ (db.parseStatement action.1).1.toOption,
    db.logBefore statement action.2.log = .ok () → db.NamesIndexedColumn statement

instance decidableNamesIndexedColumn (db : Database) :
    ∀ statement, Decidable (db.NamesIndexedColumn statement)
  | .createIndex name table column fulltext =>
    inferInstanceAs (Decidable (∀ t ∈ db.activeCatalog.tables[table]?,
      ∀ c ∈ (t.column column).toOption, (fulltext = true → c.ty = .text) → name ∉ t.indexes →
        name ∉ t.fulltextIndexes → ∃ c ∈ t.columns, c.name = column ∧
          (fulltext = true → c.ty = .text)))
  | .createTable .. | .insert .. | .select .. | .update .. | .delete .. | .explain _ | .begin
  | .commit | .rollback | .parsedOnly .. => isTrue trivial

instance decidableNamesIndexedColumns (db : Database) (action : String × Outcome) :
    Decidable (db.NamesIndexedColumns action) :=
  inferInstanceAs (Decidable (∀ statement ∈ (db.parseStatement action.1).1.toOption,
    db.logBefore statement action.2.log = .ok () → db.NamesIndexedColumn statement))

theorem NamesIndexedColumn.indexPreserves {db : Database} {statement : Statement}
    (h : db.NamesIndexedColumn statement) (options : TableRuntimeOptions) :
    IndexPreserves options (Table.WellFormed options) db.activeCatalog statement := by
  cases statement with
  | createIndex name table column fulltext =>
    intro t ht hwf
    have hnames (c : Column) (hc : t.column column = .ok c) := h t ht c (by rw [hc]; rfl)
    rw [Table.createAnyIndex]
    cases fulltext with
    | true => exact Table.createFulltextIndexWithOptions_wellFormed hwf fun c hc htext ↦
        hnames c hc fun _ ↦ htext
    | false => exact Table.createIndex_wellFormed hwf fun c hc ↦ hnames c hc (by simp)
  | _ => trivial

/-- **Every table of every state is well formed** in a run whose indexes are declared on columns by
their own names; and then no rebuild fails but that of an update. -/
theorem wellFormed_of_reachable {db : Database}
    (h : (machine options).ReachableVia NamesIndexedColumns db) :
    db.All fun t ↦ t.WellFormed (tableRuntimeOptions options) ∧
      t.Rebuilds (tableRuntimeOptions options) := by
  have hall : db.All (Table.WellFormed (tableRuntimeOptions options)) := by
    refine (all_of_reachableVia (Table.preserved_wellFormed _) ?_ h).2
    intro db action hnames _ statement ⟨hparse, hlog⟩
    exact (hnames statement (by rw [hparse]; rfl) hlog).indexPreserves _
  exact ⟨fun n t ht ↦ ⟨hall.1 n t ht, (hall.1 n t ht).coherent.rebuilds _⟩,
    fun transaction htx n t ht ↦
      ⟨hall.2 transaction htx n t ht, (hall.2 transaction htx n t ht).coherent.rebuilds _⟩⟩

end Database

end Platform

namespace Database

/-- The state after the texts of a list have been executed on an empty in-memory database. -/
def afterTexts (texts : List String) : Database :=
  ((@machine Platform.ascii {}).runFrom ⟨none, .empty, none, {}, ∅⟩ (texts.map (·, {}))).getD
    ⟨none, .empty, none, {}, ∅⟩

theorem reachableVia_afterTexts {C : Database → String × Outcome → Prop} (texts : List String)
    (hC : (@machine Platform.ascii {}).StepsSatisfy C ⟨none, .empty, none, {}, ∅⟩
      (texts.map (·, {}))) :
    (@machine Platform.ascii {}).ReachableVia C (afterTexts texts) := by
  have hinit : (@machine Platform.ascii {}).ReachableVia C ⟨none, .empty, none, {}, ∅⟩ :=
    .init (show tryMemoryWithOptions {} = _ from rfl)
  rw [afterTexts]
  cases hrun : (@machine Platform.ascii {}).runFrom ⟨none, .empty, none, {}, ∅⟩
      (texts.map (·, {})) with
  | none => exact hinit
  | some db => exact Machine.reachableVia_of_runFrom hinit hC hrun

/-- A table with a primary key, an index declared on a column by its name, and a row. -/
theorem wellFormed_afterTexts : (afterTexts ["CREATE TABLE t (a INT PRIMARY KEY, b TEXT)",
      "CREATE INDEX i ON t (b)", "INSERT INTO t VALUES (1, 'x')"]).All fun t ↦
    t.WellFormed (tableRuntimeOptions {}) ∧
      @Table.Rebuilds Platform.ascii (tableRuntimeOptions {}) t :=
  @wellFormed_of_reachable Platform.ascii _ _ (reachableVia_afterTexts _ (by decide +kernel))

/-- **An index can be declared on a column that does not exist**: quotes left in the given name are
stripped to find a column, and kept in the index. -/
theorem not_wellFormed_of_reachable : ¬∀ [Platform] (options : DatabaseOptions) (db : Database),
    (machine options).Reachable db →
      db.All (Table.WellFormed (tableRuntimeOptions options)) := by
  intro h
  have hreachable : (@machine Platform.ascii {}).Reachable
      (afterTexts ["CREATE TABLE t (a INT)", "CREATE INDEX i ON t('`a`')"]) :=
    reachableVia_afterTexts _ (Machine.stepsSatisfy_true _ _)
  have hall := (@h Platform.ascii {} _ hreachable).1
  -- the index is there, and no column has the name it is declared with
  have hindex : (afterTexts ["CREATE TABLE t (a INT)", "CREATE INDEX i ON t('`a`')"]
      ).catalog.tables["t"]?.any (fun t ↦ t.indexes["i"]?.any fun index ↦
        t.columns.all (·.name ≠ index.column)) = true := by decide +kernel
  simp only [Option.any_eq_true, List.all_eq_true, decide_eq_true_eq] at hindex
  obtain ⟨t, ht, index, hindex, hcolumn⟩ := hindex
  obtain ⟨c, hc, hname⟩ := (hall "t" t ht).typed.indexColumn "i" index hindex
  exact hcolumn c hc hname

end Database

end Fsql
