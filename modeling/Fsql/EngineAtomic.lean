import Fsql.EngineInvariant

/-!
# What a failed statement leaves behind

Inside a transaction a failed statement is not undone: `execute_catalog_statement` keeps no copy of
the working catalog.  `executeStatement_failed` says that nothing has to be undone — on a coherent
catalog the last step of each statement, the rebuild of the derived maps, fails only in an update,
which puts the rows back and rebuilds once more.
-/

set_option autoImplicit false

namespace Fsql

/-- **Two catalogs that differ at most in what their full-text indexes list.** -/
def Catalog.SameButFulltext (c c' : Catalog) : Prop :=
  ∀ name : String, Option.Rel Table.SameButFulltext c.tables[name]? c'.tables[name]?

theorem Catalog.SameButFulltext.refl (c : Catalog) : c.SameButFulltext c := by
  intro name
  cases c.tables[name]? with
  | none => exact .none
  | some t => exact .some (Table.SameButFulltext.refl t)

/-- What is done to one table changes the catalog as it changes the table. -/
theorem Catalog.sameButFulltext_modifyTable {α : Type} {c : Catalog} {name : String}
    {f : Table → Result α × Table}
    (h : ∀ t, c.tables[name]? = some t → t.SameButFulltext (f t).2) :
    c.SameButFulltext (c.modifyTable name f).2 := by
  intro n
  cases ht : c.tables[name]? with
  | none =>
    rw [modifyTable, ht]
    exact Catalog.SameButFulltext.refl c n
  | some t =>
    rw [modifyTable_self f ht, BTree.getElem?_insert]
    by_cases hn : name = n
    · subst hn
      rw [if_pos rfl, ht]
      exact .some (h t ht)
    · rw [if_neg hn]
      exact Catalog.SameButFulltext.refl c n

section Platform

variable [Platform] {options : TableRuntimeOptions}

namespace Table

theorem insertWithOptions_failed {t : Table} (hc : t.Coherent) {columns : Option (List String)}
    {values : List Value} {error : Error}
    (h : (t.insertWithOptions columns values options).1 = .error error) :
    t.SameButFulltext (t.insertWithOptions columns values options).2 := by
  cases hrow : t.insertRow columns values options with
  | error error =>
    rw [insertWithOptions_error hrow]
    exact .refl t
  | ok row =>
    obtain ⟨t', heq, -⟩ := insertWithOptions_ok hc hrow
    rw [heq] at h
    cases h

/-- An update that fails while it rebuilds the derived maps has put the rows back. -/
theorem updateWithOptions_failed {t : Table} (hc : t.Coherent)
    {assignments : List (String × Value)} {filter : Option Filter} {error : Error}
    (h : (t.updateWithOptions assignments filter options).1 = .error error) :
    t.SameButFulltext (t.updateWithOptions assignments filter options).2 := by
  rcases updateWithOptions_cases hc assignments filter options with
    ⟨_, -, heq⟩ | ⟨_, _, t', -, hcoherent, ⟨-, -, heq⟩ | ⟨-, hdata, _, heq⟩⟩
  · rw [heq]
    exact .refl t
  · rw [heq] at h
    cases h
  · rw [heq]
    exact hdata.sameButFulltext hc hcoherent

theorem deleteWithOptions_failed {t : Table} (hc : t.Coherent) {filter : Option Filter}
    {error : Error} (h : (t.deleteWithOptions filter options).1 = .error error) :
    t.SameButFulltext (t.deleteWithOptions filter options).2 := by
  rcases deleteWithOptions_cases hc filter options with ⟨_, -, heq⟩ | ⟨_, _, -, -, -, heq⟩
  · rw [heq]
    exact .refl t
  · rw [heq] at h
    cases h

theorem createAnyIndex_failed {t : Table} (hc : t.Coherent) {name column : String}
    {fulltext : Bool} {error : Error}
    (h : (t.createAnyIndex name column fulltext options).1 = .error error) :
    t.SameButFulltext (t.createAnyIndex name column fulltext options).2 := by
  rw [createAnyIndex] at h ⊢
  cases fulltext with
  | true =>
    rw [if_pos rfl] at h ⊢
    rcases createFulltextIndexWithOptions_cases hc name column options with
      ⟨_, heq⟩ | ⟨_, _, -, -, -, -, -, -, heq⟩
    · rw [heq]
      exact .refl t
    · rw [heq] at h
      cases h
  | false =>
    rw [if_neg (by decide)] at h ⊢
    rcases createIndex_cases hc name column with ⟨_, heq⟩ | ⟨_, _, -, -, -, -, -, heq⟩
    · rw [heq]
      exact .refl t
    · rw [heq] at h
      cases h

end Table

omit [Platform] in
/-- The result of a statement that modifies a table is an error only if that of the table is. -/
theorem Catalog.modifyTable_error {α β : Type} {c : Catalog} {name : String}
    {f : Table → Result α × Table} {g : α → β} {error : Error} {t : Table}
    (ht : c.tables[name]? = some t)
    (h : ((c.modifyTable name f).1.map g) = .error error) : (f t).1 = .error error := by
  rw [modifyTable_self f ht] at h
  cases hf : (f t).1 with
  | error e =>
    rw [hf] at h
    cases h
    rfl
  | ok a =>
    rw [hf] at h
    cases h

/-- **A statement that fails on a coherent catalog leaves it as it was.** -/
theorem executeStatement_failed {catalog : Catalog} (hc : catalog.Coherent)
    {statement : Statement} {error : Error}
    (h : (executeStatementWithOptions catalog statement options).1 = .error error) :
    catalog.SameButFulltext (executeStatementWithOptions catalog statement options).2 := by
  cases statement with
  | createTable name columns =>
    rw [executeStatementWithOptions] at h ⊢
    by_cases hmem : name ∈ catalog.tables
    · rw [if_pos hmem]
      exact .refl catalog
    · rw [if_neg hmem]
      cases hnew : Table.new name columns with
      | error _ => exact .refl catalog
      | ok t =>
        rw [if_neg hmem, hnew] at h
        cases h
  | createIndex name table column fulltext =>
    exact Catalog.sameButFulltext_modifyTable fun t ht ↦
      Table.createAnyIndex_failed (hc table t ht) (Catalog.modifyTable_error ht h)
  | insert table columns values =>
    exact Catalog.sameButFulltext_modifyTable fun t ht ↦
      Table.insertWithOptions_failed (hc table t ht) (Catalog.modifyTable_error ht h)
  | select table projection filter order limit =>
    rw [executeStatementWithOptions]
    split <;> exact .refl catalog
  | update table assignments filter =>
    exact Catalog.sameButFulltext_modifyTable fun t ht ↦
      Table.updateWithOptions_failed (hc table t ht) (Catalog.modifyTable_error ht h)
  | delete table filter =>
    exact Catalog.sameButFulltext_modifyTable fun t ht ↦
      Table.deleteWithOptions_failed (hc table t ht) (Catalog.modifyTable_error ht h)
  | _ => exact .refl catalog

namespace Database

/-- The committed catalog is the same, a transaction is still open, and its working catalog differs
at most in what its full-text indexes list. -/
def SameInTransaction (db db' : Database) (transaction : Catalog) : Prop :=
  db'.catalog = db.catalog ∧
    ∃ transaction', db'.transaction = some transaction' ∧ transaction.SameButFulltext transaction'

/-- A mutating statement goes to the working catalog of the open transaction. -/
theorem executeParsed_of_mutates {db : Database} {transaction : Catalog}
    (htx : db.transaction = some transaction) {statement : Statement}
    (hmutates : statement.mutatesCatalog = true) (outcome : Option Error) :
    db.executeParsed statement outcome =
      let (result, transaction) :=
        executeStatementWithOptions transaction statement (tableRuntimeOptions db.options)
      (result, { db with transaction := some transaction }) := by
  have hcatalog : db.executeParsed statement outcome =
      db.executeCatalogStatement statement outcome := by
    cases statement <;> first | rfl | cases hmutates
  rw [hcatalog, executeCatalogStatement, htx]

theorem executeParsed_failed {db : Database} (hall : db.All Table.Coherent)
    {transaction : Catalog} (htx : db.transaction = some transaction) {statement : Statement}
    (hmutates : statement.mutatesCatalog = true) {outcome : Option Error} {error : Error}
    (h : (db.executeParsed statement outcome).1 = .error error) :
    db.SameInTransaction (db.executeParsed statement outcome).2 transaction := by
  rw [executeParsed_of_mutates htx hmutates] at h ⊢
  exact ⟨rfl, _, rfl, executeStatement_failed (hall.2 transaction htx) h⟩

/-- A call fails before its statement, with its statement, or in the log records after it. -/
theorem execute_failed {db : Database} (hall : db.All Table.Coherent) {transaction : Catalog}
    (htx : db.transaction = some transaction) {sql : String} {statement : Statement}
    (hparse : (db.parseStatement sql).1 = .ok statement)
    (hmutates : statement.mutatesCatalog = true) {outcome : Outcome}
    (hlog : db.logAfter statement outcome.log = .ok ()) {fault : Fault}
    (h : (db.execute sql outcome).1 = .error fault) :
    db.SameInTransaction (db.execute sql outcome).2 transaction := by
  rcases hparsed : db.parseStatement sql with ⟨result, db'⟩
  have hsame : db' = { db with statementCache := db'.statementCache } := by
    have hsnd : (db.parseStatement sql).2 = db' := by rw [hparsed]
    rw [← hsnd]
    rfl
  rw [hparsed] at hparse
  obtain rfl : result = .ok statement := hparse
  have hall' : db'.All Table.Coherent := hsame ▸ hall
  have htx' : db'.transaction = some transaction := hsame ▸ htx
  have hcatalog : db'.catalog = db.catalog := by rw [hsame]
  rw [execute, hparsed] at h ⊢
  simp only at h ⊢
  cases hbefore : db'.logBefore statement outcome.log with
  | error error => exact ⟨hcatalog, transaction, htx', .refl transaction⟩
  | ok _ =>
    simp only [hbefore] at h
    rcases hexecuted : db'.executeParsed statement outcome.persist with ⟨result, db''⟩
    cases result with
    | error error =>
      have hfailed := executeParsed_failed hall' htx' hmutates (congrArg Prod.fst hexecuted)
      rw [hexecuted] at hfailed
      exact ⟨hfailed.1.trans hcatalog, hfailed.2⟩
    | ok result =>
      -- no record written after the statement fails, so the call has not failed
      have hafter : db''.logAfter statement outcome.log = .ok () := by
        have hoptions := options_executeParsed db' statement outcome.persist
        rw [hexecuted] at hoptions
        rw [logAfter, hoptions, hsame, ← logAfter]
        exact hlog
      simp only [hexecuted, hafter] at h
      cases h

/-- **A failed statement is atomic inside a transaction.**  Whatever a mutating statement fails
with, the committed catalog stays, and so do the tables, the definitions, the rows, the row ids and
the primary-key maps and secondary indexes of the working catalog. -/
theorem atomic_of_reachable {options : DatabaseOptions} {db : Database}
    (h : (machine options).Reachable db) {transaction : Catalog}
    (htx : db.transaction = some transaction) {statement : Statement}
    (hmutates : statement.mutatesCatalog = true) (outcome : Outcome) :
    (∀ error, (db.executeParsed statement outcome.persist).1 = .error error →
      db.SameInTransaction (db.executeParsed statement outcome.persist).2 transaction) ∧
    ∀ sql fault, (db.parseStatement sql).1 = .ok statement →
      db.logAfter statement outcome.log = .ok () → (db.execute sql outcome).1 = .error fault →
        db.SameInTransaction (db.execute sql outcome).2 transaction := by
  have hall := coherent_of_reachable h
  exact ⟨fun _ ↦ executeParsed_failed hall htx hmutates,
    fun _ _ hparse hlog ↦ execute_failed hall htx hparse hmutates hlog⟩

end Database

end Platform

namespace Database

/-- A table with two rows, and an open transaction. -/
abbrev twoRows : Database :=
  afterTexts ["CREATE TABLE t (a INT PRIMARY KEY)", "INSERT INTO t VALUES (1)",
    "INSERT INTO t VALUES (2)", "BEGIN"]

/-- An update that gives two rows one primary key. -/
theorem atomic_twoRows : ∃ transaction, twoRows.transaction = some transaction ∧
    (@execute Platform.ascii twoRows "UPDATE t SET a = 1" {}).1 =
      .error (.error (execution "duplicate primary key")) ∧
    twoRows.SameInTransaction (@execute Platform.ascii twoRows "UPDATE t SET a = 1" {}).2
      transaction := by
  have hopen : twoRows.transaction.isSome = true := by decide +kernel
  obtain ⟨transaction, htx⟩ := Option.isSome_iff_exists.mp hopen
  have hreachable : (@machine Platform.ascii {}).Reachable twoRows :=
    reachableVia_afterTexts _ (Machine.stepsSatisfy_true _ _)
  have hparse : (twoRows.parseStatement "UPDATE t SET a = 1").1 =
      .ok (.update "t" [("a", .integer 1)] none) := by decide +kernel
  have hlog : twoRows.logAfter (.update "t" [("a", .integer 1)] none) {} = .ok () := by
    decide +kernel
  have hfailed : (@execute Platform.ascii twoRows "UPDATE t SET a = 1" {}).1 =
      .error (.error (execution "duplicate primary key")) := by decide +kernel
  exact ⟨transaction, htx, hfailed,
    (@atomic_of_reachable Platform.ascii {} _ hreachable _ htx _ rfl {}).2 _ _ hparse hlog hfailed⟩

end Database

end Fsql
