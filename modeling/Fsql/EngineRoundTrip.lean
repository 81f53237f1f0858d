import Fsql.EngineInvariant
import Fsql.Storage.RoundTrip

/-!
# Every catalog can be read back

The catalogs of a database can be written to a file and read back (`Catalog.Storable`), because no
statement changes the declarations of a table once it is created (`executeStatement_tables`).
-/

set_option autoImplicit false

namespace Fsql

/-- **A change of a table that keeps its declarations**, and no row id is given back. -/
structure Table.KeepsDeclarations (t t' : Table) : Prop where
  name : t'.name = t.name
  columns : t'.columns = t.columns
  primaryKey : t'.primaryKey = t.primaryKey
  nextRowId : t.nextRowId ≤ t'.nextRowId

namespace Table

theorem KeepsDeclarations.refl (t : Table) : t.KeepsDeclarations t :=
  ⟨rfl, rfl, rfl, Nat.le_refl _⟩

theorem SameData.keepsDeclarations {t changed t' : Table} (h : changed.SameData t')
    (hchanged : t.KeepsDeclarations changed) : t.KeepsDeclarations t' :=
  ⟨h.name.trans hchanged.name, h.columns.trans hchanged.columns,
    h.primaryKey.trans hchanged.primaryKey, h.nextRowId ▸ hchanged.nextRowId⟩

theorem KeepsDeclarations.declared {t t' : Table} (h : t.KeepsDeclarations t') (hd : t.Declared) :
    t'.Declared :=
  ⟨h.columns ▸ hd.columns_nodup, by rw [h.columns, h.primaryKey]; exact hd.primaryKey_eq,
    Nat.lt_of_lt_of_le hd.nextRowId_pos h.nextRowId⟩

/-- A new table is declared as `CREATE TABLE` checks it. -/
theorem declared_new {name : String} {columns : List Column} {t : Table}
    (h : Table.new name columns = .ok t) : t.name = name ∧ t.Declared := by
  rw [Table.new] at h
  rcases hcheck : checkColumns columns ∅ none with error | primaryKey
  · simp [hcheck, bind, Except.bind] at h
  · obtain ⟨hnodup, -, hprimary⟩ := checkColumns_eq_ok hcheck
    simp only [hcheck, bind, Except.bind, pure, Except.pure, Except.ok.injEq] at h
    subst h
    exact ⟨rfl, hnodup, hprimary, Nat.one_pos⟩

end Table

section Platform

variable [Platform] {options : TableRuntimeOptions}

namespace Table

theorem insertWithOptions_keeps {t : Table} (hc : t.Coherent) (columns : Option (List String))
    (values : List Value) :
    t.KeepsDeclarations (t.insertWithOptions columns values options).2 := by
  rcases hrow : t.insertRow columns values options with error | row
  · rw [insertWithOptions_error hrow]
    exact .refl t
  · obtain ⟨t', heq, -, hdata⟩ := insertWithOptions_ok hc hrow
    rw [heq]
    exact hdata.keepsDeclarations ⟨rfl, rfl, rfl, Nat.le_succ _⟩

theorem updateWithOptions_keeps {t : Table} (hc : t.Coherent) (assignments : List (String × Value))
    (filter : Option Filter) :
    t.KeepsDeclarations (t.updateWithOptions assignments filter options).2 := by
  rcases updateWithOptions_cases hc assignments filter options with
    ⟨_, -, heq⟩ | ⟨_, _, _, -, -, ⟨-, hdata, heq⟩ | ⟨-, hdata, _, heq⟩⟩
  · rw [heq]
    exact .refl t
  · rw [heq]
    exact hdata.keepsDeclarations ⟨rfl, rfl, rfl, Nat.le_refl _⟩
  · rw [heq]
    exact hdata.keepsDeclarations (.refl t)

theorem deleteWithOptions_keeps {t : Table} (hc : t.Coherent) (filter : Option Filter) :
    t.KeepsDeclarations (t.deleteWithOptions filter options).2 := by
  rcases deleteWithOptions_cases hc filter options with
    ⟨_, -, heq⟩ | ⟨_, _, -, -, hdata, heq⟩
  · rw [heq]
    exact .refl t
  · rw [heq]
    exact hdata.keepsDeclarations ⟨rfl, rfl, rfl, Nat.le_refl _⟩

theorem createAnyIndex_keeps {t : Table} (hc : t.Coherent) (name column : String)
    (fulltext : Bool) :
    t.KeepsDeclarations (t.createAnyIndex name column fulltext options).2 := by
  rw [createAnyIndex]
  split
  · rcases createFulltextIndexWithOptions_cases hc name column options with
      ⟨_, heq⟩ | ⟨_, _, -, -, -, -, -, hdata, heq⟩
    · rw [heq]
      exact .refl t
    · rw [heq]
      exact hdata.keepsDeclarations ⟨rfl, rfl, rfl, Nat.le_refl _⟩
  · rcases createIndex_cases hc name column with ⟨_, heq⟩ | ⟨_, _, -, -, -, -, hdata, heq⟩
    · rw [heq]
      exact .refl t
    · rw [heq]
      exact hdata.keepsDeclarations ⟨rfl, rfl, rfl, Nat.le_refl _⟩

end Table

omit [Platform] in
/-- A table of a catalog one table of which has been modified. -/
theorem Catalog.getElem?_modifyTable {α : Type} {catalog : Catalog} {table name : String}
    {f : Table → Result α × Table} {t' : Table}
    (h : (catalog.modifyTable table f).2.tables[name]? = some t') :
    ∃ t, catalog.tables[name]? = some t ∧ (t' = t ∨ table = name ∧ t' = (f t).2) := by
  rcases htable : catalog.tables[table]? with _ | t
  · rw [modifyTable, htable] at h
    exact ⟨t', h, .inl rfl⟩
  · rw [modifyTable_self f htable, BTree.getElem?_insert] at h
    split at h
    · rename_i heq
      subst heq
      exact ⟨t, htable, .inr ⟨rfl, (Option.some.inj h).symm⟩⟩
    · exact ⟨t', h, .inl rfl⟩

/-- **The tables of a catalog after a statement** are the ones it had, with the same declarations,
and a new one. -/
theorem executeStatement_tables {catalog : Catalog} (hc : catalog.Coherent) (statement : Statement)
    {name : String} {t' : Table}
    (h : (executeStatementWithOptions catalog statement options).2.tables[name]? = some t') :
    (∃ columns, Table.new name columns = .ok t') ∨
      ∃ t, catalog.tables[name]? = some t ∧ t.KeepsDeclarations t' := by
  have hsame (h : catalog.tables[name]? = some t') :
      (∃ columns, Table.new name columns = .ok t') ∨
        ∃ t, catalog.tables[name]? = some t ∧ t.KeepsDeclarations t' :=
    .inr ⟨t', h, .refl t'⟩
  have hmodify {α : Type} {table : String} {f : Table → Result α × Table}
      (hf : ∀ t : Table, t.Coherent → t.KeepsDeclarations (f t).2)
      (h : (catalog.modifyTable table f).2.tables[name]? = some t') :
      (∃ columns, Table.new name columns = .ok t') ∨
        ∃ t, catalog.tables[name]? = some t ∧ t.KeepsDeclarations t' := by
    obtain ⟨t, ht, rfl | ⟨-, rfl⟩⟩ := Catalog.getElem?_modifyTable h
    · exact .inr ⟨t', ht, .refl t'⟩
    · exact .inr ⟨t, ht, hf t (hc name t ht)⟩
  cases statement with
  | createTable table columns =>
    rw [executeStatementWithOptions] at h
    split at h
    · exact hsame h
    · split at h
      · exact hsame h
      · rename_i t hnew
        rw [BTree.getElem?_insert] at h
        split at h
        · rename_i heq
          subst heq
          exact .inl ⟨columns, Option.some.inj h ▸ hnew⟩
        · exact hsame h
  | createIndex index table column fulltext =>
    exact hmodify (fun t ht ↦ t.createAnyIndex_keeps ht index column fulltext) h
  | insert table columns values =>
    exact hmodify (fun t ht ↦ t.insertWithOptions_keeps ht columns values) h
  | select table projection filter order limit =>
    rw [executeStatementWithOptions] at h
    split at h <;> exact hsame h
  | update table assignments filter =>
    exact hmodify (fun t ht ↦ t.updateWithOptions_keeps ht assignments filter) h
  | delete table filter => exact hmodify (fun t ht ↦ t.deleteWithOptions_keeps ht filter) h
  | _ => exact hsame h

/-- **A catalog that can be written and read back.** -/
structure Catalog.Storable (catalog : Catalog) : Prop where
  /-- Tables have the names they are stored under. -/
  named : catalog.Named
  /-- Their derived maps are those of the rows. -/
  coherent : catalog.Coherent
  /-- Their declarations fit together. -/
  declared : catalog.All Table.Declared

omit [Platform] in
theorem Catalog.storable_empty : Catalog.Storable .empty :=
  ⟨fun name t h ↦ by simp [Catalog.empty] at h, Catalog.all_empty _, Catalog.all_empty _⟩

/-- Every statement leaves a catalog that can be written and read back. -/
theorem executeStatement_storable {catalog : Catalog} (h : catalog.Storable)
    (statement : Statement) :
    (executeStatementWithOptions catalog statement options).2.Storable := by
  refine ⟨fun name t' ht' ↦ ?_, executeStatement_coherent h.coherent statement,
    fun name t' ht' ↦ ?_⟩
  · rcases executeStatement_tables h.coherent statement ht' with ⟨_, hnew⟩ | ⟨t, ht, hkeeps⟩
    · exact (Table.declared_new hnew).1
    · exact hkeeps.name.trans (h.named name t ht)
  · rcases executeStatement_tables h.coherent statement ht' with ⟨_, hnew⟩ | ⟨t, ht, hkeeps⟩
    · exact (Table.declared_new hnew).2
    · exact hkeeps.declared (h.declared name t ht)

/-- What is read back can be written and read back again. -/
theorem Catalog.Reopened.storable {tokenizer : FullTextTokenizer} {c c' : Catalog}
    (h : c.Reopened tokenizer c') (hc : c.Storable) : c'.Storable := by
  have key (name : String) (t' : Table) (ht' : c'.tables[name]? = some t') :
      ∃ t, c.tables[name]? = some t ∧ t.Reopened tokenizer t' := by
    have hname := h name
    rw [ht'] at hname
    rcases ht : c.tables[name]? with _ | t
    · rw [ht] at hname
      cases hname
    · rw [ht] at hname
      rcases hname with ⟨hreopened⟩
      exact ⟨t, rfl, hreopened⟩
  refine ⟨fun name t' ht' ↦ ?_, fun name t' ht' ↦ ?_, fun name t' ht' ↦ ?_⟩
  · obtain ⟨t, ht, hreopened⟩ := key name t' ht'
    exact hreopened.same.data.name.trans (hc.named name t ht)
  · obtain ⟨t, ht, hreopened⟩ := key name t' ht'
    exact hreopened.coherent
  · obtain ⟨t, ht, hreopened⟩ := key name t' ht'
    have hd := hc.declared name t ht
    refine ⟨hreopened.same.data.columns ▸ hd.columns_nodup, ?_, ?_⟩
    · rw [hreopened.same.data.columns, hreopened.same.data.primaryKey]
      exact hd.primaryKey_eq
    · rcases hreopened.nextRowId with ⟨-, heq⟩ | ⟨rowId, -, heq, -⟩
      · exact heq ▸ Nat.one_pos
      · exact heq ▸ Nat.succ_pos rowId

namespace Database

variable {options : DatabaseOptions}

theorem storable_of_reachable {db : Database} (h : (fresh options).Reachable db) :
    db.options = options ∧ db.Holds Catalog.Storable :=
  holds_of_fresh Catalog.storable_empty (fun _ _ _ _ statement _ hc ↦
    executeStatement_storable hc statement) h

/-- **Every catalog of every state is read back from what is written of it.** -/
theorem decode_encode_of_reachable {db : Database} (h : (fresh options).Reachable db) :
    ∀ catalog ∈ db.catalog :: db.transaction.toList,
      ∃ catalog', Catalog.decodeWithOptions catalog.encode (tableRuntimeOptions options) =
          .ok catalog' ∧
        catalog.Reopened options.fulltextTokenizer catalog' := by
  obtain ⟨-, hcatalog, htransaction⟩ := storable_of_reachable h
  intro catalog hmem
  have hstorable : catalog.Storable := by
    rcases List.mem_cons.mp hmem with rfl | hmem
    · exact hcatalog
    · exact htransaction catalog (Option.mem_toList.mp hmem)
  exact Catalog.decode_encode hstorable.named hstorable.coherent hstorable.declared _

end Database

end Platform

namespace Database

/-- The database that has executed some texts, from an empty one in memory. -/
def freshTexts (texts : List String) : Database :=
  ((@fresh Platform.ascii {}).runFrom ⟨none, .empty, none, {}, ∅⟩ (texts.map (·, {}))).getD
    ⟨none, .empty, none, {}, ∅⟩

theorem reachable_freshTexts (texts : List String) :
    (@fresh Platform.ascii {}).Reachable (freshTexts texts) := by
  have hinit : (@fresh Platform.ascii {}).Reachable ⟨none, .empty, none, {}, ∅⟩ :=
    .init ⟨by decide, none, rfl⟩
  rw [freshTexts]
  rcases hrun : (@fresh Platform.ascii {}).runFrom ⟨none, .empty, none, {}, ∅⟩ (texts.map (·, {}))
    with _ | db
  · exact hinit
  · exact Machine.reachableVia_of_runFrom hinit (Machine.stepsSatisfy_true _ _) hrun

/-- A primary key, a full-text index and an empty text, read back. -/
theorem decode_encode_freshTexts :
    (freshTexts ["CREATE TABLE t (a INT PRIMARY KEY, b TEXT)",
        "CREATE FULLTEXT INDEX f ON t (b)", "INSERT INTO t VALUES (2, '')"]).catalog.encode =
        "FSQ1\nTABLE\t74\nCOLUMN\t61\tinteger\t1\nCOLUMN\t62\ttext\t0\nFTS\t66\t62\n" ++
          "ROW\t1\t61=I:2\t62=T:\nENDTABLE\n" ∧
      ∃ catalog', @Catalog.decodeWithOptions Platform.ascii
          (freshTexts ["CREATE TABLE t (a INT PRIMARY KEY, b TEXT)",
            "CREATE FULLTEXT INDEX f ON t (b)", "INSERT INTO t VALUES (2, '')"]).catalog.encode
          (tableRuntimeOptions {}) = .ok catalog' ∧
        @Catalog.Reopened Platform.ascii .simple
          (freshTexts ["CREATE TABLE t (a INT PRIMARY KEY, b TEXT)",
            "CREATE FULLTEXT INDEX f ON t (b)", "INSERT INTO t VALUES (2, '')"]).catalog catalog' :=
  ⟨by decide +kernel, @decode_encode_of_reachable Platform.ascii {} _ (reachable_freshTexts _) _
    List.mem_cons_self⟩

end Database

end Fsql
