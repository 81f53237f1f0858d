import Fsql.Storage.Matching

/-!
# Catalogs

`storage/catalog.rs`: the tables of a database by name.  `Catalog.version` is the row a catalog has
under a table and a row id, the unit in which transactions are compared.
-/

set_option autoImplicit false

namespace Fsql

/-- A catalog. -/
structure Catalog where
  /-- The tables by name. -/
  tables : BTreeMap String Table
deriving DecidableEq

namespace Catalog

/-- `Catalog::empty`. -/
def empty : Catalog := ⟨∅⟩

/-- The row of a table under a row id. -/
def version (catalog : Catalog) (table : String) (rowId : RowId) : Option Row :=
  catalog.tables[table]?.bind (·.rows[rowId]?)

/-- `catalog.tables.get_mut(&name)` and what is done with the table. -/
def modifyTable {α : Type} (catalog : Catalog) (name : String)
    (f : Table → Result α × Table) : Result α × Catalog :=
  match catalog.tables[name]? with
  | none => (.error (execution "unknown table"), catalog)
  | some table => ((f table).1, ⟨catalog.tables.insert name (f table).2⟩)

/-- Every table of the catalog satisfies a predicate. -/
def All (P : Table → Prop) (catalog : Catalog) : Prop :=
  ∀ (name : String) (table : Table), catalog.tables[name]? = some table → P table

/-- **The invariant of a catalog.** -/
abbrev Coherent (catalog : Catalog) : Prop := catalog.All Table.Coherent

theorem all_empty (P : Table → Prop) : empty.All P := by
  intro name table h
  simp [empty] at h

theorem All.insert {P : Table → Prop} {catalog : Catalog} (h : catalog.All P) (name : String)
    {table : Table} (ht : P table) : All P ⟨catalog.tables.insert name table⟩ := by
  intro n t hn
  rw [BTree.getElem?_insert] at hn
  split at hn
  · exact Option.some.inj hn ▸ ht
  · exact h n t hn

/-- What preserves a predicate of one table preserves it of all. -/
theorem All.modifyTable {α : Type} {P : Table → Prop} {catalog : Catalog} (h : catalog.All P)
    {name : String} {f : Table → Result α × Table}
    (hf : ∀ table, catalog.tables[name]? = some table → P table → P (f table).2) :
    (catalog.modifyTable name f).2.All P := by
  rw [Catalog.modifyTable]
  split
  · exact h
  · rename_i table htable
    exact h.insert name (hf table htable (h name table htable))

theorem modifyTable_self {α : Type} {catalog : Catalog} {name : String} {table : Table}
    (f : Table → Result α × Table) (h : catalog.tables[name]? = some table) :
    catalog.modifyTable name f = ((f table).1, ⟨catalog.tables.insert name (f table).2⟩) := by
  rw [modifyTable, h]

end Catalog

end Fsql
