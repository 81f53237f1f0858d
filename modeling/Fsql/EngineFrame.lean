import Fsql.EngineInvariant

/-!
# What a statement can change

`touchedRows` lists the rows a statement can change on a catalog: those its filter matches, or the
one it inserts.  `executeStatement_changes` says that nothing else changes: every other row of every
table stays (`Catalog.Changes.version`), no table disappears, and no row id is used up but that of
the inserted row.
-/

set_option autoImplicit false

namespace Fsql

/-- The rows a statement can change. -/
def touchedRows [Platform] (catalog : Catalog) (statement : Statement)
    (options : TableRuntimeOptions) : List (String × RowId) :=
  match statement with
  | .update table _ filter | .delete table filter =>
    match catalog.tables[table]? with
    | none => []
    | some t =>
      match t.matchingRowIdsForLock filter options with
      | .error _ => []
      | .ok rowIds => rowIds.map (table, ·)
  | .insert table _ _ =>
    match catalog.tables[table]? with
    | none => []
    | some t => [(table, t.nextRowId)]
  | _ => []

/-- A table under some name changes at most at the touched rows. -/
structure Table.Changes (touched : List (String × RowId)) (name : String) (t t' : Table) :
    Prop where
  /-- The other rows stay. -/
  rows (rowId : RowId) : (name, rowId) ∉ touched → t'.rows[rowId]? = t.rows[rowId]?
  /-- Row ids are used up, never given back. -/
  le : t.nextRowId ≤ t'.nextRowId
  /-- Only those of touched rows are used up. -/
  new (rowId : RowId) : t.nextRowId ≤ rowId → rowId < t'.nextRowId → (name, rowId) ∈ touched

/-- A catalog changes at most at the touched rows, and by new tables if the schema may change. -/
structure Catalog.Changes (touched : List (String × RowId)) (ddl : Bool) (c c' : Catalog) :
    Prop where
  /-- No table disappears. -/
  kept (name : String) (t : Table) : c.tables[name]? = some t →
    ∃ t', c'.tables[name]? = some t' ∧ t.Changes touched name t'
  /-- A new table is empty. -/
  added (name : String) (t' : Table) : c.tables[name]? = none → c'.tables[name]? = some t' →
    ddl = true ∧ t'.rows = ∅ ∧ t'.nextRowId = 1

theorem Table.Changes.refl (touched : List (String × RowId)) (name : String) (t : Table) :
    t.Changes touched name t :=
  ⟨fun _ _ ↦ rfl, le_refl _, fun _ hle hlt ↦ absurd hlt (Nat.not_lt.mpr hle)⟩

/-- A table changes at the touched rows only if its rows do. -/
theorem Table.SameData.changes {touched : List (String × RowId)} {name : String} {t t' : Table}
    (h : t.SameData t') : t.Changes touched name t' := by
  refine ⟨fun rowId _ ↦ by rw [h.rows], h.nextRowId ▸ le_refl _, fun rowId hle hlt ↦ ?_⟩
  rw [h.nextRowId] at hlt
  exact absurd hlt (Nat.not_lt.mpr hle)

theorem Catalog.Changes.refl (touched : List (String × RowId)) (ddl : Bool) (c : Catalog) :
    c.Changes touched ddl c := by
  refine ⟨fun name t ht ↦ ⟨t, ht, Table.Changes.refl touched name t⟩, fun name t' hnone ht' ↦ ?_⟩
  rw [hnone] at ht'
  cases ht'

/-- **The other rows stay.** -/
theorem Catalog.Changes.version {touched : List (String × RowId)} {ddl : Bool} {c c' : Catalog}
    (h : c.Changes touched ddl c') {name : String} {rowId : RowId}
    (hrow : (name, rowId) ∉ touched) : c'.version name rowId = c.version name rowId := by
  rw [Catalog.version, Catalog.version]
  cases ht : c.tables[name]? with
  | none =>
    cases ht' : c'.tables[name]? with
    | none => rfl
    | some t' => simp [(h.added name t' ht ht').2.1]
  | some t =>
    obtain ⟨t', ht', hchanges⟩ := h.kept name t ht
    rw [ht']
    exact hchanges.rows rowId hrow

/-- What is done to one table changes the catalog where it changes the table. -/
theorem Catalog.changes_modifyTable {α : Type} {touched : List (String × RowId)} (ddl : Bool)
    {c : Catalog} {name : String} {f : Table → Result α × Table}
    (h : ∀ t, c.tables[name]? = some t → t.Changes touched name (f t).2) :
    c.Changes touched ddl (c.modifyTable name f).2 := by
  cases ht : c.tables[name]? with
  | none =>
    rw [modifyTable, ht]
    exact Changes.refl touched ddl c
  | some t =>
    rw [modifyTable_self f ht]
    refine ⟨fun n u hu ↦ ?_, fun n u hnone hu ↦ ?_⟩
    · rw [BTree.getElem?_insert]
      split
      · rename_i hn
        subst hn
        obtain rfl := Option.some.inj (ht.symm.trans hu)
        exact ⟨_, rfl, h t ht⟩
      · exact ⟨u, hu, Table.Changes.refl touched n u⟩
    · rw [BTree.getElem?_insert] at hu
      split at hu
      · rename_i hn
        subst hn
        rw [ht] at hnone
        cases hnone
      · rw [hnone] at hu
        cases hu

section Platform

variable [Platform] {options : TableRuntimeOptions}

namespace Table

theorem insertWithOptions_changes {t : Table} (hc : t.Coherent) (name : String)
    (columns : Option (List String)) (values : List Value) :
    t.Changes [(name, t.nextRowId)] name (t.insertWithOptions columns values options).2 := by
  cases hrow : t.insertRow columns values options with
  | error error =>
    rw [insertWithOptions_error hrow]
    exact Changes.refl _ name t
  | ok row =>
    obtain ⟨t', heq, -, hdata⟩ := insertWithOptions_ok hc hrow
    rw [heq]
    refine ⟨fun rowId hne ↦ ?_, ?_, fun rowId hle hlt ↦ ?_⟩
    · rw [hdata.rows, stored, BTree.getElem?_insert, if_neg]
      rintro rfl
      exact hne List.mem_cons_self
    · rw [hdata.nextRowId]
      exact Nat.le_succ t.nextRowId
    · rw [hdata.nextRowId] at hlt
      have : rowId = t.nextRowId := Nat.le_antisymm (Nat.lt_succ_iff.mp hlt) hle
      rw [this]
      exact List.mem_cons_self

theorem updateWithOptions_changes {t : Table} (hc : t.Coherent) (name : String)
    (assignments : List (String × Value)) (filter : Option Filter) {touched : List (String × RowId)}
    (h : ∀ rowIds, t.matchingRowIdsForLock filter options = .ok rowIds →
      touched = rowIds.map (name, ·)) :
    t.Changes touched name (t.updateWithOptions assignments filter options).2 := by
  rcases updateWithOptions_cases hc assignments filter options with
    ⟨error, -, heq⟩ | ⟨rowIds, normalized, t', hplan, -, hresult⟩
  · rw [heq]
    exact Changes.refl touched name t
  · rcases hresult with ⟨-, hdata, heq⟩ | ⟨-, hdata, error, heq⟩
    · rw [heq]
      obtain rfl := h rowIds (updatePlan_eq_ok hplan).1
      refine ⟨fun rowId hne ↦ ?_, hdata.nextRowId ▸ le_refl _, fun rowId hle hlt ↦ ?_⟩
      · rw [hdata.rows, assigned, getElem?_assignRows, if_neg]
        exact fun hmem ↦ hne (List.mem_map_of_mem hmem)
      · rw [hdata.nextRowId] at hlt
        exact absurd hlt (Nat.not_lt.mpr hle)
    · rw [heq]
      exact hdata.changes

theorem deleteWithOptions_changes {t : Table} (hc : t.Coherent) (name : String)
    (filter : Option Filter) {touched : List (String × RowId)}
    (h : ∀ rowIds, t.matchingRowIdsForLock filter options = .ok rowIds →
      touched = rowIds.map (name, ·)) :
    t.Changes touched name (t.deleteWithOptions filter options).2 := by
  rcases deleteWithOptions_cases hc filter options with
    ⟨error, -, heq⟩ | ⟨rowIds, t', hmatch, -, hdata, heq⟩
  · rw [heq]
    exact Changes.refl touched name t
  · rw [heq]
    obtain rfl := h rowIds hmatch
    refine ⟨fun rowId hne ↦ ?_, hdata.nextRowId ▸ le_refl _, fun rowId hle hlt ↦ ?_⟩
    · rw [hdata.rows, getElem?_erased, if_neg]
      exact fun hmem ↦ hne (List.mem_map_of_mem hmem)
    · rw [hdata.nextRowId] at hlt
      exact absurd hlt (Nat.not_lt.mpr hle)

theorem Coherent.createAnyIndex_changes {t : Table} (hc : t.Coherent)
    (touched : List (String × RowId)) (tableName name column : String) (fulltext : Bool) :
    t.Changes touched tableName (t.createAnyIndex name column fulltext options).2 := by
  rw [Table.createAnyIndex]
  split
  · rcases createFulltextIndexWithOptions_cases hc name column options with
      ⟨error, heq⟩ | ⟨_, t', -, -, -, -, -, hdata, heq⟩
    · rw [heq]
      exact Changes.refl touched tableName t
    · rw [heq]
      exact ⟨fun rowId _ ↦ by rw [hdata.rows], hdata.nextRowId ▸ le_refl _,
        fun rowId hle hlt ↦ absurd (hdata.nextRowId ▸ hlt) (Nat.not_lt.mpr hle)⟩
  · rcases createIndex_cases hc name column with
      ⟨error, heq⟩ | ⟨_, t', -, -, -, -, hdata, heq⟩
    · rw [heq]
      exact Changes.refl touched tableName t
    · rw [heq]
      exact ⟨fun rowId _ ↦ by rw [hdata.rows], hdata.nextRowId ▸ le_refl _,
        fun rowId hle hlt ↦ absurd (hdata.nextRowId ▸ hlt) (Nat.not_lt.mpr hle)⟩

end Table

/-- The rows a filter touches. -/
theorem touchedRows_eq {catalog : Catalog} {table : String} {t : Table}
    (ht : catalog.tables[table]? = some t) {filter : Option Filter} {statement : Statement}
    (h : statement = .delete table filter ∨ ∃ assignments,
      statement = .update table assignments filter) (rowIds : List RowId)
    (hmatch : t.matchingRowIdsForLock filter options = .ok rowIds) :
    touchedRows catalog statement options = rowIds.map (table, ·) := by
  rcases h with rfl | ⟨assignments, rfl⟩ <;> simp only [touchedRows, ht, hmatch]

/-- The rows a filter finds are there. -/
theorem version_of_matching {catalog : Catalog} (hc : catalog.Coherent) {table : String} {t : Table}
    (ht : catalog.tables[table]? = some t) {filter : Option Filter} {options : TableRuntimeOptions}
    {rowIds : List RowId} (hmatch : t.matchingRowIdsForLock filter options = .ok rowIds)
    {rowId : RowId} (hmem : rowId ∈ rowIds) : ∃ row, catalog.version table rowId = some row := by
  obtain ⟨row, hrow⟩ := Table.matchingRowIdsForLock_mem (hc table t ht) hmatch hmem
  exact ⟨row, by rw [Catalog.version, ht, Option.bind_some, hrow]⟩

/-- The rows a statement touches are there, or it inserts them. -/
theorem version_of_touchedRows {catalog : Catalog} (hc : catalog.Coherent) {statement : Statement}
    {options : TableRuntimeOptions} {table : String} {rowId : RowId}
    (h : (table, rowId) ∈ touchedRows catalog statement options) :
    (∃ row, catalog.version table rowId = some row) ∨
      ∃ columns values t, statement = .insert table columns values ∧
        catalog.tables[table]? = some t ∧ rowId = t.nextRowId := by
  have hrows (name : String) (filter : Option Filter)
      (h : (table, rowId) ∈ touchedRows catalog (.delete name filter) options) :
      ∃ row, catalog.version table rowId = some row := by
    rw [touchedRows] at h
    split at h
    · cases h
    · rename_i t ht
      split at h
      · cases h
      · rename_i rowIds hmatch
        obtain ⟨rowId', hmem, heq⟩ := List.mem_map.mp h
        obtain ⟨rfl, rfl⟩ := Prod.mk.inj heq
        exact version_of_matching hc ht hmatch hmem
  cases statement with
  | update name assignments filter => exact .inl (hrows name filter h)
  | delete name filter => exact .inl (hrows name filter h)
  | insert name columns values =>
    rw [touchedRows] at h
    split at h
    · cases h
    · rename_i t ht
      obtain ⟨rfl, rfl⟩ := Prod.mk.inj (List.mem_singleton.mp h)
      exact .inr ⟨columns, values, t, rfl, ht, rfl⟩
  | _ => cases h

/-- **A statement changes nothing but the rows it touches.** -/
theorem executeStatement_changes {catalog : Catalog} (h : catalog.Coherent)
    (statement : Statement) :
    catalog.Changes (touchedRows catalog statement options) statement.isDdl
      (executeStatementWithOptions catalog statement options).2 := by
  cases statement with
  | createTable name columns =>
    rw [executeStatementWithOptions]
    split
    · exact Catalog.Changes.refl _ _ catalog
    · rename_i hnew
      split
      · exact Catalog.Changes.refl _ _ catalog
      · rename_i t ht
        rw [Std.ExtTreeMap.mem_iff_isSome_getElem?, Option.not_isSome_iff_eq_none] at hnew
        refine ⟨fun n u hu ↦ ⟨u, ?_, Table.Changes.refl _ n u⟩, fun n u hnone hu ↦ ⟨rfl, ?_⟩⟩
        · rw [BTree.getElem?_insert, if_neg]
          · exact hu
          · rintro rfl
            rw [hnew] at hu
            cases hu
        · rw [BTree.getElem?_insert] at hu
          split at hu
          · exact Option.some.inj hu ▸ (Table.coherent_new ht).2
          · rw [hnone] at hu
            cases hu
  | createIndex name table column fulltext =>
    exact Catalog.changes_modifyTable true fun t ht ↦
      (h table t ht).createAnyIndex_changes _ table name column fulltext
  | insert table columns values =>
    have hinsert (t : Table) (ht : catalog.tables[table]? = some t) :
        t.Changes (touchedRows catalog (.insert table columns values) options) table
          (t.insertWithOptions columns values options).2 := by
      rw [touchedRows, ht]
      exact Table.insertWithOptions_changes (h table t ht) table columns values
    exact Catalog.changes_modifyTable false hinsert
  | select table projection filter order limit =>
    rw [executeStatementWithOptions]
    split <;> exact Catalog.Changes.refl _ _ catalog
  | update table assignments filter =>
    have hupdate (t : Table) (ht : catalog.tables[table]? = some t) :
        t.Changes (touchedRows catalog (.update table assignments filter) options) table
          (t.updateWithOptions assignments filter options).2 :=
      Table.updateWithOptions_changes (h table t ht) table assignments filter
        (touchedRows_eq ht (.inr ⟨assignments, rfl⟩))
    exact Catalog.changes_modifyTable false hupdate
  | delete table filter =>
    have hdelete (t : Table) (ht : catalog.tables[table]? = some t) :
        t.Changes (touchedRows catalog (.delete table filter) options) table
          (t.deleteWithOptions filter options).2 :=
      Table.deleteWithOptions_changes (h table t ht) table filter (touchedRows_eq ht (.inl rfl))
    exact Catalog.changes_modifyTable false hdelete
  | _ => exact Catalog.Changes.refl _ _ catalog

end Platform

end Fsql
