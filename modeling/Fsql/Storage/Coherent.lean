import Fsql.Storage.Rebuild

/-!
# Coherent tables

`Table.Coherent` is the invariant of a table that does not depend on the options it is used with:
row ids are below the next one, stored values are finite, primary keys are distinct, and the
primary-key map and the secondary indexes are those of the rows.  Of a full-text index it asks only
that the ids it lists are ids of rows, since what stands under which token depends on a tokenizer.

Each mutation has one lemma that says everything it can do to a coherent table:
`insertWithOptions_ok` (and `insertWithOptions_error`), `updateWithOptions_cases`,
`deleteWithOptions_cases`, `createIndex_cases`, `createFulltextIndexWithOptions_cases`.  In all of
them the table that comes out is coherent, whether the mutation succeeds or not, and is described
up to its derived maps, which coherence determines.
-/

set_option autoImplicit false

namespace Fsql

open DerivedIndex

/-- The values a column of a type may store. -/
def Value.HasType (options : TableRuntimeOptions) : ColumnType → Value → Prop
  | _, .null => True
  | .integer, .integer _ => True
  | .float, .float x => x.isFinite = true
  | .boolean, .boolean _ => True
  | .text, .text _ => True
  | .vector, .vector xs =>
    xs.all F32.isFinite = true ∧ ∀ n, options.vectorIndex.dimensions = some n → xs.length = n
  | .point, .point p => p.isFinite = true
  | _, _ => False

theorem Value.HasType.isFinite {options : TableRuntimeOptions} {ty : ColumnType} {value : Value}
    (h : value.HasType options ty) : value.isFinite = true := by
  cases value with
  | float x => cases ty <;> first | exact h | exact h.elim
  | vector xs => cases ty <;> first | exact h.1 | exact h.elim
  | point p => cases ty <;> first | exact h | exact h.elim
  | _ => rfl

namespace Table

/-- **The invariant of a table.** -/
structure Coherent (t : Table) : Prop where
  /-- Row ids are below the next one. -/
  rowId_lt (rowId : RowId) (row : Row) : t.rows[rowId]? = some row → rowId < t.nextRowId
  /-- Stored values are finite. -/
  finite (rowId : RowId) (row : Row) : t.rows[rowId]? = some row →
    ∀ (column : String) (value : Value), row[column]? = some value → value.isFinite = true
  /-- Primary keys are present and distinct. -/
  keys : t.KeysOk
  /-- The primary-key map sends each key to its row. -/
  primary : UniqueIndex (primaryKeyOf t.primaryKey) t.rows t.primary
  /-- A secondary index lists under each key the rows that have it. -/
  indexes (n : String) (index : Index) :
    t.indexes[n]? = some index → Inverts (columnKeys index.column) t.rows index.map
  /-- A full-text index lists ids of rows. -/
  fulltextIndexes (n : String) (index : Index) : t.fulltextIndexes[n]? = some index →
    ∀ token rowId, rowId ∈ index.map.lookup token → ∃ row, t.rows[rowId]? = some row

theorem Coherent.indexesFinite {t : Table} (h : t.Coherent) : t.IndexesFinite :=
  fun _ _ _ _ _ hrow value hvalue ↦ h.finite _ _ hrow _ value hvalue

theorem SameData.keysOk {t t' : Table} (h : t.SameData t') : t'.KeysOk ↔ t.KeysOk := by
  rw [KeysOk, KeysOk, h.primaryKey, h.rows]

section Platform

variable [Platform]

/-- **Rebuilding makes a table coherent** as soon as its rows can be those of a coherent table. -/
theorem rebuild_coherent {t : Table}
    (hlt : ∀ (rowId : RowId) (row : Row), t.rows[rowId]? = some row → rowId < t.nextRowId)
    (hfinite : ∀ (rowId : RowId) (row : Row), t.rows[rowId]? = some row →
      ∀ (column : String) (value : Value), row[column]? = some value → value.isFinite = true)
    (hkeys : t.KeysOk) (options : TableRuntimeOptions) :
    (t.rebuildIndexesWithOptions options).1 = .ok () ∧
      (t.rebuildIndexesWithOptions options).2.Coherent := by
  have hok : (t.rebuildIndexesWithOptions options).1 = .ok () := (t.rebuild_ok_iff options).mpr
    ⟨hkeys, fun _ _ _ _ _ hrow value hvalue ↦ hfinite _ _ hrow _ value hvalue⟩
  have hdata := t.rebuild_sameData options
  obtain ⟨hprimary, hindexes, hfulltext⟩ := rebuild_exact hok
  refine ⟨hok, ⟨?_, ?_, hdata.keysOk.mpr hkeys, hprimary, hindexes, ?_⟩⟩
  · rw [hdata.rows, hdata.nextRowId]
    exact hlt
  · rw [hdata.rows]
    exact hfinite
  · intro n index hindex token rowId hmem
    obtain ⟨row, hrow, -⟩ := ((hfulltext n index hindex).mem_lookup token rowId).mp hmem
    exact ⟨row, hrow⟩

/-- A coherent table can be rebuilt, and is coherent afterwards. -/
theorem Coherent.rebuild {t : Table} (h : t.Coherent) (options : TableRuntimeOptions) :
    (t.rebuildIndexesWithOptions options).1 = .ok () ∧
      (t.rebuildIndexesWithOptions options).2.Coherent :=
  rebuild_coherent h.rowId_lt h.finite h.keys options

/-- A table with the data of a coherent one can be rebuilt, and is coherent afterwards. -/
theorem SameData.rebuild {t t' : Table} (h : t.SameData t') (hc : t.Coherent)
    (options : TableRuntimeOptions) :
    (t'.rebuildIndexesWithOptions options).1 = .ok () ∧
      (t'.rebuildIndexesWithOptions options).2.Coherent := by
  refine rebuild_coherent ?_ ?_ (h.keysOk.mpr hc.keys) options
  · rw [h.rows, h.nextRowId]
    exact hc.rowId_lt
  · rw [h.rows]
    exact hc.finite

end Platform

/-! ## Columns and values -/

theorem mem_of_lookup_eq_some {l : List (String × Value)} {name : String} {value : Value}
    (h : l.lookup name = some value) : (name, value) ∈ l := by
  induction l with
  | nil => simp at h
  | cons p l ih =>
    obtain ⟨n, v⟩ := p
    rw [List.lookup_cons] at h
    split at h
    · rename_i hn
      obtain rfl := Option.some.inj h
      simp [eq_of_beq hn]
    · exact List.mem_cons_of_mem _ (ih h)


theorem column_eq_ok {t : Table} {name : String} {column : Column}
    (h : t.column name = .ok column) :
    column ∈ t.columns ∧ column.name = normalizeIdentifier name := by
  rw [Table.column] at h
  split at h
  · rename_i c hfind
    obtain rfl := Except.ok.inj h
    exact ⟨List.mem_of_find?_eq_some hfind, by simpa using List.find?_some hfind⟩
  · simp at h

/-- A row with all its columns Null. -/
theorem getElem?_nulls (columns : List Column) (row : Row) (name : String) (value : Value)
    (h : (columns.foldl (fun row column ↦ row.insert column.name .null) row)[name]? =
      some value) :
    row[name]? = some value ∨ (value = .null ∧ ∃ column ∈ columns, column.name = name) := by
  induction columns generalizing row with
  | nil => exact .inl h
  | cons column columns ih =>
    rw [List.foldl_cons] at h
    rcases ih _ h with hrow | ⟨rfl, c, hc, hname⟩
    · rw [BTree.getElem?_insert] at hrow
      split at hrow
      · rename_i hname
        exact .inr ⟨(Option.some.inj hrow).symm, column, List.mem_cons_self, hname⟩
      · exact .inl hrow
    · exact .inr ⟨rfl, c, List.mem_cons_of_mem _ hc, hname⟩

/-! ## Rows stored, assigned to and erased -/

/-- The table with a row stored under the next id, before its derived maps are rebuilt. -/
def stored (t : Table) (row : Row) : Table :=
  { t with nextRowId := t.nextRowId + 1, rows := t.rows.insert t.nextRowId row }

theorem validatePrimaryInsert_eq_ok {t : Table} {row : Row}
    (h : t.validatePrimaryInsert row = .ok ()) (hsome : t.primaryKey.isSome = true) :
    ∃ key, primaryKeyOf t.primaryKey row = some key ∧ key ∉ t.primary := by
  obtain ⟨column, hcolumn⟩ := Option.isSome_iff_exists.mp hsome
  rw [validatePrimaryInsert, hcolumn] at h
  cases hrow : row[column]? with
  | none => simp [hrow] at h
  | some value =>
    cases hkey : indexKey value with
    | error error => cases value <;> simp [hrow, hkey, bind, Except.bind] at h
    | ok key =>
      refine ⟨key, primaryKeyOf_eq_some.mpr ⟨column, value, hcolumn, hrow, ?_, hkey⟩, ?_⟩
      · rintro rfl
        simp [hrow] at h
      · intro hmem
        cases value <;> simp_all [bind, Except.bind]

/-- A row with a new primary key keeps the primary keys distinct. -/
theorem Coherent.keysOk_stored {t : Table} (h : t.Coherent) {row : Row}
    (hrow : t.validatePrimaryInsert row = .ok ()) : (t.stored row).KeysOk := by
  intro hsome
  obtain ⟨key, hkey, hnew⟩ := validatePrimaryInsert_eq_ok hrow hsome
  have hkeys := h.keys hsome
  -- no row of the table has the key of the new one
  have hfresh (i : RowId) (r : Row) (hr : t.rows[i]? = some r) :
      primaryKeyOf t.primaryKey r ≠ some key := fun heq ↦
    hnew ((BTree.mem_iff_exists _ _).mpr ⟨i, (h.primary key i).mpr ⟨r, hr, heq⟩⟩)
  refine ⟨fun i r hr ↦ ?_, fun i j r s hr hs heq ↦ ?_⟩
  · rw [stored, BTree.getElem?_insert] at hr
    split at hr
    · exact ⟨key, Option.some.inj hr ▸ hkey⟩
    · exact hkeys.isSome i r hr
  · rw [stored, BTree.getElem?_insert] at hr hs
    simp only [stored] at heq
    split at hr <;> split at hs
    · rename_i hi hj
      exact hi.symm.trans hj
    · obtain rfl := Option.some.inj hr
      exact absurd (heq.symm.trans hkey) (hfresh j s hs)
    · obtain rfl := Option.some.inj hs
      exact absurd (heq.trans hkey) (hfresh i r hr)
    · exact hkeys.inj i j r s hr hs heq

/-- The table with values assigned to the rows of a list of ids, before its derived maps are
rebuilt. -/
def assigned (t : Table) (rowIds : List RowId) (normalized : List (String × Value)) : Table :=
  { t with rows := assignRows normalized rowIds t.rows }

theorem getElem?_assign (normalized : List (String × Value)) (row : Row) (name : String) :
    (assign normalized row)[name]? = (normalized.reverse.lookup name).or row[name]? := by
  rw [assign]
  induction normalized generalizing row with
  | nil => simp
  | cons entry normalized ih =>
    rw [List.foldl_cons, ih, List.reverse_cons, List.lookup_append, Option.or_assoc,
      BTree.getElem?_insert]
    congr 1
    rw [List.lookup_cons]
    by_cases h : entry.1 = name
    · simp [h]
    · have hbeq : (name == entry.1) = false := by simpa using Ne.symm h
      simp [h, hbeq]

theorem assign_assign (normalized : List (String × Value)) (row : Row) :
    assign normalized (assign normalized row) = assign normalized row := by
  refine Std.ExtTreeMap.ext_getElem? fun name ↦ ?_
  rw [getElem?_assign, getElem?_assign]
  cases normalized.reverse.lookup name <;> simp

theorem getElem?_assignRows (normalized : List (String × Value)) (rowIds : List RowId)
    (rows : BTreeMap RowId Row) (rowId : RowId) :
    (assignRows normalized rowIds rows)[rowId]? =
      if rowId ∈ rowIds then rows[rowId]?.map (assign normalized) else rows[rowId]? :=
  BTree.getElem?_foldl_modify (assign_assign normalized) rowIds rows rowId

/-- A value of an updated row was assigned to it or was there before. -/
theorem getElem?_assign_eq_some {normalized : List (String × Value)} {row : Row} {name : String}
    {value : Value} (h : (assign normalized row)[name]? = some value) :
    (name, value) ∈ normalized ∨ row[name]? = some value := by
  rw [getElem?_assign, Option.or_eq_some_iff] at h
  rcases h with h | ⟨-, h⟩
  · exact .inl (List.mem_reverse.mp (mem_of_lookup_eq_some h))
  · exact .inr h

/-- The table without the rows of a list of ids, before its derived maps are rebuilt. -/
def erased (t : Table) (rowIds : List RowId) : Table :=
  { t with rows := rowIds.foldl (fun rows rowId ↦ rows.erase rowId) t.rows }

theorem getElem?_erased {t : Table} {rowIds : List RowId} {i : RowId} :
    (t.erased rowIds).rows[i]? = if i ∈ rowIds then none else t.rows[i]? :=
  BTree.getElem?_foldl_erase rowIds t.rows i

theorem getElem?_erased_eq_some {t : Table} {rowIds : List RowId} {i : RowId} {r : Row}
    (h : (t.erased rowIds).rows[i]? = some r) : t.rows[i]? = some r := by
  rw [getElem?_erased] at h
  split at h
  · cases h
  · exact h

/-! ## Validation -/

section Platform

variable [Platform]

/-- **What `validate_value_with_options` lets through** may be stored in the column. -/
theorem validateValue_hasType {column : Column} {value stored : Value}
    {options : TableRuntimeOptions}
    (h : validateValueWithOptions column value options = .ok stored) :
    stored.HasType options column.ty := by
  obtain ⟨name, ty, primaryKey⟩ := column
  cases value with
  | null => cases ty <;> cases h <;> trivial
  | integer x => cases ty <;> cases h <;> first | trivial | exact F64.isFinite_ofInt64 x
  | float x =>
    cases ty <;> simp only [validateValueWithOptions, reduceCtorEq] at h
    split at h <;> cases h
    assumption
  | boolean x =>
    cases ty <;> cases h
    trivial
  | text x =>
    cases ty <;> cases h
    trivial
  | vector xs =>
    cases ty <;> simp only [validateValueWithOptions, reduceCtorEq] at h
    split at h
    · rename_i hfinite
      cases hdim : options.vectorIndex.dimensions with
      | none =>
        simp only [hdim] at h
        cases h
        exact ⟨hfinite, by simp [hdim]⟩
      | some expected =>
        simp only [hdim] at h
        split at h <;> cases h
        rename_i hlength
        exact ⟨hfinite, fun n hn ↦ by rw [hdim] at hn; cases hn; exact of_not_not hlength⟩
    · cases h
  | point p =>
    cases ty <;> simp only [validateValueWithOptions, reduceCtorEq] at h
    split at h <;> cases h
    assumption

/-- `insert_with_options` checks every value it puts into a row, and looks up its column. -/
theorem insertValues_induction {t : Table} {options : TableRuntimeOptions} {P : Row → Prop}
    (hstep : ∀ (column : Column) (value stored : Value) (row : Row), column ∈ t.columns →
      validateValueWithOptions column value options = .ok stored → P row →
        P (row.insert column.name stored)) {values : List (String × Value)} {row row' : Row}
    (h : t.insertValues options values row = .ok row') (hrow : P row) : P row' := by
  induction values generalizing row with
  | nil =>
    rw [insertValues] at h
    exact Except.ok.inj h ▸ hrow
  | cons entry values ih =>
    obtain ⟨columnName, value⟩ := entry
    rw [insertValues] at h
    cases hcolumn : t.column columnName with
    | error error => simp [hcolumn, bind, Except.bind] at h
    | ok column =>
      cases hvalue : validateValueWithOptions column value options with
      | error error => simp [hcolumn, hvalue, bind, Except.bind] at h
      | ok stored =>
        simp only [hcolumn, hvalue, bind, Except.bind] at h
        exact ih h (hstep column value stored row (column_eq_ok hcolumn).1 hvalue hrow)

/-- What an insertion checks before it stores a row. -/
theorem insertRow_eq_ok {t : Table} {columns : Option (List String)} {values : List Value}
    {options : TableRuntimeOptions} {row : Row}
    (h : t.insertRow columns values options = .ok row) :
    t.insertValues options ((columns.getD (t.columns.map (·.name))).zip values)
        (t.columns.foldl (fun row column ↦ row.insert column.name .null) ∅) = .ok row ∧
      t.validatePrimaryInsert row = .ok () := by
  rw [insertRow] at h
  split at h
  · simp at h
  · cases hvalues : t.insertValues options
        ((columns.getD (t.columns.map (·.name))).zip values)
        (t.columns.foldl (fun row column ↦ row.insert column.name .null) ∅) with
    | error error => simp [hvalues, bind, Except.bind] at h
    | ok row' =>
      cases hprimary : t.validatePrimaryInsert row' with
      | error error => simp [hvalues, hprimary, bind, Except.bind] at h
      | ok _ =>
        simp only [hvalues, hprimary, bind, Except.bind, pure, Except.pure, Except.ok.injEq] at h
        subst h
        exact ⟨rfl, hprimary⟩

/-- The values of an inserted row are finite. -/
theorem insertRow_finite {t : Table} {columns : Option (List String)} {values : List Value}
    {options : TableRuntimeOptions} {row : Row}
    (h : t.insertRow columns values options = .ok row) (name : String) (value : Value)
    (hvalue : row[name]? = some value) : value.isFinite = true := by
  refine insertValues_induction (P := fun row ↦ ∀ (name : String) (value : Value),
    row[name]? = some value → value.isFinite = true) ?_ (insertRow_eq_ok h).1 ?_ name value hvalue
  · intro column value stored row _ hstored hrow name v hv
    rw [BTree.getElem?_insert] at hv
    split at hv
    · exact Option.some.inj hv ▸ (validateValue_hasType hstored).isFinite
    · exact hrow name v hv
  · intro name v hv
    rcases getElem?_nulls _ _ _ _ hv with hrow | ⟨rfl, -⟩
    · simp at hrow
    · rfl

/-! ## Insert -/

theorem insertWithOptions_error {t : Table} {columns : Option (List String)} {values : List Value}
    {options : TableRuntimeOptions} {error : Error}
    (h : t.insertRow columns values options = .error error) :
    t.insertWithOptions columns values options = (.error error, t) := by
  rw [insertWithOptions, h]

/-- The derived maps can be rebuilt after a row has been stored. -/
theorem Coherent.rebuild_stored {t : Table} (hc : t.Coherent) {columns : Option (List String)}
    {values : List Value} {options : TableRuntimeOptions} {row : Row}
    (h : t.insertRow columns values options = .ok row) :
    ((t.stored row).rebuildIndexesWithOptions options).1 = .ok () ∧
      ((t.stored row).rebuildIndexesWithOptions options).2.Coherent := by
  have hrow := insertRow_finite h
  refine rebuild_coherent (fun i r hr ↦ ?_) (fun i r hr ↦ ?_)
    (hc.keysOk_stored (insertRow_eq_ok h).2) options
  · rw [stored, BTree.getElem?_insert] at hr
    split at hr
    · rename_i hi
      exact hi ▸ Nat.lt_succ_self t.nextRowId
    · exact Nat.lt_succ_of_lt (hc.rowId_lt i r hr)
  · rw [stored, BTree.getElem?_insert] at hr
    split at hr
    · exact Option.some.inj hr ▸ hrow
    · exact hc.finite i r hr

/-- **An insertion that passes its checks succeeds.** -/
theorem insertWithOptions_ok {t : Table} (hc : t.Coherent) {columns : Option (List String)}
    {values : List Value} {options : TableRuntimeOptions} {row : Row}
    (h : t.insertRow columns values options = .ok row) :
    ∃ t', t.insertWithOptions columns values options = (.ok (), t') ∧ t'.Coherent ∧
      (t.stored row).SameData t' := by
  obtain ⟨hok, hcoherent⟩ := hc.rebuild_stored h
  refine ⟨_, ?_, hcoherent, rebuild_sameData _ options⟩
  rw [insertWithOptions, h]
  exact Prod.ext hok rfl

/-! ## Update -/

theorem normalizeAssignments_cons_eq_ok {t : Table} {options : TableRuntimeOptions}
    {columnName : String} {value : Value} {rest normalized : List (String × Value)}
    (h : t.normalizeAssignments options ((columnName, value) :: rest) = .ok normalized) :
    ∃ column stored normalized', column ∈ t.columns ∧
      validateValueWithOptions column value options = .ok stored ∧
      t.normalizeAssignments options rest = .ok normalized' ∧
      normalized = (column.name, stored) :: normalized' := by
  rw [normalizeAssignments] at h
  cases hcolumn : t.column columnName with
  | error error => simp [hcolumn, bind, Except.bind] at h
  | ok column =>
    cases hvalue : validateValueWithOptions column value options with
    | error error => simp [hcolumn, hvalue, bind, Except.bind] at h
    | ok stored =>
      cases hrest : t.normalizeAssignments options rest with
      | error error => simp [hcolumn, hvalue, hrest, bind, Except.bind] at h
      | ok normalized' =>
        simp only [hcolumn, hvalue, hrest, bind, Except.bind, pure, Except.pure,
          Except.ok.injEq] at h
        exact ⟨column, stored, normalized', (column_eq_ok hcolumn).1, hvalue, rfl, h.symm⟩

/-- **Normalized assignments name columns of the table** and values these may store. -/
theorem normalizeAssignments_hasType {t : Table} {options : TableRuntimeOptions}
    {assignments normalized : List (String × Value)}
    (h : t.normalizeAssignments options assignments = .ok normalized) :
    ∀ p ∈ normalized, ∃ column ∈ t.columns, column.name = p.1 ∧ p.2.HasType options column.ty := by
  induction assignments generalizing normalized with
  | nil =>
    obtain rfl := Except.ok.inj h
    simp
  | cons entry rest ih =>
    obtain ⟨column, stored, normalized', hmem, hvalue, hrest, rfl⟩ :=
      normalizeAssignments_cons_eq_ok h
    rw [List.forall_mem_cons]
    exact ⟨⟨column, hmem, rfl, validateValue_hasType hvalue⟩, ih hrest⟩

/-- Updated rows hold finite values. -/
theorem Coherent.finite_assigned {t : Table} (hc : t.Coherent) (rowIds : List RowId)
    {options : TableRuntimeOptions} {assignments normalized : List (String × Value)}
    (h : t.normalizeAssignments options assignments = .ok normalized) (i : RowId) (r : Row)
    (hr : (t.assigned rowIds normalized).rows[i]? = some r) (name : String) (value : Value)
    (hvalue : r[name]? = some value) : value.isFinite = true := by
  rw [assigned, getElem?_assignRows] at hr
  split at hr
  · obtain ⟨r', hr', rfl⟩ := Option.map_eq_some_iff.mp hr
    rcases getElem?_assign_eq_some hvalue with hmem | hold
    · obtain ⟨column, -, -, htype⟩ := normalizeAssignments_hasType h _ hmem
      exact htype.isFinite
    · exact hc.finite i r' hr' name value hold
  · exact hc.finite i r hr name value hvalue

/-- The derived maps can be rebuilt after an update whose rows have distinct primary keys. -/
theorem Coherent.rebuild_assigned {t : Table} (hc : t.Coherent) {rowIds : List RowId}
    {options : TableRuntimeOptions} {assignments normalized : List (String × Value)}
    (h : t.normalizeAssignments options assignments = .ok normalized)
    (hkeys : (t.assigned rowIds normalized).KeysOk) :
    ((t.assigned rowIds normalized).rebuildIndexesWithOptions options).1 = .ok () ∧
      ((t.assigned rowIds normalized).rebuildIndexesWithOptions options).2.Coherent := by
  refine rebuild_coherent (fun i r hr ↦ ?_) (hc.finite_assigned rowIds h) hkeys options
  rw [assigned, getElem?_assignRows] at hr
  split at hr
  · obtain ⟨r', hr', -⟩ := Option.map_eq_some_iff.mp hr
    exact hc.rowId_lt i r' hr'
  · exact hc.rowId_lt i r hr

theorem updatePlan_eq_ok {t : Table} {assignments : List (String × Value)}
    {filter : Option Filter} {options : TableRuntimeOptions} {rowIds : List RowId}
    {normalized : List (String × Value)}
    (h : t.updatePlan assignments filter options = .ok (rowIds, normalized)) :
    t.matchingRowIdsForLock filter options = .ok rowIds ∧
      t.normalizeAssignments options assignments = .ok normalized := by
  rw [updatePlan] at h
  rw [matchingRowIdsForLock]
  cases hfilter : t.normalizeFilter filter options with
  | error error => simp [hfilter, bind, Except.bind] at h
  | ok filter' =>
    cases hmatch : t.matchingRowIds filter' options with
    | error error => simp [hfilter, hmatch, bind, Except.bind] at h
    | ok found =>
      cases hassign : t.normalizeAssignments options assignments with
      | error error => simp [hfilter, hmatch, hassign, bind, Except.bind] at h
      | ok normalized' =>
        simp only [hfilter, hmatch, hassign, bind, Except.bind, pure, Except.pure,
          Except.ok.injEq, Prod.mk.injEq] at h
        obtain ⟨rfl, rfl⟩ := h
        simp [bind, Except.bind, pure, Except.pure, hmatch]

theorem updatePlan_ok {t : Table} {assignments : List (String × Value)} {filter : Option Filter}
    {options : TableRuntimeOptions} {rowIds : List RowId} {normalized : List (String × Value)}
    (hmatch : t.matchingRowIdsForLock filter options = .ok rowIds)
    (hassign : t.normalizeAssignments options assignments = .ok normalized) :
    t.updatePlan assignments filter options = .ok (rowIds, normalized) := by
  rw [matchingRowIdsForLock] at hmatch
  rw [updatePlan]
  cases hfilter : t.normalizeFilter filter options with
  | error error => simp [hfilter, bind, Except.bind] at hmatch
  | ok filter' =>
    cases hfound : t.matchingRowIds filter' options with
    | error error => simp [hfilter, hfound, bind, Except.bind] at hmatch
    | ok found =>
      simp only [hfilter, hfound, bind, Except.bind, pure, Except.pure, Except.ok.injEq] at hmatch
      simp [hfound, hassign, hmatch, bind, Except.bind, pure, Except.pure]

theorem updateWithOptions_of_ok {t : Table} {assignments : List (String × Value)}
    {filter : Option Filter} {options : TableRuntimeOptions} {rowIds : List RowId}
    {normalized : List (String × Value)}
    (hplan : t.updatePlan assignments filter options = .ok (rowIds, normalized))
    (h : ((t.assigned rowIds normalized).rebuildIndexesWithOptions options).1 = .ok ()) :
    t.updateWithOptions assignments filter options =
      (.ok rowIds.length,
        ((t.assigned rowIds normalized).rebuildIndexesWithOptions options).2) := by
  rw [updateWithOptions, hplan]
  simp only [assigned] at h ⊢
  generalize Table.rebuildIndexesWithOptions _ options = rebuilt at h ⊢
  obtain ⟨result, updated⟩ := rebuilt
  simp only at h
  rw [h]

theorem updateWithOptions_of_error {t : Table} {assignments : List (String × Value)}
    {filter : Option Filter} {options : TableRuntimeOptions} {rowIds : List RowId}
    {normalized : List (String × Value)} {error : Error}
    (hplan : t.updatePlan assignments filter options = .ok (rowIds, normalized))
    (h : ((t.assigned rowIds normalized).rebuildIndexesWithOptions options).1 = .error error) :
    t.updateWithOptions assignments filter options =
      (.error error,
        ({ ((t.assigned rowIds normalized).rebuildIndexesWithOptions options).2 with
          rows := t.rows }.rebuildIndexesWithOptions options).2) := by
  rw [updateWithOptions, hplan]
  simp only [assigned] at h ⊢
  generalize Table.rebuildIndexesWithOptions _ options = rebuilt at h ⊢
  obtain ⟨result, updated⟩ := rebuilt
  simp only at h
  rw [h]

omit [Platform] in
/-- Putting the rows back after a failed rebuild restores the data of the table. -/
theorem sameData_restored {t changed : Table} {rows : BTreeMap RowId Row}
    (h : { t with rows }.SameData changed) : t.SameData { changed with rows := t.rows } :=
  ⟨h.name, h.columns, rfl, h.nextRowId, h.primaryKey, h.indexes, h.fulltextIndexes⟩

/-- **Everything an update can do to a coherent table.**  It fails and leaves the table alone; or
it succeeds, when the updated rows have distinct primary keys; or it fails because they have not,
and the rows are put back. -/
theorem updateWithOptions_cases {t : Table} (hc : t.Coherent) (assignments : List (String × Value))
    (filter : Option Filter) (options : TableRuntimeOptions) :
    (∃ error, t.updatePlan assignments filter options = .error error ∧
      t.updateWithOptions assignments filter options = (.error error, t)) ∨
    ∃ rowIds normalized t', t.updatePlan assignments filter options = .ok (rowIds, normalized) ∧
      t'.Coherent ∧
      (((t.assigned rowIds normalized).KeysOk ∧ (t.assigned rowIds normalized).SameData t' ∧
          t.updateWithOptions assignments filter options = (.ok rowIds.length, t')) ∨
        (¬(t.assigned rowIds normalized).KeysOk ∧ t.SameData t' ∧
          ∃ error, t.updateWithOptions assignments filter options = (.error error, t'))) := by
  cases hplan : t.updatePlan assignments filter options with
  | error error => exact .inl ⟨error, rfl, by rw [updateWithOptions, hplan]⟩
  | ok plan =>
    obtain ⟨rowIds, normalized⟩ := plan
    have hdata := (t.assigned rowIds normalized).rebuild_sameData options
    refine .inr ⟨rowIds, normalized, ?_⟩
    by_cases hkeys : (t.assigned rowIds normalized).KeysOk
    · obtain ⟨hok, hcoherent⟩ := hc.rebuild_assigned (updatePlan_eq_ok hplan).2 hkeys
      exact ⟨_, rfl, hcoherent, .inl ⟨hkeys, hdata, updateWithOptions_of_ok hplan hok⟩⟩
    · cases hrebuild : ((t.assigned rowIds normalized).rebuildIndexesWithOptions options).1 with
      | ok _ => exact absurd ((rebuild_ok_iff _ _).mp hrebuild).1 hkeys
      | error error =>
        have hrestored := sameData_restored hdata
        exact ⟨_, rfl, (hrestored.rebuild hc options).2,
          .inr ⟨hkeys, hrestored.trans (rebuild_sameData _ options), error,
            updateWithOptions_of_error hplan hrebuild⟩⟩

/-! ## Delete -/

/-- The derived maps can be rebuilt after rows have been erased. -/
theorem Coherent.rebuild_erased {t : Table} (hc : t.Coherent) (rowIds : List RowId)
    (options : TableRuntimeOptions) :
    ((t.erased rowIds).rebuildIndexesWithOptions options).1 = .ok () ∧
      ((t.erased rowIds).rebuildIndexesWithOptions options).2.Coherent :=
  rebuild_coherent (t := t.erased rowIds)
    (fun i r hr ↦ hc.rowId_lt i r (getElem?_erased_eq_some hr))
    (fun i r hr ↦ hc.finite i r (getElem?_erased_eq_some hr))
    (fun hsome ↦ ⟨fun i r hr ↦ (hc.keys hsome).isSome i r (getElem?_erased_eq_some hr),
      fun i j r s hr hs ↦ (hc.keys hsome).inj i j r s (getElem?_erased_eq_some hr)
        (getElem?_erased_eq_some hs)⟩) options

/-- **Everything a deletion can do to a coherent table**: it fails when the filter does not resolve,
and otherwise erases the rows that match. -/
theorem deleteWithOptions_cases {t : Table} (hc : t.Coherent) (filter : Option Filter)
    (options : TableRuntimeOptions) :
    (∃ error, t.matchingRowIdsForLock filter options = .error error ∧
      t.deleteWithOptions filter options = (.error error, t)) ∨
    ∃ rowIds t', t.matchingRowIdsForLock filter options = .ok rowIds ∧ t'.Coherent ∧
      (t.erased rowIds).SameData t' ∧
      t.deleteWithOptions filter options = (.ok rowIds.length, t') := by
  cases hmatch : t.matchingRowIdsForLock filter options with
  | error error => exact .inl ⟨error, rfl, by rw [deleteWithOptions, hmatch]⟩
  | ok rowIds =>
    obtain ⟨hok, hcoherent⟩ := hc.rebuild_erased rowIds options
    refine .inr ⟨rowIds, _, rfl, hcoherent, rebuild_sameData _ options, ?_⟩
    rw [deleteWithOptions, hmatch]
    simp only [erased] at hok ⊢
    generalize Table.rebuildIndexesWithOptions _ options = rebuilt at hok ⊢
    obtain ⟨result, deleted⟩ := rebuilt
    simp only at hok
    rw [hok]

/-! ## Creating indexes -/

/-- **Everything the creation of a secondary index can do to a coherent table.** -/
theorem createIndex_cases {t : Table} (hc : t.Coherent) (name column : String) :
    (∃ error, t.createIndex name column = (.error error, t)) ∨
    ∃ columnRef t', t.column column = .ok columnRef ∧ name ∉ t.indexes ∧
      name ∉ t.fulltextIndexes ∧ t'.Coherent ∧
      { t with indexes := t.indexes.insert name ⟨column, ∅⟩ }.SameData t' ∧
      t.createIndex name column = (.ok (), t') := by
  rw [createIndex]
  cases hcolumn : t.column column with
  | error error => exact .inl ⟨error, rfl⟩
  | ok columnRef =>
    simp only
    split
    · exact .inl ⟨_, rfl⟩
    · rename_i hnew
      rw [not_or] at hnew
      obtain ⟨hok, hcoherent⟩ := rebuild_coherent
        (t := { t with indexes := t.indexes.insert name ⟨column, ∅⟩ }) hc.rowId_lt hc.finite
        hc.keys {}
      exact .inr ⟨columnRef, _, rfl, hnew.1, hnew.2, hcoherent, rebuild_sameData _ _,
        Prod.ext hok rfl⟩

/-- **Everything the creation of a full-text index can do to a coherent table.** -/
theorem createFulltextIndexWithOptions_cases {t : Table} (hc : t.Coherent) (name column : String)
    (options : TableRuntimeOptions) :
    (∃ error, t.createFulltextIndexWithOptions name column options = (.error error, t)) ∨
    ∃ columnRef t', t.column column = .ok columnRef ∧ columnRef.ty = .text ∧ name ∉ t.indexes ∧
      name ∉ t.fulltextIndexes ∧ t'.Coherent ∧
      { t with fulltextIndexes := t.fulltextIndexes.insert name ⟨column, ∅⟩ }.SameData t' ∧
      t.createFulltextIndexWithOptions name column options = (.ok (), t') := by
  rw [createFulltextIndexWithOptions]
  cases hcolumn : t.column column with
  | error error => exact .inl ⟨error, rfl⟩
  | ok columnRef =>
    simp only
    split
    · exact .inl ⟨_, rfl⟩
    · rename_i htext
      split
      · exact .inl ⟨_, rfl⟩
      · rename_i hnew
        rw [not_or] at hnew
        obtain ⟨hok, hcoherent⟩ := rebuild_coherent
          (t := { t with fulltextIndexes := t.fulltextIndexes.insert name ⟨column, ∅⟩ })
          hc.rowId_lt hc.finite hc.keys options
        exact .inr ⟨columnRef, _, rfl, of_not_not htext, hnew.1, hnew.2, hcoherent,
          rebuild_sameData _ _, Prod.ext hok rfl⟩

/-! ## Tables with the same data -/

/-- **Two tables that differ at most in what their full-text indexes list.** -/
structure SameButFulltext (t t' : Table) : Prop where
  /-- The data and the definitions are the same. -/
  data : t.SameData t'
  /-- The primary-key maps are the same. -/
  primary : t'.primary = t.primary
  /-- The secondary indexes are the same. -/
  indexes : t'.indexes = t.indexes

omit [Platform] in
theorem SameButFulltext.refl (t : Table) : t.SameButFulltext t := ⟨.refl t, rfl, rfl⟩

omit [Platform] in
/-- **The rows of a coherent table determine its derived maps**, but those of full-text indexes. -/
theorem SameData.sameButFulltext {t t' : Table} (h : t.SameData t') (hc : t.Coherent)
    (hc' : t'.Coherent) : t.SameButFulltext t' := by
  refine ⟨h, ?_, Std.ExtTreeMap.ext_getElem? fun n ↦ ?_⟩
  · have hprimary := hc'.primary
    rw [h.primaryKey, h.rows] at hprimary
    exact hprimary.unique hc.primary
  · have hcolumn := h.indexes n
    cases hindex : t.indexes[n]? with
    | none => simpa [hindex] using hcolumn
    | some index =>
      rw [hindex, Option.map_some, Option.map_eq_some_iff] at hcolumn
      obtain ⟨index', hindex', heq⟩ := hcolumn
      have hinverts := hc'.indexes n index' hindex'
      rw [heq, h.rows] at hinverts
      have hmap : index'.map = index.map := hinverts.unique (hc.indexes n index hindex)
      rw [hindex', Option.some_inj]
      cases index
      cases index'
      simp only at heq hmap
      rw [heq, hmap]

/-! ## Rebuilding -/

/-- **No rebuild fails** on what a table stores, but that of an update whose rows have not distinct
primary keys. -/
structure Rebuilds (options : TableRuntimeOptions) (t : Table) : Prop where
  /-- A stored value has an index key. -/
  indexKey (rowId : RowId) (row : Row) (column : String) (value : Value) :
    t.rows[rowId]? = some row → row[column]? = some value → ∃ key, indexKey value = .ok key
  /-- The derived maps can be rebuilt, with any options. -/
  rebuild (options' : TableRuntimeOptions) :
    (t.rebuildIndexesWithOptions options').1 = .ok ()
  /-- They can be rebuilt after a row has been stored. -/
  insert (columns : Option (List String)) (values : List Value) (row : Row) :
    t.insertRow columns values options = .ok row →
      ((t.stored row).rebuildIndexesWithOptions options).1 = .ok ()
  /-- They can be rebuilt after rows have been updated unless a primary key is Null or occurs
  twice. -/
  update (assignments : List (String × Value)) (filter : Option Filter) (rowIds : List RowId)
    (normalized : List (String × Value)) :
    t.updatePlan assignments filter options = .ok (rowIds, normalized) →
      (((t.assigned rowIds normalized).rebuildIndexesWithOptions options).1 = .ok () ↔
        (t.assigned rowIds normalized).KeysOk)
  /-- They can be rebuilt after rows have been erased. -/
  delete (rowIds : List RowId) :
    ((t.erased rowIds).rebuildIndexesWithOptions options).1 = .ok ()

/-- **A coherent table can be rebuilt** after whatever has been done to it. -/
theorem Coherent.rebuilds {t : Table} (hc : t.Coherent) (options : TableRuntimeOptions) :
    t.Rebuilds options where
  indexKey rowId row column value hrow hvalue := by
    have hfinite := hc.finite rowId row hrow column value hvalue
    exact ⟨_, indexKey_eq_ok.mpr ⟨hfinite, rfl⟩⟩
  rebuild options' := (hc.rebuild options').1
  insert _ _ _ h := (hc.rebuild_stored h).1
  update _ _ _ _ hplan := ⟨fun hok ↦ ((rebuild_ok_iff _ _).mp hok).1,
    fun hkeys ↦ (hc.rebuild_assigned (updatePlan_eq_ok hplan).2 hkeys).1⟩
  delete rowIds := (hc.rebuild_erased rowIds options).1

end Platform

/-! ## New tables -/

theorem coherent_new {name : String} {columns : List Column} {t : Table}
    (h : Table.new name columns = .ok t) : t.Coherent ∧ t.rows = ∅ ∧ t.nextRowId = 1 := by
  rw [Table.new] at h
  cases hcheck : checkColumns columns ∅ none with
  | error error => simp [hcheck, bind, Except.bind] at h
  | ok primaryKey =>
    simp only [hcheck, bind, Except.bind, pure, Except.pure, Except.ok.injEq] at h
    subst h
    refine ⟨⟨?_, ?_, fun _ ↦ ⟨?_, ?_⟩, ?_, ?_, ?_⟩, rfl, rfl⟩ <;> simp [UniqueIndex]

end Table

end Fsql
