import Fsql.Storage.Coherent

/-!
# Well-formed tables

`Table.WellFormed options` is the whole invariant of a table that is only ever used with one set of
options: it is coherent, and its columns, indexes and rows fit together (`Table.Typed`).  Typing
does not look into the derived maps, so an operation preserves it as soon as it preserves it up to
`Table.SameData`.

One operation does not preserve it for all arguments.  `create_index` resolves the column it is
given, and then keeps the name it was given instead of the name of the column it found; the two
differ when the given name has quotes left in it.  `Table.createIndex_wellFormed` therefore asks
that a column of exactly the given name exists.
-/

set_option autoImplicit false

namespace Fsql

open DerivedIndex

namespace Table

/-- **Columns, indexes and rows fit together.** -/
structure Typed (options : TableRuntimeOptions) (t : Table) : Prop where
  /-- Column names are distinct. -/
  columns_nodup : (t.columns.map (·.name)).Nodup
  /-- The primary key is the one column declared so, if there is one. -/
  primaryKey_eq : (t.columns.filter (·.primaryKey)).map (·.name) = t.primaryKey.toList
  /-- No secondary index has the name of a full-text index. -/
  indexNames (n : String) : n ∈ t.indexes → n ∉ t.fulltextIndexes
  /-- The column of a secondary index exists. -/
  indexColumn (n : String) (index : Index) : t.indexes[n]? = some index →
    ∃ column ∈ t.columns, column.name = index.column
  /-- The column of a full-text index exists and is a text column. -/
  fulltextColumn (n : String) (index : Index) : t.fulltextIndexes[n]? = some index →
    ∃ column ∈ t.columns, column.name = index.column ∧ column.ty = .text
  /-- A row has exactly the columns of the table. -/
  rowColumns (rowId : RowId) (row : Row) : t.rows[rowId]? = some row →
    ∀ name : String, (∃ value, row[name]? = some value) ↔ ∃ column ∈ t.columns, column.name = name
  /-- A value is one its column may store. -/
  hasType (rowId : RowId) (row : Row) : t.rows[rowId]? = some row → ∀ column ∈ t.columns,
    ∀ value, row[column.name]? = some value → value.HasType options column.ty

/-- **The invariant of a table used with one set of options.** -/
structure WellFormed (options : TableRuntimeOptions) (t : Table) : Prop where
  /-- The derived maps are those of the rows. -/
  coherent : t.Coherent
  /-- Columns, indexes and rows fit together. -/
  typed : t.Typed options

/-- The rows of a typed table, one at a time. -/
structure RowTyped (options : TableRuntimeOptions) (columns : List Column) (row : Row) : Prop where
  /-- It has exactly the given columns. -/
  rowColumns (name : String) :
    (∃ value, row[name]? = some value) ↔ ∃ column ∈ columns, column.name = name
  /-- A value is one its column may store. -/
  hasType (column : Column) (value : Value) : column ∈ columns → row[column.name]? = some value →
    value.HasType options column.ty

variable {options : TableRuntimeOptions}

theorem Typed.rowTyped {t : Table} (h : t.Typed options) {rowId : RowId} {row : Row}
    (hrow : t.rows[rowId]? = some row) : RowTyped options t.columns row :=
  ⟨h.rowColumns rowId row hrow, fun column value hcolumn ↦
    h.hasType rowId row hrow column hcolumn value⟩

/-- Typing looks at the rows one at a time. -/
theorem Typed.withRows {t : Table} (h : t.Typed options) {rows : BTreeMap RowId Row}
    {nextRowId : RowId}
    (hrows : ∀ (rowId : RowId) (row : Row), rows[rowId]? = some row →
      RowTyped options t.columns row) : { t with rows, nextRowId }.Typed options where
  columns_nodup := h.columns_nodup
  primaryKey_eq := h.primaryKey_eq
  indexNames := h.indexNames
  indexColumn := h.indexColumn
  fulltextColumn := h.fulltextColumn
  rowColumns rowId row hrow := (hrows rowId row hrow).rowColumns
  hasType rowId row hrow column hcolumn value := (hrows rowId row hrow).hasType column value hcolumn

theorem mem_of_column_eq {indexes indexes' : BTreeMap String Index} {n : String}
    (h : indexes'[n]?.map (·.column) = indexes[n]?.map (·.column)) :
    n ∈ indexes' ↔ n ∈ indexes := by
  rw [Std.ExtTreeMap.mem_iff_isSome_getElem?, Std.ExtTreeMap.mem_iff_isSome_getElem?,
    ← Option.isSome_map, h, Option.isSome_map]

theorem exists_of_column_eq {indexes indexes' : BTreeMap String Index} {n : String} {index : Index}
    (h : indexes'[n]?.map (·.column) = indexes[n]?.map (·.column))
    (hn : indexes'[n]? = some index) :
    ∃ index', indexes[n]? = some index' ∧ index'.column = index.column := by
  rw [hn, Option.map_some, eq_comm, Option.map_eq_some_iff] at h
  exact h

/-- **Typing does not depend on the contents of the derived maps.** -/
theorem SameData.typed {t t' : Table} (h : t.SameData t') (ht : t.Typed options) :
    t'.Typed options where
  columns_nodup := h.columns ▸ ht.columns_nodup
  primaryKey_eq := by rw [h.columns, h.primaryKey, ht.primaryKey_eq]
  indexNames n hn := by
    rw [mem_of_column_eq (h.indexes n)] at hn
    rw [mem_of_column_eq (h.fulltextIndexes n)]
    exact ht.indexNames n hn
  indexColumn n index hn := by
    obtain ⟨index', hn', hcolumn⟩ := exists_of_column_eq (h.indexes n) hn
    rw [h.columns, ← hcolumn]
    exact ht.indexColumn n index' hn'
  fulltextColumn n index hn := by
    obtain ⟨index', hn', hcolumn⟩ := exists_of_column_eq (h.fulltextIndexes n) hn
    rw [h.columns, ← hcolumn]
    exact ht.fulltextColumn n index' hn'
  rowColumns rowId row hrow := by
    rw [h.columns]
    exact ht.rowColumns rowId row (h.rows ▸ hrow)
  hasType rowId row hrow := by
    rw [h.columns]
    exact ht.hasType rowId row (h.rows ▸ hrow)

/-! ## Rows -/

theorem eq_of_name_eq {columns : List Column} (h : (columns.map (·.name)).Nodup) {c d : Column}
    (hc : c ∈ columns) (hd : d ∈ columns) (hname : c.name = d.name) : c = d :=
  List.inj_on_of_nodup_map h hc hd hname

theorem RowTyped.insert {columns : List Column} (hnodup : (columns.map (·.name)).Nodup) {row : Row}
    (h : RowTyped options columns row) {column : Column} (hcolumn : column ∈ columns)
    {value : Value} (hvalue : value.HasType options column.ty) :
    RowTyped options columns (row.insert column.name value) := by
  refine ⟨fun name ↦ ?_, fun c v hc hv ↦ ?_⟩
  · rw [BTree.getElem?_insert]
    split
    · rename_i hname
      exact ⟨fun _ ↦ ⟨column, hcolumn, hname⟩, fun _ ↦ ⟨value, rfl⟩⟩
    · exact h.rowColumns name
  · rw [BTree.getElem?_insert] at hv
    split at hv
    · rename_i hname
      obtain rfl := eq_of_name_eq hnodup hcolumn hc hname
      exact Option.some.inj hv ▸ hvalue
    · exact h.hasType c v hc hv

theorem rowTyped_nulls (columns : List Column) :
    RowTyped options columns
      (columns.foldl (fun row column ↦ row.insert column.name .null) ∅) := by
  have key (l : List Column) (row : Row) (name : String) :
      (l.foldl (fun row column ↦ row.insert column.name .null) row)[name]? =
        if name ∈ l.map (·.name) then some .null else row[name]? := by
    induction l generalizing row with
    | nil => simp
    | cons column l ih =>
      rw [List.foldl_cons, ih, BTree.getElem?_insert]
      by_cases hname : column.name = name
      · simp [hname]
      · simp [hname, Ne.symm hname]
  refine ⟨fun name ↦ ?_, fun column value _ hvalue ↦ ?_⟩
  · rw [key, ← List.mem_map]
    split <;> simp_all
  · rw [key] at hvalue
    split at hvalue
    · obtain rfl := Option.some.inj hvalue
      trivial
    · simp at hvalue

section Platform

variable [Platform]

/-- **An inserted row fits the table.** -/
theorem insertRow_rowTyped {t : Table} (h : (t.columns.map (·.name)).Nodup)
    {columns : Option (List String)} {values : List Value} {row : Row}
    (hrow : t.insertRow columns values options = .ok row) :
    RowTyped options t.columns row :=
  insertValues_induction (P := RowTyped options t.columns)
    (fun _ _ _ _ hcolumn hstored hrow ↦ hrow.insert h hcolumn (validateValue_hasType hstored))
    (insertRow_eq_ok hrow).1 (rowTyped_nulls t.columns)

/-- **An updated row fits the table.** -/
theorem assign_rowTyped {t : Table} (h : (t.columns.map (·.name)).Nodup)
    {assignments normalized : List (String × Value)}
    (hnormalized : t.normalizeAssignments options assignments = .ok normalized) {row : Row}
    (hrow : RowTyped options t.columns row) :
    RowTyped options t.columns (assign normalized row) := by
  have htypes := normalizeAssignments_hasType hnormalized
  clear hnormalized
  rw [assign]
  induction normalized generalizing row with
  | nil => exact hrow
  | cons entry normalized ih =>
    rw [List.forall_mem_cons] at htypes
    obtain ⟨⟨column, hcolumn, hname, htype⟩, htypes⟩ := htypes
    rw [List.foldl_cons, ← hname]
    exact ih (hrow.insert h hcolumn htype) htypes

/-! ## Operations -/

theorem insertWithOptions_wellFormed {t : Table} (h : t.WellFormed options)
    (columns : Option (List String)) (values : List Value) :
    (t.insertWithOptions columns values options).2.WellFormed options := by
  cases hrow : t.insertRow columns values options with
  | error error => rw [insertWithOptions_error hrow]; exact h
  | ok row =>
    obtain ⟨t', heq, hcoherent, hdata⟩ := insertWithOptions_ok h.coherent hrow
    rw [heq]
    refine ⟨hcoherent, hdata.typed (h.typed.withRows fun rowId r hr ↦ ?_)⟩
    rw [BTree.getElem?_insert] at hr
    split at hr
    · exact Option.some.inj hr ▸ insertRow_rowTyped h.typed.columns_nodup hrow
    · exact h.typed.rowTyped hr

theorem updateWithOptions_wellFormed {t : Table} (h : t.WellFormed options)
    (assignments : List (String × Value)) (filter : Option Filter) :
    (t.updateWithOptions assignments filter options).2.WellFormed options := by
  rcases updateWithOptions_cases h.coherent assignments filter options with
    ⟨error, -, heq⟩ | ⟨rowIds, normalized, t', hplan, hcoherent, hresult⟩
  · rw [heq]
    exact h
  · rcases hresult with ⟨-, hdata, heq⟩ | ⟨-, hdata, error, heq⟩
    · rw [heq]
      refine ⟨hcoherent, hdata.typed (h.typed.withRows fun rowId r hr ↦ ?_)⟩
      rw [getElem?_assignRows] at hr
      split at hr
      · obtain ⟨r', hr', rfl⟩ := Option.map_eq_some_iff.mp hr
        exact assign_rowTyped h.typed.columns_nodup (updatePlan_eq_ok hplan).2
          (h.typed.rowTyped hr')
      · exact h.typed.rowTyped hr
    · rw [heq]
      exact ⟨hcoherent, hdata.typed h.typed⟩

theorem deleteWithOptions_wellFormed {t : Table} (h : t.WellFormed options)
    (filter : Option Filter) : (t.deleteWithOptions filter options).2.WellFormed options := by
  rcases deleteWithOptions_cases h.coherent filter options with
    ⟨error, -, heq⟩ | ⟨rowIds, t', -, hcoherent, hdata, heq⟩
  · rw [heq]
    exact h
  · rw [heq]
    exact ⟨hcoherent, hdata.typed (h.typed.withRows fun rowId r hr ↦
      h.typed.rowTyped (getElem?_erased_eq_some hr))⟩

/-- The column an index is declared on is one of the table, by the very name it is declared with:
what `create_index` and `create_fulltext_index_with_options` do not check. -/
def NamesColumn (t : Table) (column : String) (fulltext : Bool) : Prop :=
  ∃ c ∈ t.columns, c.name = column ∧ (fulltext = true → c.ty = .text)

omit [Platform] in
theorem Typed.insertIndex {t : Table} (h : t.Typed options) {name column : String}
    (hname : name ∉ t.fulltextIndexes) (hcolumn : ∃ c ∈ t.columns, c.name = column) :
    { t with indexes := t.indexes.insert name ⟨column, ∅⟩ }.Typed options := by
  refine { h with indexNames := fun n hn ↦ ?_, indexColumn := fun n index hn ↦ ?_ }
  · rw [Std.ExtTreeMap.mem_insert, Std.LawfulEqCmp.compare_eq_iff_eq] at hn
    rcases hn with rfl | hn
    · exact hname
    · exact h.indexNames n hn
  · rw [BTree.getElem?_insert] at hn
    split at hn
    · obtain rfl := Option.some.inj hn
      exact hcolumn
    · exact h.indexColumn n index hn

omit [Platform] in
theorem Typed.insertFulltextIndex {t : Table} (h : t.Typed options) {name column : String}
    (hname : name ∉ t.indexes) (hcolumn : ∃ c ∈ t.columns, c.name = column ∧ c.ty = .text) :
    { t with fulltextIndexes := t.fulltextIndexes.insert name ⟨column, ∅⟩ }.Typed options := by
  refine { h with indexNames := fun n hn ↦ ?_, fulltextColumn := fun n index hn ↦ ?_ }
  · rw [Std.ExtTreeMap.mem_insert, Std.LawfulEqCmp.compare_eq_iff_eq, not_or]
    exact ⟨fun heq ↦ hname (heq ▸ hn), h.indexNames n hn⟩
  · rw [BTree.getElem?_insert] at hn
    split at hn
    · obtain rfl := Option.some.inj hn
      exact hcolumn
    · exact h.fulltextColumn n index hn

theorem createIndex_wellFormed {t : Table} (h : t.WellFormed options) {name column : String}
    (hcolumn : ∀ c, t.column column = .ok c → name ∉ t.indexes → name ∉ t.fulltextIndexes →
      t.NamesColumn column false) : (t.createIndex name column).2.WellFormed options := by
  rcases createIndex_cases h.coherent name column with
    ⟨error, heq⟩ | ⟨c, t', hc, hname, hfulltext, hcoherent, hdata, heq⟩
  · rw [heq]
    exact h
  · rw [heq]
    obtain ⟨c', hc', hcolumn, -⟩ := hcolumn c hc hname hfulltext
    exact ⟨hcoherent, hdata.typed (h.typed.insertIndex hfulltext ⟨c', hc', hcolumn⟩)⟩

theorem createFulltextIndexWithOptions_wellFormed {t : Table} (h : t.WellFormed options)
    {name column : String}
    (hcolumn : ∀ c, t.column column = .ok c → c.ty = .text → name ∉ t.indexes →
      name ∉ t.fulltextIndexes → t.NamesColumn column true) :
    (t.createFulltextIndexWithOptions name column options).2.WellFormed options := by
  rcases createFulltextIndexWithOptions_cases h.coherent name column options with
    ⟨error, heq⟩ | ⟨c, t', hc, htext, hname, hfulltext, hcoherent, hdata, heq⟩
  · rw [heq]
    exact h
  · rw [heq]
    obtain ⟨c', hc', hcolumn, hty⟩ := hcolumn c hc htext hname hfulltext
    exact ⟨hcoherent, hdata.typed (h.typed.insertFulltextIndex hname ⟨c', hc', hcolumn, hty rfl⟩)⟩

end Platform

/-! ## New tables -/

theorem checkColumns_eq_ok {columns : List Column} {seen : BTreeSet String}
    {primaryKey found : Option String} (h : checkColumns columns seen primaryKey = .ok found) :
    (columns.map (·.name)).Nodup ∧ (∀ c ∈ columns, c.name ∉ seen) ∧
      primaryKey.toList ++ (columns.filter (·.primaryKey)).map (·.name) = found.toList := by
  induction columns generalizing seen primaryKey with
  | nil =>
    obtain rfl := Except.ok.inj h
    simp
  | cons column columns ih =>
    rw [checkColumns] at h
    split at h
    · cases h
    · rename_i hnew
      have key {pk : Option String}
          (h : checkColumns columns (seen.insert column.name) pk = .ok found) :
          ((column :: columns).map (·.name)).Nodup ∧ ∀ c ∈ column :: columns, c.name ∉ seen := by
        obtain ⟨hnodup, hseen, -⟩ := ih h
        simp only [BTree.mem_insert_set, not_or] at hseen
        rw [List.map_cons, List.nodup_cons, List.mem_map, List.forall_mem_cons]
        exact ⟨⟨fun ⟨c, hc, hname⟩ ↦ (hseen c hc).1 hname.symm, hnodup⟩, hnew,
          fun c hc ↦ (hseen c hc).2⟩
      split at h
      · rename_i hprimary
        split at h
        · cases h
        · rename_i hnone
          rw [Option.not_isSome_iff_eq_none] at hnone
          obtain ⟨hnodup, hseen⟩ := key h
          refine ⟨hnodup, hseen, ?_⟩
          rw [← (ih h).2.2, hnone, List.filter_cons_of_pos hprimary]
          rfl
      · rename_i hprimary
        obtain ⟨hnodup, hseen⟩ := key h
        exact ⟨hnodup, hseen, by rw [← (ih h).2.2, List.filter_cons_of_neg hprimary]⟩

/-- **A new table is well formed.** -/
theorem new_wellFormed {name : String} {columns : List Column} {t : Table}
    (h : Table.new name columns = .ok t) : t.WellFormed options := by
  refine ⟨(coherent_new h).1, ?_⟩
  rw [Table.new] at h
  cases hcheck : checkColumns columns ∅ none with
  | error error => simp [hcheck, bind, Except.bind] at h
  | ok primaryKey =>
    obtain ⟨hnodup, -, hprimary⟩ := checkColumns_eq_ok hcheck
    simp only [hcheck, bind, Except.bind, pure, Except.pure, Except.ok.injEq] at h
    subst h
    refine ⟨hnodup, hprimary, ?_, ?_, ?_, ?_, ?_⟩ <;> simp

end Table

end Fsql
