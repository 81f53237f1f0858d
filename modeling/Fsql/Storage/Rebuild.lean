import Fsql.Library.DerivedIndex
import Fsql.Storage.Table

/-!
# What rebuilding the derived maps does

`rebuild_indexes_with_options` empties the derived maps of a table and enters the rows again, one
after the other.  Every operation that changes rows ends with it, so this is the one place where
the maps of a table have to be shown right:

* `Table.rebuild_ok_iff` — it succeeds exactly when the rows have distinct, non-null primary keys
  and the indexed values are finite;
* `Table.rebuild_exact` — then the primary-key map, every secondary index and every full-text index
  is what `DerivedIndex` says an index of the rows is;
* `Table.rebuild_sameData` — whether it succeeds or not, it changes nothing else.
-/

set_option autoImplicit false

namespace Fsql

open DerivedIndex

/-! ## The keys of a row -/

/-- The keys under which a row stands in an index of a column: one, if the row has a value there
that has a key. -/
def columnKeys (column : String) (row : Row) : List String :=
  match row[column]? with
  | some value => (indexKey value).toOption.toList
  | none => []

/-- The primary key of a row: the index key of a value that is not Null. -/
def primaryKeyOf (primaryKey : Option String) (row : Row) : Option String :=
  match primaryKey with
  | none => none
  | some column =>
    match row[column]? with
    | none | some .null => none
    | some value => (indexKey value).toOption

theorem mem_columnKeys {column key : String} {row : Row} :
    key ∈ columnKeys column row ↔ ∃ value, row[column]? = some value ∧
      indexKey value = .ok key := by
  rw [columnKeys]
  cases hrow : row[column]? with
  | none => simp
  | some value => cases hkey : indexKey value <;> simp [hkey, Except.toOption, eq_comm]

theorem primaryKeyOf_eq_some {primaryKey : Option String} {row : Row} {key : String} :
    primaryKeyOf primaryKey row = some key ↔
      ∃ column value, primaryKey = some column ∧ row[column]? = some value ∧ value ≠ .null ∧
        indexKey value = .ok key := by
  cases primaryKey with
  | none => simp [primaryKeyOf]
  | some column =>
    cases hrow : row[column]? with
    | none => simp [primaryKeyOf, hrow]
    | some value =>
      cases hkey : indexKey value <;> cases value <;>
        simp_all [primaryKeyOf, Except.toOption]

/-- The keys under which a row stands in a full-text index of a column. -/
def columnTokens [Platform] (tokenizer : FullTextTokenizer) (column : String) (row : Row) :
    List String :=
  match row[column]? with
  | some (.text text) => tokenize text tokenizer
  | _ => []

/-! ## Entering one row -/

/-- Enter a row into a secondary index. -/
def Index.enterRow (index : Index) (rowId : RowId) (row : Row) : Index :=
  { index with map := enter (columnKeys index.column) rowId row index.map }

/-- Enter a row into a full-text index. -/
def Index.enterText [Platform] (tokenizer : FullTextTokenizer) (index : Index) (rowId : RowId)
    (row : Row) : Index :=
  { index with map := enter (columnTokens tokenizer index.column) rowId row index.map }

/-- The values of the indexed columns of a row are finite. -/
def Indexable (columns : List (String × String)) (row : Row) : Prop :=
  ∀ p ∈ columns, ∀ value, row[p.2]? = some value → value.isFinite = true

/-- A list of names and columns describes a map of indexes. -/
structure Describes (columns : List (String × String)) (indexes : BTreeMap String Index) :
    Prop where
  /-- Every name stands once. -/
  nodup : (columns.map Prod.fst).Nodup
  /-- A described index has the column of its description. -/
  column (p : String × String) (index : Index) :
    p ∈ columns → indexes[p.1]? = some index → index.column = p.2

theorem rebuildPrimary_ok_iff (primaryKey : Option String) (rowId : RowId) (row : Row)
    (primary : BTreeMap String RowId) :
    (rebuildPrimary primaryKey rowId row primary).1 = .ok () ↔
      (primaryKey.isSome = true →
        ∃ key, primaryKeyOf primaryKey row = some key ∧ key ∉ primary) := by
  cases primaryKey with
  | none => simp [rebuildPrimary]
  | some column =>
    cases hrow : row[column]? with
    | none => simp [rebuildPrimary, primaryKeyOf, hrow]
    | some value =>
      cases hkey : indexKey value <;> cases value <;>
        simp_all [rebuildPrimary, primaryKeyOf, Except.toOption]

theorem rebuildPrimary_snd {primaryKey : Option String} {rowId : RowId} {row : Row}
    {primary : BTreeMap String RowId}
    (h : (rebuildPrimary primaryKey rowId row primary).1 = .ok ()) :
    (rebuildPrimary primaryKey rowId row primary).2 =
      enterUnique (primaryKeyOf primaryKey) rowId row primary := by
  cases primaryKey with
  | none => rfl
  | some column =>
    obtain ⟨key, hprimary, -⟩ := (rebuildPrimary_ok_iff _ _ _ _).mp h rfl
    obtain ⟨_, value, hcolumn, hrow, hnull, hkey⟩ := primaryKeyOf_eq_some.mp hprimary
    obtain rfl := Option.some.inj hcolumn
    rw [enterUnique, hprimary]
    cases value <;> simp_all [rebuildPrimary]

section Secondary

variable {rowId : RowId} {row : Row} {name column : String} {columns : List (String × String)}
variable {indexes : BTreeMap String Index}

theorem rebuildSecondary_cons_none (hrow : row[column]? = none) :
    rebuildSecondary rowId row ((name, column) :: columns) indexes =
      rebuildSecondary rowId row columns indexes := by
  rw [rebuildSecondary, hrow]

theorem rebuildSecondary_cons_some {value : Value} {key : String}
    (hrow : row[column]? = some value) (hkey : indexKey value = .ok key) :
    rebuildSecondary rowId row ((name, column) :: columns) indexes =
      rebuildSecondary rowId row columns (indexes.modify name (·.insert key rowId)) := by
  rw [rebuildSecondary, hrow]
  simp only [hkey]

theorem rebuildSecondary_cons_error {value : Value} {error : Error}
    (hrow : row[column]? = some value) (hkey : indexKey value = .error error) :
    rebuildSecondary rowId row ((name, column) :: columns) indexes = (.error error, indexes) := by
  rw [rebuildSecondary, hrow]
  simp only [hkey]

/-- A row can be entered into the secondary indexes exactly when its indexed values are finite. -/
theorem rebuildSecondary_ok_iff :
    (rebuildSecondary rowId row columns indexes).1 = .ok () ↔ Indexable columns row := by
  induction columns generalizing indexes with
  | nil => simp [rebuildSecondary, Indexable]
  | cons p columns ih =>
    obtain ⟨name, column⟩ := p
    rw [Indexable, List.forall_mem_cons, ← Indexable]
    cases hrow : row[column]? with
    | none => simp [rebuildSecondary_cons_none hrow, ih]
    | some value =>
      cases hkey : indexKey value with
      | error error =>
        have hinf : ¬value.isFinite = true := fun h ↦ by simp [indexKey_eq, h] at hkey
        simp [rebuildSecondary_cons_error hrow hkey, hinf]
      | ok key => simp [rebuildSecondary_cons_some hrow hkey, ih, (indexKey_eq_ok.mp hkey).1]

/-- Entering a row leaves the columns of all indexes as they are, also when it fails. -/
theorem column_rebuildSecondary (n : String) :
    (rebuildSecondary rowId row columns indexes).2[n]?.map (·.column) =
      indexes[n]?.map (·.column) := by
  induction columns generalizing indexes with
  | nil => rfl
  | cons p columns ih =>
    obtain ⟨name, column⟩ := p
    cases hrow : row[column]? with
    | none => rw [rebuildSecondary_cons_none hrow, ih]
    | some value =>
      cases hkey : indexKey value with
      | error error => rw [rebuildSecondary_cons_error hrow hkey]
      | ok key =>
        rw [rebuildSecondary_cons_some hrow hkey, ih, BTree.getElem?_modify]
        split
        · rename_i hname
          subst hname
          cases indexes[name]? <;> rfl
        · rfl

/-- What a row adds to the secondary indexes. -/
theorem getElem?_rebuildSecondary (hok : Indexable columns row) (hd : Describes columns indexes)
    (n : String) :
    (rebuildSecondary rowId row columns indexes).2[n]? =
      if n ∈ columns.map Prod.fst then indexes[n]?.map (·.enterRow rowId row)
      else indexes[n]? := by
  induction columns generalizing indexes with
  | nil => simp [rebuildSecondary]
  | cons p columns ih =>
    obtain ⟨name, column⟩ := p
    obtain ⟨hnodup, hcolumn⟩ := hd
    rw [List.map_cons, List.nodup_cons] at hnodup
    rw [Indexable, List.forall_mem_cons, ← Indexable] at hok
    simp only [List.map_cons, List.mem_cons]
    cases hrow : row[column]? with
    | none =>
      have hd : Describes columns indexes :=
        ⟨hnodup.2, fun q index hq ↦ hcolumn q index (List.mem_cons_of_mem _ hq)⟩
      rw [rebuildSecondary_cons_none hrow, ih hok.2 hd]
      by_cases hn : n = name
      · subst hn
        rw [if_neg hnodup.1, if_pos (.inl rfl)]
        cases hindex : indexes[n]? with
        | none => rfl
        | some index =>
          obtain rfl := hcolumn (n, column) index List.mem_cons_self hindex
          simp [Index.enterRow, enter, columnKeys, hrow]
      · exact if_congr (or_iff_right hn).symm rfl rfl
    | some value =>
      obtain ⟨key, hkey⟩ : ∃ key, indexKey value = .ok key :=
        ⟨_, indexKey_eq_ok.mpr ⟨hok.1 value hrow, rfl⟩⟩
      have hd : Describes columns (indexes.modify name (·.insert key rowId)) := by
        refine ⟨hnodup.2, fun q index hq hindex ↦ ?_⟩
        have hne : name ≠ q.1 := fun h ↦ hnodup.1 (List.mem_map.mpr ⟨q, hq, h.symm⟩)
        rw [BTree.getElem?_modify, if_neg hne] at hindex
        exact hcolumn q index (List.mem_cons_of_mem _ hq) hindex
      rw [rebuildSecondary_cons_some hrow hkey, ih hok.2 hd, BTree.getElem?_modify]
      by_cases hn : n = name
      · subst hn
        rw [if_neg hnodup.1, if_pos rfl, if_pos (.inl rfl)]
        cases hindex : indexes[n]? with
        | none => rfl
        | some index =>
          obtain rfl := hcolumn (n, column) index List.mem_cons_self hindex
          simp [Index.enterRow, enter, columnKeys, hrow, hkey, Index.insert, Except.toOption]
      · rw [if_neg (Ne.symm hn)]
        exact if_congr (or_iff_right hn).symm rfl rfl

end Secondary

section Fulltext

variable {tokenizer : FullTextTokenizer} {rowId : RowId} {row : Row}
variable {columns : List (String × String)} {indexes : BTreeMap String Index}

/-- Entering tokens one by one into an index of a map rewrites that index once. -/
theorem getElem?_foldl_modify_insert (tokens : List String) (name n : String) :
    (tokens.foldl (fun indexes token ↦ indexes.modify name (·.insert token rowId))
        indexes)[n]? =
      if name = n then
        indexes[n]?.map fun index ↦
          { index with map := tokens.foldl (fun m token ↦ m.insert token rowId) index.map }
      else indexes[n]? := by
  induction tokens generalizing indexes with
  | nil => simp
  | cons token tokens ih =>
    rw [List.foldl_cons, ih, BTree.getElem?_modify]
    by_cases hn : name = n
    · subst hn
      cases indexes[name]? <;> simp [Index.insert]
    · simp [hn]

/-- What a row adds to the full-text indexes. -/
theorem getElem?_rebuildFulltext [Platform] (hd : Describes columns indexes) (n : String) :
    (rebuildFulltext tokenizer rowId row columns indexes)[n]? =
      if n ∈ columns.map Prod.fst then indexes[n]?.map (·.enterText tokenizer rowId row)
      else indexes[n]? := by
  induction columns generalizing indexes with
  | nil => simp [rebuildFulltext]
  | cons p columns ih =>
    obtain ⟨name, column⟩ := p
    obtain ⟨hnodup, hcolumn⟩ := hd
    rw [List.map_cons, List.nodup_cons] at hnodup
    have hstep : rebuildFulltext tokenizer rowId row ((name, column) :: columns) indexes =
        rebuildFulltext tokenizer rowId row columns
          ((columnTokens tokenizer column row).foldl
            (fun indexes token ↦ indexes.modify name (·.insert token rowId)) indexes) := by
      rw [rebuildFulltext, columnTokens]
      split <;> simp_all
    have hd : Describes columns ((columnTokens tokenizer column row).foldl
        (fun indexes token ↦ indexes.modify name (·.insert token rowId)) indexes) := by
      refine ⟨hnodup.2, fun q index hq hindex ↦ ?_⟩
      have hne : name ≠ q.1 := fun h ↦ hnodup.1 (List.mem_map.mpr ⟨q, hq, h.symm⟩)
      rw [getElem?_foldl_modify_insert, if_neg hne] at hindex
      exact hcolumn q index (List.mem_cons_of_mem _ hq) hindex
    rw [hstep, ih hd, getElem?_foldl_modify_insert]
    simp only [List.map_cons, List.mem_cons]
    by_cases hn : n = name
    · subst hn
      rw [if_neg hnodup.1, if_pos rfl, if_pos (.inl rfl)]
      cases hindex : indexes[n]? with
      | none => rfl
      | some index =>
        obtain rfl := hcolumn (n, column) index List.mem_cons_self hindex
        simp [Index.enterText, enter]
    · rw [if_neg (Ne.symm hn)]
      exact if_congr (or_iff_right hn).symm rfl rfl

/-- Entering a row leaves the columns of all full-text indexes as they are. -/
theorem column_rebuildFulltext [Platform] (n : String) :
    (rebuildFulltext tokenizer rowId row columns indexes)[n]?.map (·.column) =
      indexes[n]?.map (·.column) := by
  induction columns generalizing indexes with
  | nil => rfl
  | cons p columns ih =>
    obtain ⟨name, column⟩ := p
    rw [rebuildFulltext]
    split
    · rw [ih, getElem?_foldl_modify_insert]
      split
      · cases indexes[n]? <;> rfl
      · rfl
    · exact ih

end Fulltext

/-! ## Entering all rows -/

namespace Table

/-- Two tables that differ at most in the contents of their derived maps. -/
structure SameData (t t' : Table) : Prop where
  name : t'.name = t.name
  columns : t'.columns = t.columns
  rows : t'.rows = t.rows
  nextRowId : t'.nextRowId = t.nextRowId
  primaryKey : t'.primaryKey = t.primaryKey
  indexes (n : String) : t'.indexes[n]?.map (·.column) = t.indexes[n]?.map (·.column)
  fulltextIndexes (n : String) :
    t'.fulltextIndexes[n]?.map (·.column) = t.fulltextIndexes[n]?.map (·.column)

theorem SameData.refl (t : Table) : t.SameData t :=
  ⟨rfl, rfl, rfl, rfl, rfl, fun _ ↦ rfl, fun _ ↦ rfl⟩

theorem SameData.symm {t t' : Table} (h : t.SameData t') : t'.SameData t :=
  ⟨h.name.symm, h.columns.symm, h.rows.symm, h.nextRowId.symm, h.primaryKey.symm,
    fun n ↦ (h.indexes n).symm, fun n ↦ (h.fulltextIndexes n).symm⟩

theorem SameData.trans {t t' t'' : Table} (h : t.SameData t') (h' : t'.SameData t'') :
    t.SameData t'' :=
  ⟨h'.name.trans h.name, h'.columns.trans h.columns, h'.rows.trans h.rows,
    h'.nextRowId.trans h.nextRowId, h'.primaryKey.trans h.primaryKey,
    fun n ↦ (h'.indexes n).trans (h.indexes n),
    fun n ↦ (h'.fulltextIndexes n).trans (h.fulltextIndexes n)⟩

/-- The rows have distinct primary keys, none of them Null, if the table has a primary key. -/
def KeysOk (t : Table) : Prop :=
  t.primaryKey.isSome = true → DistinctKeys (primaryKeyOf t.primaryKey) t.rows

instance decidableKeysOk (t : Table) : Decidable t.KeysOk :=
  inferInstanceAs (Decidable (_ → _))

/-- The values a secondary index is built from are finite. -/
def IndexesFinite (t : Table) : Prop :=
  ∀ (n : String) (index : Index), t.indexes[n]? = some index →
    ∀ (rowId : RowId) (row : Row), t.rows[rowId]? = some row →
      ∀ value, row[index.column]? = some value → value.isFinite = true

theorem cleared_sameData (t : Table) : t.SameData t.cleared := by
  refine ⟨rfl, rfl, rfl, rfl, rfl, fun n ↦ ?_, fun n ↦ ?_⟩ <;>
    rw [cleared, Std.ExtTreeMap.getElem?_map, Option.map_map] <;> rfl

theorem SameData.cleared_eq {t t' : Table} (h : t.SameData t') : t'.cleared = t.cleared := by
  have hmaps {indexes indexes' : BTreeMap String Index}
      (hcolumns : ∀ n : String, indexes'[n]?.map (·.column) = indexes[n]?.map (·.column)) :
      (indexes'.map fun _ index ↦ ({ index with map := ∅ } : Index)) =
        indexes.map fun _ index ↦ { index with map := ∅ } := by
    refine Std.ExtTreeMap.ext_getElem? fun n ↦ ?_
    rw [Std.ExtTreeMap.getElem?_map, Std.ExtTreeMap.getElem?_map]
    have hcolumn := hcolumns n
    rcases hindex : indexes[n]? with _ | index <;> rcases hindex' : indexes'[n]? with _ | index' <;>
      rw [hindex, hindex'] at hcolumn
    · cases hcolumn
    · cases hcolumn
    · simp only [Option.map_some, Option.some.injEq] at hcolumn ⊢
      rw [hcolumn]
  obtain ⟨hname, hcolumns, hrows, hnext, hprimary, hindexes, hfts⟩ := h
  cases t
  cases t'
  simp only at hname hcolumns hrows hnext hprimary hindexes hfts
  subst hname hcolumns hrows hnext hprimary
  simp only [cleared, hmaps hindexes, hmaps hfts]

theorem indexColumns_cleared (t : Table) :
    indexColumns t.cleared.indexes = indexColumns t.indexes ∧
      indexColumns t.cleared.fulltextIndexes = indexColumns t.fulltextIndexes := by
  constructor <;>
    rw [indexColumns, indexColumns, cleared, Std.ExtTreeMap.toList_map, List.map_map] <;> rfl

/-! ### Descriptions of maps of indexes -/

/-- Every index of a map is described by a list of names and columns. -/
def DescribesAll (columns : List (String × String)) (indexes : BTreeMap String Index) : Prop :=
  Describes columns indexes ∧
    ∀ (n : String) (index : Index), indexes[n]? = some index → n ∈ columns.map Prod.fst

theorem describesAll_of_column_eq {columns : List (String × String)}
    {indexes indexes' : BTreeMap String Index} (h : DescribesAll columns indexes)
    (heq : ∀ n : String, indexes'[n]?.map (·.column) = indexes[n]?.map (·.column)) :
    DescribesAll columns indexes' := by
  refine ⟨⟨h.1.nodup, fun p index hp hindex ↦ ?_⟩, fun n index hindex ↦ ?_⟩
  · have hcolumn := heq p.1
    rw [hindex, Option.map_some, eq_comm, Option.map_eq_some_iff] at hcolumn
    obtain ⟨index', hindex', hcolumn⟩ := hcolumn
    exact hcolumn.symm.trans (h.1.column p index' hp hindex')
  · have hcolumn := heq n
    rw [hindex, Option.map_some, eq_comm, Option.map_eq_some_iff] at hcolumn
    obtain ⟨index', hindex', -⟩ := hcolumn
    exact h.2 n index' hindex'

theorem describesAll_indexColumns (indexes : BTreeMap String Index) :
    DescribesAll (indexColumns indexes) indexes := by
  have hmap : (indexColumns indexes).map Prod.fst = indexes.toList.map Prod.fst := by
    rw [indexColumns, List.map_map]
    rfl
  refine ⟨⟨hmap ▸ BTree.nodup_keys_toList indexes, fun p index hp hindex ↦ ?_⟩,
    fun n index hindex ↦ ?_⟩
  · obtain ⟨q, hq, rfl⟩ := List.mem_map.mp hp
    have hq' := (mem_toList_iff indexes q.1 q.2).mp hq
    rw [hq', Option.some_inj] at hindex
    rw [hindex]
  · rw [hmap]
    exact List.mem_map.mpr ⟨(n, index), (mem_toList_iff indexes n index).mpr hindex, rfl⟩

/-! ### The loop over the rows -/

section Rebuild

variable [Platform] {primaryKey : Option String} {columns fulltextColumns : List (String × String)}
variable {tokenizer : FullTextTokenizer}

theorem rebuildRows_sameData (l : List (RowId × Row)) (t : Table) :
    t.SameData (rebuildRows primaryKey columns fulltextColumns tokenizer l t).2 := by
  induction l generalizing t with
  | nil => exact .refl t
  | cons p l ih =>
    obtain ⟨rowId, row⟩ := p
    rw [rebuildRows]
    rcases hprimary : rebuildPrimary primaryKey rowId row t.primary with ⟨_ | _, primary⟩
    · exact ⟨rfl, rfl, rfl, rfl, rfl, fun _ ↦ rfl, fun _ ↦ rfl⟩
    · have hcolumn := @column_rebuildSecondary rowId row columns t.indexes
      rcases hsecondary : rebuildSecondary rowId row columns t.indexes with ⟨_ | _, indexes⟩
      · rw [hsecondary] at hcolumn
        exact ⟨rfl, rfl, rfl, rfl, rfl, hcolumn, fun _ ↦ rfl⟩
      · rw [hsecondary] at hcolumn
        refine SameData.trans ?_ (ih _)
        exact ⟨rfl, rfl, rfl, rfl, rfl, hcolumn, column_rebuildFulltext⟩

/-- One step of the loop over the rows, when it succeeds. -/
def enterRow (primaryKey : Option String) (columns fulltextColumns : List (String × String))
    (tokenizer : FullTextTokenizer) (rowId : RowId) (row : Row) (t : Table) : Table :=
  { t with
    primary := enterUnique (primaryKeyOf primaryKey) rowId row t.primary
    indexes := (rebuildSecondary rowId row columns t.indexes).2
    fulltextIndexes := rebuildFulltext tokenizer rowId row fulltextColumns t.fulltextIndexes }

/-- The loop over the rows succeeds exactly when each row has a new primary key and finite indexed
values. -/
theorem rebuildRows_ok_iff (l : List (RowId × Row)) (t : Table) :
    (rebuildRows primaryKey columns fulltextColumns tokenizer l t).1 = .ok () ↔
      (primaryKey.isSome = true → Admits (primaryKeyOf primaryKey) l t.primary) ∧
        ∀ p ∈ l, Indexable columns p.2 := by
  induction l generalizing t with
  | nil => simp [rebuildRows, Admits]
  | cons p l ih =>
    obtain ⟨rowId, row⟩ := p
    have hprimary := rebuildPrimary_ok_iff primaryKey rowId row t.primary
    have hsecondary := @rebuildSecondary_ok_iff rowId row columns t.indexes
    rw [List.forall_mem_cons, rebuildRows, Admits]
    rcases hp : rebuildPrimary primaryKey rowId row t.primary with ⟨_ | _, primary⟩
    · rw [hp] at hprimary
      simp only [reduceCtorEq, false_iff] at hprimary ⊢
      rintro ⟨hadmits, -⟩
      refine hprimary fun hsome ↦ ?_
      obtain ⟨key, hkey, hmem, -⟩ := hadmits hsome
      exact ⟨key, hkey, hmem⟩
    · have hsnd := rebuildPrimary_snd (congrArg Prod.fst hp)
      rw [hp] at hprimary hsnd
      rcases hs : rebuildSecondary rowId row columns t.indexes with ⟨_ | _, indexes⟩
      · rw [hs] at hsecondary
        simp only [reduceCtorEq, false_iff] at hsecondary ⊢
        exact fun h ↦ hsecondary h.2.1
      · rw [hs] at hsecondary
        simp only [true_iff] at hprimary hsecondary
        simp only [ih, hsecondary, true_and]
        simp only at hsnd
        rw [hsnd]
        refine and_congr_left fun _ ↦ forall_congr' fun hsome ↦ ?_
        obtain ⟨key, hkey, hmem⟩ := hprimary hsome
        rw [enterUnique, hkey]
        simp [hmem]

/-- When the loop over the rows succeeds, it enters each of them into each of the maps. -/
theorem rebuildRows_eq_foldl {l : List (RowId × Row)} {t : Table}
    (h : (rebuildRows primaryKey columns fulltextColumns tokenizer l t).1 = .ok ()) :
    (rebuildRows primaryKey columns fulltextColumns tokenizer l t).2 =
      l.foldl (fun t p ↦ enterRow primaryKey columns fulltextColumns tokenizer p.1 p.2 t) t := by
  induction l generalizing t with
  | nil => rfl
  | cons p l ih =>
    obtain ⟨rowId, row⟩ := p
    rw [rebuildRows] at h ⊢
    rw [List.foldl_cons]
    rcases hp : rebuildPrimary primaryKey rowId row t.primary with ⟨_ | _, primary⟩
    · simp [hp] at h
    · have hsnd := rebuildPrimary_snd (congrArg Prod.fst hp)
      rcases hs : rebuildSecondary rowId row columns t.indexes with ⟨_ | _, indexes⟩
      · simp [hp, hs] at h
      · simp only [hp, hs] at h hsnd ⊢
        rw [ih h, enterRow, hs, hsnd]

theorem primary_foldl_enterRow (l : List (RowId × Row)) (t : Table) :
    (l.foldl (fun t p ↦ enterRow primaryKey columns fulltextColumns tokenizer p.1 p.2 t)
        t).primary =
      l.foldl (fun m p ↦ enterUnique (primaryKeyOf primaryKey) p.1 p.2 m) t.primary := by
  induction l generalizing t with
  | nil => rfl
  | cons p l ih => exact ih _

theorem indexes_foldl_enterRow {l : List (RowId × Row)} {t : Table}
    (hd : DescribesAll columns t.indexes) (hok : ∀ p ∈ l, Indexable columns p.2) (n : String) :
    (l.foldl (fun t p ↦ enterRow primaryKey columns fulltextColumns tokenizer p.1 p.2 t)
        t).indexes[n]? =
      t.indexes[n]?.map fun index ↦
        { index with
          map := l.foldl (fun m p ↦ enter (columnKeys index.column) p.1 p.2 m) index.map } := by
  induction l generalizing t with
  | nil => simp
  | cons p l ih =>
    rw [List.forall_mem_cons] at hok
    have hstep := @getElem?_rebuildSecondary p.1 _ _ _ hok.1 hd.1
    have hd' : DescribesAll columns (rebuildSecondary p.1 p.2 columns t.indexes).2 :=
      describesAll_of_column_eq hd column_rebuildSecondary
    rw [List.foldl_cons, ih hd' hok.2, enterRow, hstep]
    cases hindex : t.indexes[n]? with
    | none => simp
    | some index => simp [hd.2 n index hindex, Index.enterRow]

theorem fulltextIndexes_foldl_enterRow {l : List (RowId × Row)} {t : Table}
    (hd : DescribesAll fulltextColumns t.fulltextIndexes) (n : String) :
    (l.foldl (fun t p ↦ enterRow primaryKey columns fulltextColumns tokenizer p.1 p.2 t)
        t).fulltextIndexes[n]? =
      t.fulltextIndexes[n]?.map fun index ↦
        { index with
          map := l.foldl (fun m p ↦ enter (columnTokens tokenizer index.column) p.1 p.2 m)
            index.map } := by
  induction l generalizing t with
  | nil => simp
  | cons p l ih =>
    have hstep := @getElem?_rebuildFulltext tokenizer p.1 p.2 _ _ _ hd.1
    have hd' : DescribesAll fulltextColumns
        (rebuildFulltext tokenizer p.1 p.2 fulltextColumns t.fulltextIndexes) :=
      describesAll_of_column_eq hd column_rebuildFulltext
    rw [List.foldl_cons, ih hd', enterRow, hstep]
    cases hindex : t.fulltextIndexes[n]? with
    | none => simp
    | some index => simp [hd.2 n index hindex, Index.enterText]

/-- **A rebuild changes nothing but the contents of the derived maps.** -/
theorem rebuild_sameData (t : Table) (options : TableRuntimeOptions) :
    t.SameData (t.rebuildIndexesWithOptions options).2 :=
  t.cleared_sameData.trans (rebuildRows_sameData _ _)

/-- **When a rebuild succeeds.** -/
theorem rebuild_ok_iff (t : Table) (options : TableRuntimeOptions) :
    (t.rebuildIndexesWithOptions options).1 = .ok () ↔ t.KeysOk ∧ t.IndexesFinite := by
  rw [rebuildIndexesWithOptions, rebuildRows_ok_iff]
  refine and_congr ?_ ⟨fun h n index hindex rowId row hrow ↦ ?_, fun h p hp q hq ↦ ?_⟩
  · exact forall_congr' fun _ ↦ admits_toList _ _
  · exact h _ ((mem_toList_iff _ rowId row).mpr hrow) _
      (List.mem_map.mpr ⟨_, (mem_toList_iff _ n index).mpr hindex, rfl⟩)
  · obtain ⟨⟨n, index⟩, hmem, rfl⟩ := List.mem_map.mp hq
    exact h n index ((mem_toList_iff _ n index).mp hmem) p.1 p.2 ((mem_toList_iff _ _ _).mp hp)

/-- Where no indexed value is in the way, only the primary keys decide how a rebuild ends. -/
theorem rebuildRows_fst_eq {columns' fulltextColumns' : List (String × String)}
    {tokenizer' : FullTextTokenizer} {l : List (RowId × Row)} {t t' : Table}
    (hprimary : t'.primary = t.primary) (hok : ∀ p ∈ l, Indexable columns p.2)
    (hok' : ∀ p ∈ l, Indexable columns' p.2) :
    (rebuildRows primaryKey columns' fulltextColumns' tokenizer' l t').1 =
      (rebuildRows primaryKey columns fulltextColumns tokenizer l t).1 := by
  induction l generalizing t t' with
  | nil => rfl
  | cons p l ih =>
    obtain ⟨rowId, row⟩ := p
    rw [List.forall_mem_cons] at hok hok'
    have hsecondary := (@rebuildSecondary_ok_iff rowId row columns t.indexes).mpr hok.1
    have hsecondary' := (@rebuildSecondary_ok_iff rowId row columns' t'.indexes).mpr hok'.1
    rw [rebuildRows, rebuildRows, hprimary]
    rcases hp : rebuildPrimary primaryKey rowId row t.primary with ⟨_ | _, primary⟩
    · rfl
    · rcases hs : rebuildSecondary rowId row columns t.indexes with ⟨result, indexes⟩
      rcases hs' : rebuildSecondary rowId row columns' t'.indexes with ⟨result', indexes'⟩
      rw [hs] at hsecondary
      rw [hs'] at hsecondary'
      simp only at hsecondary hsecondary'
      subst hsecondary hsecondary'
      exact ih rfl hok.2 hok'.2

/-- Two tables with the same rows and the same primary key, whose indexed values are finite, are
rebuilt with the same result. -/
theorem rebuild_fst_eq {t t' : Table} (hrows : t'.rows = t.rows)
    (hprimaryKey : t'.primaryKey = t.primaryKey) (hfinite : t.IndexesFinite)
    (hfinite' : t'.IndexesFinite) (options : TableRuntimeOptions) :
    (t'.rebuildIndexesWithOptions options).1 = (t.rebuildIndexesWithOptions options).1 := by
  have hindexable {s : Table} (h : s.IndexesFinite) :
      ∀ p ∈ s.rows.toList, Indexable (indexColumns s.indexes) p.2 := by
    intro p hp q hq
    obtain ⟨⟨n, index⟩, hmem, rfl⟩ := List.mem_map.mp hq
    exact h n index ((mem_toList_iff s.indexes n index).mp hmem) p.1 p.2
      ((mem_toList_iff s.rows _ _).mp hp)
  rw [rebuildIndexesWithOptions, rebuildIndexesWithOptions, hrows, hprimaryKey]
  exact rebuildRows_fst_eq rfl (hindexable hfinite) (hrows ▸ hindexable hfinite')

/-- The derived maps of a table are those of its rows. -/
structure Exact (tokenizer : FullTextTokenizer) (t : Table) : Prop where
  /-- The primary-key map sends each key to its row. -/
  primary : UniqueIndex (primaryKeyOf t.primaryKey) t.rows t.primary
  /-- A secondary index lists under each key the rows that have it. -/
  indexes (n : String) (index : Index) :
    t.indexes[n]? = some index → Inverts (columnKeys index.column) t.rows index.map
  /-- A full-text index lists under each token the rows that have it. -/
  fulltextIndexes (n : String) (index : Index) :
    t.fulltextIndexes[n]? = some index →
      Inverts (columnTokens tokenizer index.column) t.rows index.map

/-- **A successful rebuild makes the derived maps those of the rows.** -/
theorem rebuild_exact {t : Table} {options : TableRuntimeOptions}
    (h : (t.rebuildIndexesWithOptions options).1 = .ok ()) :
    Exact options.fulltextTokenizer (t.rebuildIndexesWithOptions options).2 := by
  have hdata := t.rebuild_sameData options
  obtain ⟨hkeys, hfinite⟩ := (t.rebuild_ok_iff options).mp h
  have hrebuilt := rebuildRows_eq_foldl h
  rw [← rebuildIndexesWithOptions] at hrebuilt
  have hd : DescribesAll (indexColumns t.indexes) t.cleared.indexes :=
    describesAll_of_column_eq (describesAll_indexColumns _) t.cleared_sameData.indexes
  have hdf : DescribesAll (indexColumns t.fulltextIndexes) t.cleared.fulltextIndexes :=
    describesAll_of_column_eq (describesAll_indexColumns _) t.cleared_sameData.fulltextIndexes
  have hindexable := ((rebuildRows_ok_iff _ _).mp h).2
  refine ⟨?_, fun n index hindex ↦ ?_, fun n index hindex ↦ ?_⟩
  · rw [hdata.rows, hdata.primaryKey, hrebuilt, primary_foldl_enterRow]
    rcases hpk : t.primaryKey with _ | column
    · -- without a primary key, nothing is entered
      have hnone : UniqueIndex (primaryKeyOf none) t.rows
          (t.rows.toList.foldl (fun m p ↦ enterUnique (primaryKeyOf none) p.1 p.2 m) ∅) := by
        have hfold (l : List (RowId × Row)) (m : BTreeMap String RowId) :
            l.foldl (fun m p ↦ enterUnique (primaryKeyOf none) p.1 p.2 m) m = m := by
          induction l with
          | nil => rfl
          | cons p l ih => exact ih
        rw [hfold]
        intro k i
        simp [primaryKeyOf]
      exact hnone
    · exact uniqueIndex_foldl_enterUnique (hpk ▸ hkeys (by rw [hpk]; rfl))
  · rw [hrebuilt, indexes_foldl_enterRow hd hindexable, cleared,
      Std.ExtTreeMap.getElem?_map, Option.map_map, Option.map_eq_some_iff] at hindex
    obtain ⟨index', -, rfl⟩ := hindex
    rw [hdata.rows]
    exact inverts_foldl_enter (columnKeys index'.column) t.rows
  · rw [hrebuilt, fulltextIndexes_foldl_enterRow hdf, cleared,
      Std.ExtTreeMap.getElem?_map, Option.map_map, Option.map_eq_some_iff] at hindex
    obtain ⟨index', -, rfl⟩ := hindex
    rw [hdata.rows]
    exact inverts_foldl_enter (columnTokens options.fulltextTokenizer index'.column) t.rows

end Rebuild

end Table

end Fsql
