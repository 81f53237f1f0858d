import Fsql.Storage.Coherent

/-!
# Which rows a filter finds

`matching_row_ids` looks a filter up in the primary-key map, in an index, or by scanning the rows.
In a coherent table whatever it finds are rows (`Table.matchingRowIds_mem`), and for an equality
the two ways of looking agree up to the sign of zeros (`Table.lookup_eq_scan_iff`): the keys of an
index are made from the bits of a value, while a scan compares floats as numbers.  Where they agree,
`SELECT`, `UPDATE` and `DELETE` do the same whatever indexes there are
(`Table.selectWithOptions_congr`, `Table.updateWithOptions_congr`, `Table.deleteWithOptions_congr`).
-/

set_option autoImplicit false

namespace Fsql

open DerivedIndex Std

/-! ## Equality up to the sign of zeros -/

/-- The number with the sign of a zero dropped. -/
def F64.unsignZero (x : F64) : F64 := if x.isZero then ⟨0⟩ else x

/-- The number with the sign of a zero dropped. -/
def F32.unsignZero (x : F32) : F32 := if x.isZero then ⟨0⟩ else x

/-- The value with the signs of all its zeros dropped. -/
def Value.unsignZero : Value → Value
  | .float x => .float x.unsignZero
  | .vector xs => .vector (xs.map F32.unsignZero)
  | .point p => .point ⟨p.lon.unsignZero, p.lat.unsignZero⟩
  | value => value

theorem F64.eq_iff_unsignZero {x y : F64} (hx : x.isFinite = true) (hy : y.isFinite = true) :
    x.eq y = true ↔ x.unsignZero = y.unsignZero := by
  have hzero : (⟨0⟩ : F64).isZero = true := by decide
  rw [F64.eq_iff hx hy, unsignZero, unsignZero]
  split <;> split <;> grind

theorem F32.eq_iff_unsignZero {x y : F32} (hx : x.isFinite = true) (hy : y.isFinite = true) :
    x.eq y = true ↔ x.unsignZero = y.unsignZero := by
  have hzero : (⟨0⟩ : F32).isZero = true := by decide
  rw [F32.eq_iff hx hy, unsignZero, unsignZero]
  split <;> split <;> grind

theorem vectorEq_iff {xs ys : List F32} (hx : xs.all F32.isFinite = true)
    (hy : ys.all F32.isFinite = true) :
    vectorEq xs ys = true ↔ xs.map F32.unsignZero = ys.map F32.unsignZero := by
  induction xs generalizing ys with
  | nil => cases ys <;> simp [vectorEq]
  | cons x xs ih =>
    cases ys with
    | nil => simp [vectorEq]
    | cons y ys =>
      rw [List.all_cons, Bool.and_eq_true] at hx hy
      rw [vectorEq, Bool.and_eq_true, F32.eq_iff_unsignZero hx.1 hy.1, ih hx.2 hy.2, List.map_cons,
        List.map_cons, List.cons.injEq]

/-- **Finite values are equal to the source's `==` when they differ at most in the sign of
zeros.** -/
theorem Value.eq_iff_of_isFinite {v w : Value} (hv : v.isFinite = true) (hw : w.isFinite = true) :
    v.eq w = true ↔ v.unsignZero = w.unsignZero := by
  cases v <;> cases w <;> simp only [Value.eq, unsignZero, reduceCtorEq, beq_iff_eq,
    Value.integer.injEq, Value.boolean.injEq, Value.text.injEq, Value.float.injEq,
    Value.vector.injEq, Value.point.injEq, Point.mk.injEq, Bool.false_eq_true]
  case float.float x y => exact F64.eq_iff_unsignZero hv hw
  case vector.vector xs ys => exact vectorEq_iff hv hw
  case point.point p q =>
    rw [isFinite, Point.isFinite, Bool.and_eq_true] at hv hw
    rw [Point.eq, Bool.and_eq_true, F64.eq_iff_unsignZero hv.1 hw.1,
      F64.eq_iff_unsignZero hv.2 hw.2]

namespace Table

/-! ## Finding rows -/

theorem mem_scan {t : Table} {p : Row → Bool} {rowId : RowId} :
    rowId ∈ t.scan p ↔ ∃ row, t.rows[rowId]? = some row ∧ p row = true := by
  rw [scan, List.mem_map]
  constructor
  · rintro ⟨⟨i, row⟩, hmem, rfl⟩
    rw [List.mem_filter, mem_toList_iff] at hmem
    exact ⟨row, hmem⟩
  · rintro ⟨row, hrow, hp⟩
    refine ⟨(rowId, row), ?_, rfl⟩
    rw [List.mem_filter, mem_toList_iff]
    exact ⟨hrow, hp⟩

theorem ordered_scan (t : Table) (p : Row → Bool) :
    (t.scan p).Pairwise (compare · · = .lt) := by
  have hordered : (t.rows.toList.filter fun entry ↦ p entry.2).Pairwise
      fun a b ↦ compare a.1 b.1 = .lt :=
    ExtTreeMap.ordered_keys_toList.filter _
  exact List.pairwise_map.mpr hordered

theorem indexOn_eq_some {indexes : BTreeMap String Index} {column name : String} {index : Index}
    (h : indexOn indexes column = some (name, index)) :
    indexes[name]? = some index ∧ index.column = column := by
  rw [indexOn] at h
  exact ⟨(mem_toList_iff indexes name index).mp (List.mem_of_find?_eq_some h),
    by simpa using List.find?_some h⟩

/-- The row ids of a full-text match are those listed under all its tokens. -/
theorem mem_foldl_inter {index : Index} {tokens : List String} {ids : BTreeSet RowId}
    {rowId : RowId} :
    rowId ∈ tokens.foldl (fun acc token ↦ acc ∩ index.map.lookup token) ids ↔
      rowId ∈ ids ∧ ∀ token ∈ tokens, rowId ∈ index.map.lookup token := by
  induction tokens generalizing ids with
  | nil => simp
  | cons token tokens ih =>
    rw [List.foldl_cons, ih, ExtTreeSet.mem_inter_iff, List.forall_mem_cons, and_assoc]

theorem mem_scan_equalsMatches {t : Table} (hc : t.Coherent) {column : String} {literal : Value}
    (hfinite : literal.isFinite = true) {rowId : RowId} :
    rowId ∈ t.scan (equalsMatches column literal) ↔ ∃ row value, t.rows[rowId]? = some row ∧
      row[column]? = some value ∧ value.unsignZero = literal.unsignZero := by
  rw [mem_scan]
  constructor
  · rintro ⟨row, hrow, hmatch⟩
    rw [equalsMatches] at hmatch
    split at hmatch
    · rename_i value hvalue
      exact ⟨row, value, hrow, hvalue,
        (Value.eq_iff_of_isFinite (hc.finite _ _ hrow _ _ hvalue) hfinite).mp hmatch⟩
    · cases hmatch
  · rintro ⟨row, value, hrow, hvalue, heq⟩
    refine ⟨row, hrow, ?_⟩
    rw [equalsMatches, hvalue]
    exact (Value.eq_iff_of_isFinite (hc.finite _ _ hrow _ _ hvalue) hfinite).mpr heq

section Platform

variable [Platform]

/-- **What a filter finds are rows of the table.**  In `update_with_options` this is the
`expect("matched row id exists")`. -/
theorem matchingRowIds_mem {t : Table} (hc : t.Coherent) {filter : Option Filter}
    {options : TableRuntimeOptions} {rowIds : List RowId} {path : AccessPath}
    (h : t.matchingRowIds filter options = .ok (rowIds, path)) {rowId : RowId}
    (hmem : rowId ∈ rowIds) : ∃ row, t.rows[rowId]? = some row := by
  cases filter with
  | none =>
    simp only [matchingRowIds, Except.ok.injEq, Prod.mk.injEq] at h
    rw [← h.1, ExtTreeMap.mem_keys, BTree.mem_iff_exists] at hmem
    exact hmem
  | some filter =>
    cases filter with
    | equals column value =>
      rw [matchingRowIds] at h
      cases hkey : indexKey value with
      | error error => simp [hkey, bind, Except.bind] at h
      | ok key =>
        simp only [hkey, bind, Except.bind, pure, Except.pure] at h
        split at h
        · simp only [Except.ok.injEq, Prod.mk.injEq] at h
          rw [← h.1, Option.mem_toList] at hmem
          obtain ⟨row, hrow, -⟩ := (hc.primary key rowId).mp hmem
          exact ⟨row, hrow⟩
        · split at h
          · rename_i name index hindex
            simp only [Except.ok.injEq, Prod.mk.injEq] at h
            rw [← h.1, ExtTreeSet.mem_toList] at hmem
            obtain ⟨row, hrow, -⟩ :=
              ((hc.indexes name index (indexOn_eq_some hindex).1).mem_lookup key rowId).mp hmem
            exact ⟨row, hrow⟩
          · simp only [Except.ok.injEq, Prod.mk.injEq] at h
            obtain ⟨row, hrow, -⟩ := mem_scan.mp (h.1 ▸ hmem)
            exact ⟨row, hrow⟩
    | fullText column query =>
      rw [matchingRowIds, matchFulltext] at h
      split at h
      · simp only [Except.ok.injEq, Prod.mk.injEq] at h
        simp [← h.1] at hmem
      · split at h
        · rename_i name index hindex
          simp only [Except.ok.injEq, Prod.mk.injEq] at h
          rw [← h.1, ExtTreeSet.mem_toList] at hmem
          exact hc.fulltextIndexes name index (indexOn_eq_some hindex).1 _ _
            (mem_foldl_inter.mp hmem).1
        · simp only [Except.ok.injEq, Prod.mk.injEq] at h
          obtain ⟨row, hrow, -⟩ := mem_scan.mp (h.1 ▸ hmem)
          exact ⟨row, hrow⟩
    | geoWithin column point meters inclusive =>
      simp only [matchingRowIds, Except.ok.injEq, Prod.mk.injEq] at h
      obtain ⟨row, hrow, -⟩ := mem_scan.mp (h.1 ▸ hmem)
      exact ⟨row, hrow⟩

theorem matchingRowIdsForLock_mem {t : Table} (hc : t.Coherent) {filter : Option Filter}
    {options : TableRuntimeOptions} {rowIds : List RowId}
    (h : t.matchingRowIdsForLock filter options = .ok rowIds) {rowId : RowId}
    (hmem : rowId ∈ rowIds) : ∃ row, t.rows[rowId]? = some row := by
  rw [matchingRowIdsForLock] at h
  cases hfilter : t.normalizeFilter filter options with
  | error error => simp [hfilter, bind, Except.bind] at h
  | ok filter' =>
    cases hmatch : t.matchingRowIds filter' options with
    | error error => simp [hfilter, hmatch, bind, Except.bind] at h
    | ok found =>
      simp only [hfilter, hmatch, bind, Except.bind, pure, Except.pure, Except.ok.injEq] at h
      exact matchingRowIds_mem hc hmatch (h ▸ hmem)

/-! ## Equality lookups -/

/-- The normalized form of an equality filter. -/
theorem normalizeFilter_equals {t : Table} {column : String} {value : Value}
    {options : TableRuntimeOptions} {filter : Option Filter}
    (h : t.normalizeFilter (some (.equals column value)) options = .ok filter) :
    ∃ c ∈ t.columns, ∃ stored, validateValueWithOptions c value options = .ok stored ∧
      filter = some (.equals c.name stored) := by
  rw [normalizeFilter] at h
  cases hcolumn : t.column column with
  | error error => simp [hcolumn, bind, Except.bind] at h
  | ok c =>
    cases hvalue : validateValueWithOptions c value options with
    | error error => simp [hcolumn, hvalue, bind, Except.bind] at h
    | ok stored =>
      simp only [hcolumn, hvalue, bind, Except.bind, pure, Except.pure, Except.ok.injEq] at h
      exact ⟨c, (column_eq_ok hcolumn).1, stored, hvalue, h.symm⟩

/-- No stored value of a column differs from a literal in the sign of zeros only. -/
def ZerosAgree (t : Table) (column : String) (literal : Value) : Prop :=
  ∀ (rowId : RowId) (row : Row) (value : Value), t.rows[rowId]? = some row →
    row[column]? = some value → value.unsignZero = literal.unsignZero → value = literal

/-- A lookup through the primary key or a secondary index, in terms of the rows: it finds the rows
whose value is the literal, bit for bit, in ascending order. -/
theorem lookup_spec {t : Table} (hc : t.Coherent) {column : String} {literal : Value}
    {options : TableRuntimeOptions} {rowIds : List RowId} {path : AccessPath}
    (h : t.matchingRowIds (some (.equals column literal)) options = .ok (rowIds, path))
    (hpath : path ≠ .tableScan) :
    rowIds.Pairwise (compare · · = .lt) ∧ ∀ rowId, rowId ∈ rowIds ↔
      ∃ row, t.rows[rowId]? = some row ∧ row[column]? = some literal := by
  rw [matchingRowIds] at h
  cases hkey : indexKey literal with
  | error error => simp [hkey, bind, Except.bind] at h
  | ok key =>
    simp only [hkey, bind, Except.bind, pure, Except.pure] at h
    split at h
    · rename_i hprimary
      simp only [Except.ok.injEq, Prod.mk.injEq] at h
      obtain ⟨rfl, -⟩ := h
      refine ⟨by cases t.primary[key]? <;> simp, fun rowId ↦ ?_⟩
      rw [Option.mem_toList, hc.primary]
      constructor
      · rintro ⟨row, hrow, hrowKey⟩
        obtain ⟨c, value, hcolumn, hvalue, -, hvalueKey⟩ := primaryKeyOf_eq_some.mp hrowKey
        rw [hprimary, Option.some_inj] at hcolumn
        subst hcolumn
        exact ⟨row, hrow, indexKey_inj hvalueKey hkey ▸ hvalue⟩
      · rintro ⟨row, hrow, hvalue⟩
        -- a stored primary key is not Null
        obtain ⟨key', hkey'⟩ := (hc.keys (by rw [hprimary]; rfl)).isSome rowId row hrow
        obtain ⟨c, value, hcolumn, hvalue', hnull, -⟩ := primaryKeyOf_eq_some.mp hkey'
        rw [hprimary, Option.some_inj] at hcolumn
        subst hcolumn
        rw [hvalue, Option.some_inj] at hvalue'
        exact ⟨row, hrow,
          primaryKeyOf_eq_some.mpr ⟨column, literal, hprimary, hvalue, hvalue' ▸ hnull, hkey⟩⟩
    · split at h
      · rename_i name index hindex
        simp only [Except.ok.injEq, Prod.mk.injEq] at h
        obtain ⟨rfl, -⟩ := h
        obtain ⟨hname, rfl⟩ := indexOn_eq_some hindex
        obtain ⟨hordered, hmem⟩ := (hc.indexes name index hname).toList_lookup key
        refine ⟨hordered, fun rowId ↦ ?_⟩
        rw [hmem]
        simp only [mem_columnKeys]
        constructor
        · rintro ⟨row, hrow, value, hvalue, hvalueKey⟩
          exact ⟨row, hrow, indexKey_inj hvalueKey hkey ▸ hvalue⟩
        · rintro ⟨row, hrow, hvalue⟩
          exact ⟨row, hrow, literal, hvalue, hkey⟩
      · simp only [Except.ok.injEq, Prod.mk.injEq] at h
        exact absurd h.2.symm hpath

/-- **A lookup agrees with a scan** exactly when no stored value differs from the literal in the
sign of zeros only. -/
theorem lookup_eq_scan_iff {t : Table} (hc : t.Coherent) {column : String} {literal : Value}
    {options : TableRuntimeOptions} {rowIds : List RowId} {path : AccessPath}
    (hfinite : literal.isFinite = true)
    (h : t.matchingRowIds (some (.equals column literal)) options = .ok (rowIds, path))
    (hpath : path ≠ .tableScan) :
    rowIds = t.scan (equalsMatches column literal) ↔ t.ZerosAgree column literal := by
  obtain ⟨hordered, hmem⟩ := lookup_spec hc h hpath
  constructor
  · rintro heq rowId row value hrow hvalue hzero
    have hscan := (mem_scan_equalsMatches hc hfinite).mpr ⟨row, value, hrow, hvalue, hzero⟩
    rw [← heq, hmem, hrow] at hscan
    obtain ⟨row', hrow', hvalue'⟩ := hscan
    obtain rfl := Option.some.inj hrow'
    rw [hvalue, Option.some_inj] at hvalue'
    exact hvalue'
  · intro hagree
    refine BTree.eq_of_ordered hordered (t.ordered_scan _) fun rowId ↦ ?_
    rw [hmem, mem_scan_equalsMatches hc hfinite]
    constructor
    · rintro ⟨row, hrow, hvalue⟩
      exact ⟨row, literal, hrow, hvalue, rfl⟩
    · rintro ⟨row, value, hrow, hvalue, hzero⟩
      exact ⟨row, hrow, hagree rowId row value hrow hvalue hzero ▸ hvalue⟩

/-! ## The indexes do not matter -/

/-- Two tables that differ at most in their indexes. -/
structure SameRows (t t' : Table) : Prop where
  columns : t'.columns = t.columns
  rows : t'.rows = t.rows
  nextRowId : t'.nextRowId = t.nextRowId
  primaryKey : t'.primaryKey = t.primaryKey

section SameRows

variable {t t' : Table} (h : t.SameRows t') {options : TableRuntimeOptions}
include h

omit [Platform] in
theorem SameRows.column (name : String) : t'.column name = t.column name := by
  rw [Table.column, Table.column, h.columns]

theorem SameRows.normalizeFilter (filter : Option Filter) :
    t'.normalizeFilter filter options = t.normalizeFilter filter options := by
  rcases filter with _ | ⟨column, value⟩ | ⟨column, query⟩ | ⟨column, point, meters, inclusive⟩ <;>
    simp only [Table.normalizeFilter, h.column]

theorem SameRows.normalizeAssignments (assignments : List (String × Value)) :
    t'.normalizeAssignments options assignments = t.normalizeAssignments options assignments := by
  induction assignments with
  | nil => rfl
  | cons entry rest ih => simp only [Table.normalizeAssignments, h.column, ih]

omit [Platform] in
theorem SameRows.validateProjection (projection : Projection) :
    t'.validateProjection projection = t.validateProjection projection := by
  cases projection with
  | all => rfl
  | columns columns => simp only [Table.validateProjection, h.column]

omit [Platform] in
theorem SameRows.zerosAgree {column : String} {literal : Value}
    (hzeros : t.ZerosAgree column literal) : t'.ZerosAgree column literal := by
  rw [ZerosAgree, h.rows]
  exact hzeros

end SameRows

/-- An equality filter is looked up without an error, by a scan only if no index has its column. -/
theorem matchingRowIds_equals {t : Table} {column : String} {literal : Value}
    {options : TableRuntimeOptions} (hfinite : literal.isFinite = true) :
    ∃ rowIds path, t.matchingRowIds (some (.equals column literal)) options = .ok (rowIds, path) ∧
      (path = .tableScan → rowIds = t.scan (equalsMatches column literal)) ∧
      ((t.primaryKey = some column ∨ (indexOn t.indexes column).isSome = true) →
        path ≠ .tableScan) := by
  obtain ⟨key, hkey⟩ : ∃ key, indexKey literal = .ok key :=
    ⟨_, indexKey_eq_ok.mpr ⟨hfinite, rfl⟩⟩
  rw [matchingRowIds, hkey]
  simp only [bind, Except.bind, pure, Except.pure]
  by_cases hprimary : t.primaryKey = some column
  · rw [if_pos hprimary]
    exact ⟨_, _, rfl, by simp, by simp⟩
  · rw [if_neg hprimary]
    cases hindex : indexOn t.indexes column with
    | none => exact ⟨_, _, rfl, fun _ ↦ rfl, by simp [hprimary]⟩
    | some found => exact ⟨_, _, rfl, by simp, by simp⟩

/-- Where no zero gets in the way, an equality filter finds what a scan finds. -/
theorem matchingRowIds_eq_scan {t : Table} (hc : t.Coherent) {column : String} {literal : Value}
    {options : TableRuntimeOptions} (hfinite : literal.isFinite = true)
    (hzeros : t.ZerosAgree column literal) :
    ∃ path, t.matchingRowIds (some (.equals column literal)) options =
      .ok (t.scan (equalsMatches column literal), path) := by
  obtain ⟨rowIds, path, hmatch, hscan, -⟩ :=
    @matchingRowIds_equals _ t column literal options hfinite
  by_cases hpath : path = .tableScan
  · exact ⟨path, hscan hpath ▸ hmatch⟩
  · exact ⟨path, (lookup_eq_scan_iff hc hfinite hmatch hpath).mpr hzeros ▸ hmatch⟩

section SameRows

variable {t t' : Table} (h : t.SameRows t') (hc : t.Coherent) (hc' : t'.Coherent)
variable {options : TableRuntimeOptions} {column columnName : String} {value literal : Value}
variable (hnormal : t.normalizeFilter (some (.equals column value)) options =
  .ok (some (.equals columnName literal)))
variable (hzeros : t.ZerosAgree columnName literal)

include hnormal in
/-- A normalized literal is one its column may store, so it is finite. -/
theorem isFinite_of_normalizeFilter : literal.isFinite = true := by
  obtain ⟨c, -, stored, hstored, heq⟩ := normalizeFilter_equals hnormal
  simp only [Option.some.injEq, Filter.equals.injEq] at heq
  exact heq.2 ▸ (validateValue_hasType hstored).isFinite

include h hc hc' hnormal hzeros

/-- Both tables find the rows a scan finds. -/
theorem matchingRowIds_congr :
    ∃ rowIds path path',
      t.matchingRowIds (some (.equals columnName literal)) options = .ok (rowIds, path) ∧
      t'.matchingRowIds (some (.equals columnName literal)) options = .ok (rowIds, path') := by
  have hfinite := isFinite_of_normalizeFilter hnormal
  obtain ⟨path, hmatch⟩ := @matchingRowIds_eq_scan _ t hc columnName literal options hfinite hzeros
  obtain ⟨path', hmatch'⟩ :=
    @matchingRowIds_eq_scan _ t' hc' columnName literal options hfinite (h.zerosAgree hzeros)
  rw [scan, h.rows, ← scan] at hmatch'
  exact ⟨_, path, path', hmatch, hmatch'⟩

/-- **`SELECT` does not depend on the indexes.** -/
theorem selectWithOptions_congr (projection : Projection) (order : Option Order)
    (limit : Option Nat) :
    t'.selectWithOptions projection (some (.equals column value)) order limit options =
      t.selectWithOptions projection (some (.equals column value)) order limit options := by
  obtain ⟨rowIds, path, path', hmatch, hmatch'⟩ :=
    matchingRowIds_congr h hc hc' hnormal hzeros
  rw [selectWithOptions, selectWithOptions, h.validateProjection, h.normalizeFilter, hnormal]
  simp only [bind, Except.bind, hmatch, hmatch', h.column, h.rows]

theorem matchingRowIdsForLock_congr :
    ∃ rowIds, t.matchingRowIdsForLock (some (.equals column value)) options = .ok rowIds ∧
      t'.matchingRowIdsForLock (some (.equals column value)) options = .ok rowIds := by
  obtain ⟨rowIds, path, path', hmatch, hmatch'⟩ :=
    matchingRowIds_congr h hc hc' hnormal hzeros
  refine ⟨rowIds, ?_, ?_⟩
  · rw [matchingRowIdsForLock, hnormal]
    simp only [bind, Except.bind, hmatch]
    rfl
  · rw [matchingRowIdsForLock, h.normalizeFilter, hnormal]
    simp only [bind, Except.bind, hmatch']
    rfl

/-- **`DELETE` does not depend on the indexes.** -/
theorem deleteWithOptions_congr :
    (t'.deleteWithOptions (some (.equals column value)) options).1 =
        (t.deleteWithOptions (some (.equals column value)) options).1 ∧
      (t'.deleteWithOptions (some (.equals column value)) options).2.rows =
        (t.deleteWithOptions (some (.equals column value)) options).2.rows := by
  obtain ⟨rowIds, hmatch, hmatch'⟩ := matchingRowIdsForLock_congr h hc hc' hnormal hzeros
  rcases deleteWithOptions_cases hc (some (.equals column value)) options with
    ⟨error, herror, -⟩ | ⟨ids, u, hids, -, hdata, heq⟩
  · rw [hmatch] at herror
    cases herror
  rcases deleteWithOptions_cases hc' (some (.equals column value)) options with
    ⟨error, herror, -⟩ | ⟨ids', u', hids', -, hdata', heq'⟩
  · rw [hmatch'] at herror
    cases herror
  rw [hmatch, Except.ok.injEq] at hids
  rw [hmatch', Except.ok.injEq] at hids'
  subst hids hids'
  rw [heq, heq']
  refine ⟨rfl, ?_⟩
  rw [hdata.rows, hdata'.rows, erased, erased, h.rows]

theorem updatePlan_congr (assignments : List (String × Value)) :
    t'.updatePlan assignments (some (.equals column value)) options =
      t.updatePlan assignments (some (.equals column value)) options := by
  obtain ⟨rowIds, path, path', hmatch, hmatch'⟩ :=
    matchingRowIds_congr h hc hc' hnormal hzeros
  rw [updatePlan, updatePlan, h.normalizeFilter, hnormal]
  simp only [bind, Except.bind, hmatch, hmatch', h.normalizeAssignments]

/-- **`UPDATE` does not depend on the indexes.** -/
theorem updateWithOptions_congr (assignments : List (String × Value)) :
    (t'.updateWithOptions assignments (some (.equals column value)) options).1 =
        (t.updateWithOptions assignments (some (.equals column value)) options).1 ∧
      (t'.updateWithOptions assignments (some (.equals column value)) options).2.rows =
        (t.updateWithOptions assignments (some (.equals column value)) options).2.rows := by
  have hplan' := updatePlan_congr h hc hc' hnormal hzeros assignments
  cases hplan : t.updatePlan assignments (some (.equals column value)) options with
  | error error =>
    rw [hplan] at hplan'
    rw [updateWithOptions, updateWithOptions, hplan, hplan']
    exact ⟨rfl, h.rows⟩
  | ok plan =>
    obtain ⟨rowIds, normalized⟩ := plan
    rw [hplan] at hplan'
    have hrows : (t'.assigned rowIds normalized).rows = (t.assigned rowIds normalized).rows := by
      rw [assigned, assigned, h.rows]
    -- both rebuilds see the same rows, so they end alike
    have hrebuild := rebuild_fst_eq hrows h.primaryKey
      (fun _ _ _ i r hr ↦ hc.finite_assigned rowIds (updatePlan_eq_ok hplan).2 i r hr _)
      (fun _ _ _ i r hr ↦ hc'.finite_assigned rowIds (updatePlan_eq_ok hplan').2 i r hr _) options
    cases hresult : ((t.assigned rowIds normalized).rebuildIndexesWithOptions options).1 with
    | ok _ =>
      rw [updateWithOptions_of_ok hplan hresult,
        updateWithOptions_of_ok hplan' (hrebuild.trans hresult)]
      exact
        ⟨rfl, by rw [(rebuild_sameData _ options).rows, (rebuild_sameData _ options).rows, hrows]⟩
    | error error =>
      rw [updateWithOptions_of_error hplan hresult,
        updateWithOptions_of_error hplan' (hrebuild.trans hresult)]
      exact ⟨rfl, by rw [(rebuild_sameData _ options).rows, (rebuild_sameData _ options).rows,
        h.rows]⟩

end SameRows

end Platform

end Table

end Fsql
