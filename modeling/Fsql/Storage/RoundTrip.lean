import Fsql.Storage.File
import Fsql.Storage.Fulltext

/-!
# Reading a catalog back

What `Catalog::encode` writes, `Catalog::decode_with_options` reads: the same tables, columns, index
definitions and rows, with the derived maps built anew (`Catalog.decode_encode`).  Only the next row
id of a table is not written down; it comes back as one above the greatest row id.

The proof follows the reader: one lemma for each kind of line (`decodeLine_table`,
`decodeLine_column`, …), one for the lines of a table (`decodeTable_encodeTable`), and from it the
whole file by induction on the tables.
-/

set_option autoImplicit false

namespace Fsql

open Number Text DerivedIndex

/-! ## Lines and fields -/

/-- The characters between fields and lines do not occur. -/
def IsField (l : List Char) : Prop := '\t' ∉ l ∧ '\n' ∉ l ∧ '\r' ∉ l

instance (l : List Char) : Decidable (IsField l) := inferInstanceAs (Decidable (_ ∧ _ ∧ _))

theorem isField_encodeString (s : String) : IsField (encodeString s).toList :=
  ⟨not_mem_encodeString (by decide) s, not_mem_encodeString (by decide) s,
    not_mem_encodeString (by decide) s⟩

theorem isField_encodeValue (v : Value) : IsField (encodeValue v) :=
  ⟨not_mem_encodeValue (by decide) (by decide) (by decide) v,
    not_mem_encodeValue (by decide) (by decide) (by decide) v,
    not_mem_encodeValue (by decide) (by decide) (by decide) v⟩

theorem isField_decimal (n : Nat) : IsField (decimal n) :=
  ⟨not_mem_decimal (by decide), not_mem_decimal (by decide), not_mem_decimal (by decide)⟩

theorem isField_encodeFields {row : Row} {field : List Char} (h : field ∈ encodeFields row) :
    IsField field := by
  obtain ⟨entry, -, rfl⟩ := List.mem_map.mp h
  obtain ⟨hs1, hs2, hs3⟩ := isField_encodeString entry.1
  obtain ⟨hv1, hv2, hv3⟩ := isField_encodeValue entry.2
  refine ⟨?_, ?_, ?_⟩ <;> rw [List.mem_append, List.mem_cons, not_or, not_or]
  · exact ⟨hs1, by decide, hv1⟩
  · exact ⟨hs2, by decide, hv2⟩
  · exact ⟨hs3, by decide, hv3⟩

theorem splitOn_encodeLine {directive : List Char} {parts : List (List Char)}
    (hdirective : IsField directive) (hparts : ∀ part ∈ parts, IsField part) :
    (encodeLine (directive :: parts)).splitOn '\t' = directive :: parts := by
  refine splitOn_join (fun part hpart ↦ ?_) (List.cons_ne_nil directive parts)
  rcases List.mem_cons.mp hpart with rfl | hpart
  · exact hdirective.1
  · exact (hparts part hpart).1

theorem encodeLine_ne_nil {directive : List Char} (h : directive ≠ []) (parts : List (List Char)) :
    encodeLine (directive :: parts) ≠ [] := by
  intro hnil
  cases parts with
  | nil => exact h hnil
  | cons part parts =>
    rw [encodeLine, join] at hnil
    exact h (List.append_eq_nil_iff.mp hnil).1

/-- A line has no line break. -/
theorem not_mem_encodeLine {parts : List (List Char)} (h : ∀ part ∈ parts, IsField part) :
    '\n' ∉ encodeLine parts ∧ '\r' ∉ encodeLine parts := by
  refine ⟨fun hmem ↦ ?_, fun hmem ↦ ?_⟩
  · rcases mem_join hmem with heq | ⟨part, hpart, hc⟩
    · exact absurd heq (by decide)
    · exact (h part hpart).2.1 hc
  · rcases mem_join hmem with heq | ⟨part, hpart, hc⟩
    · exact absurd heq (by decide)
    · exact (h part hpart).2.2 hc

/-! ## One line -/

/-- A row is read back from its fields. -/
theorem foldlM_encodeFields (row : Row) : (encodeFields row).foldlM decodeField ∅ = .ok row := by
  have hfield (entry : String × Value) (acc : Row) :
      decodeField acc ((encodeString entry.1).toList ++ '=' :: encodeValue entry.2) =
        .ok (acc.insert entry.1 entry.2) := by
    have hsplit : splitOnce '=' ((encodeString entry.1).toList ++ '=' :: encodeValue entry.2) =
        some ((encodeString entry.1).toList, encodeValue entry.2) :=
      splitOnce_append (not_mem_encodeString (by decide) entry.1) _
    rw [decodeField, hsplit]
    simp only [decodeString_encodeString, decodeValue_encodeValue, bind, Except.bind, pure,
      Except.pure]
  have hfold (l : List (String × Value)) (acc : Row) :
      (l.map fun entry ↦ (encodeString entry.1).toList ++ '=' :: encodeValue entry.2).foldlM
          decodeField acc =
        .ok (l.foldl (fun acc entry ↦ acc.insert entry.1 entry.2) acc) := by
    induction l generalizing acc with
    | nil => rfl
    | cons entry l ih =>
      rw [List.map_cons, List.foldlM_cons, hfield]
      exact ih _
  rw [encodeFields, hfold]
  refine congrArg Except.ok (Std.ExtTreeMap.ext_getElem? fun column ↦ ?_)
  have hrow := BTree.getElem?_foldl_insert_toList id row column
  rwa [Option.map_id, id] at hrow

section Platform

variable [Platform] {options : TableRuntimeOptions} (catalog : Catalog)

theorem decodeLine_table (name : String) :
    decodeLine options (catalog, none) (encodeLine ["TABLE".toList, (encodeString name).toList]) =
      .ok (catalog, some (Table.blank name)) := by
  have hsplit : (encodeLine ["TABLE".toList, (encodeString name).toList]).splitOn '\t' =
      ["TABLE".toList, (encodeString name).toList] := by
    refine splitOn_encodeLine (by decide) ?_
    simpa using isField_encodeString name
  rw [decodeLine, if_neg (encodeLine_ne_nil (by decide) _)]
  simp only [hsplit, List.headD_cons, if_pos, Option.isSome_none, Bool.false_eq_true, if_false,
    requiredPart, List.getElem?_cons_succ, List.getElem?_cons_zero, decodeString_encodeString, bind,
    Except.bind, pure, Except.pure]

omit [Platform] in
theorem asStr_parse (ty : ColumnType) : ColumnType.parse ty.asStr.toList = .ok ty := by
  cases ty <;> rfl

omit [Platform] in
theorem decodeColumn_encode {t : Table} {column : Column}
    (hname : ∀ c ∈ t.columns, c.name ≠ column.name)
    (hprimary : column.primaryKey = true → t.primaryKey = none) :
    decodeColumn t (columnLine column) =
      .ok { t with
        primaryKey := if column.primaryKey then some column.name else t.primaryKey
        columns := t.columns ++ [column] } := by
  have hnew : (t.columns.any fun c ↦ decide (c.name = column.name)) = false := by
    simpa using hname
  obtain ⟨name, ty, primaryKey⟩ := column
  simp only [decodeColumn, columnLine, requiredPart, List.getElem?_cons_succ,
    List.getElem?_cons_zero,
    decodeString_encodeString, asStr_parse, bind, Except.bind, pure, Except.pure] at hnew ⊢
  rw [hnew]
  rcases primaryKey with _ | _
  · rfl
  · have hnone : t.primaryKey = none := hprimary rfl
    rw [if_neg (by decide), if_neg (by simp [hnone])]
    rfl

theorem decodeLine_column {t : Table} {column : Column}
    (hname : ∀ c ∈ t.columns, c.name ≠ column.name)
    (hprimary : column.primaryKey = true → t.primaryKey = none) :
    decodeLine options (catalog, some t) (encodeLine (columnLine column)) =
      .ok (catalog, some { t with
        primaryKey := if column.primaryKey then some column.name else t.primaryKey
        columns := t.columns ++ [column] }) := by
  have hsplit : (encodeLine (columnLine column)).splitOn '\t' = columnLine column := by
    refine splitOn_encodeLine (by decide) ?_
    simp only [List.forall_mem_cons, List.not_mem_nil, false_implies, implies_true, and_true]
    refine ⟨isField_encodeString column.name, ?_, ?_⟩
    · cases column.ty <;> decide
    · cases column.primaryKey <;> decide
  have hhead : (columnLine column).headD [] = "COLUMN".toList := rfl
  have hne : encodeLine (columnLine column) ≠ [] := encodeLine_ne_nil (by decide) _
  rw [decodeLine, if_neg hne]
  simp only [hsplit, hhead]
  rw [if_neg (by decide), if_pos trivial]
  simp only [tableMut, decodeColumn_encode hname hprimary, bind, Except.bind, pure, Except.pure]

theorem decodeLine_index (t : Table) (name column : String) :
    decodeLine options (catalog, some t) (encodeLine (indexLine (name, column))) =
      .ok (catalog, some (t.addPersistedIndex name column)) := by
  have hsplit : (encodeLine (indexLine (name, column))).splitOn '\t' =
    indexLine (name, column) := by
    refine splitOn_encodeLine (by decide) ?_
    simpa using ⟨isField_encodeString name, isField_encodeString column⟩
  have hne : encodeLine (indexLine (name, column)) ≠ [] := encodeLine_ne_nil (by decide) _
  rw [decodeLine, if_neg hne]
  simp only [hsplit]
  simp only [indexLine, List.headD_cons]
  rw [if_neg (by decide), if_neg (by decide), if_pos trivial]
  simp only [tableMut, requiredPart, List.getElem?_cons_succ, List.getElem?_cons_zero,
    decodeString_encodeString, bind, Except.bind, pure, Except.pure]

theorem decodeLine_fts (t : Table) (name column : String) :
    decodeLine options (catalog, some t) (encodeLine (ftsLine (name, column))) =
      .ok (catalog, some (t.addPersistedFulltextIndex name column)) := by
  have hsplit : (encodeLine (ftsLine (name, column))).splitOn '\t' = ftsLine (name, column) := by
    refine splitOn_encodeLine (by decide) ?_
    simpa using ⟨isField_encodeString name, isField_encodeString column⟩
  have hne : encodeLine (ftsLine (name, column)) ≠ [] := encodeLine_ne_nil (by decide) _
  rw [decodeLine, if_neg hne]
  simp only [hsplit]
  simp only [ftsLine, List.headD_cons]
  rw [if_neg (by decide), if_neg (by decide), if_neg (by decide), if_pos trivial]
  simp only [tableMut, requiredPart, List.getElem?_cons_succ, List.getElem?_cons_zero,
    decodeString_encodeString, bind, Except.bind, pure, Except.pure]

theorem decodeLine_row (t : Table) (rowId : RowId) (row : Row) :
    decodeLine options (catalog, some t) (encodeLine (rowLine (rowId, row))) =
      .ok (catalog, some { t with
        nextRowId := max t.nextRowId (rowId + 1), rows := t.rows.insert rowId row }) := by
  have hsplit : (encodeLine (rowLine (rowId, row))).splitOn '\t' = rowLine (rowId, row) := by
    refine splitOn_encodeLine (by decide) ?_
    rw [List.forall_mem_cons]
    exact ⟨isField_decimal rowId, fun field ↦ isField_encodeFields⟩
  have hne : encodeLine (rowLine (rowId, row)) ≠ [] := encodeLine_ne_nil (by decide) _
  rw [decodeLine, if_neg hne]
  simp only [hsplit]
  simp only [rowLine, List.headD_cons]
  rw [if_neg (by decide), if_neg (by decide), if_neg (by decide), if_neg (by decide),
    if_pos trivial]
  simp only [tableMut, decodeRow, requiredPart, List.getElem?_cons_succ, List.getElem?_cons_zero,
    parseUnbounded_decimal, List.drop_succ_cons, List.drop_zero, foldlM_encodeFields, bind,
    Except.bind, pure, Except.pure]

theorem decodeLine_endTable {t : Table} (h : (t.rebuildIndexesWithOptions options).1 = .ok ()) :
    decodeLine options (catalog, some t) (encodeLine ["ENDTABLE".toList]) =
      .ok (⟨catalog.tables.insert (t.rebuildIndexesWithOptions options).2.name
        (t.rebuildIndexesWithOptions options).2⟩, none) := by
  have hsplit : (encodeLine ["ENDTABLE".toList]).splitOn '\t' = ["ENDTABLE".toList] :=
    splitOn_encodeLine (by decide) (by simp)
  rw [decodeLine, if_neg (encodeLine_ne_nil (by decide) _)]
  simp only [hsplit, List.headD_cons]
  rw [if_neg (by decide), if_neg (by decide), if_neg (by decide), if_neg (by decide),
    if_neg (by decide), if_pos trivial]
  simp only [tableMut, bind, Except.bind]
  rcases hrebuild : t.rebuildIndexesWithOptions options with ⟨result, t'⟩
  rw [hrebuild] at h
  obtain rfl : result = .ok () := h
  rfl

/-! ## The lines of a table -/

/-- The next row id a table gets when it is read back. -/
def freshRowId (rows : List (RowId × Row)) : RowId :=
  rows.foldl (fun next entry ↦ max next (entry.1 + 1)) 1

/-- Reading the lines of a list of columns declares them in order. -/
theorem foldlM_columnLine {t : Table} {columns : List Column} {primaryKey : Option String}
    (hnodup : ((t.columns ++ columns).map (·.name)).Nodup)
    (ht : (t.columns.filter (·.primaryKey)).map (·.name) = t.primaryKey.toList)
    (hprimary : ((t.columns ++ columns).filter (·.primaryKey)).map (·.name) =
      primaryKey.toList) :
    (columns.map fun column ↦ encodeLine (columnLine column)).foldlM (decodeLine options)
        (catalog, some t) =
      .ok (catalog, some { t with columns := t.columns ++ columns, primaryKey }) := by
  induction columns generalizing t with
  | nil =>
    rw [List.append_nil] at hprimary
    have heq : primaryKey = t.primaryKey := by
      have htoList := hprimary.symm.trans ht
      rcases primaryKey with _ | name <;> rcases htk : t.primaryKey with _ | name' <;>
        simp_all
    rw [List.append_nil, heq]
    rfl
  | cons column columns ih =>
    have hnew : ∀ c ∈ t.columns, c.name ≠ column.name := by
      intro c hc heq
      rw [List.map_append, List.nodup_append] at hnodup
      exact hnodup.2.2 c.name (List.mem_map_of_mem hc) column.name (by simp) heq
    have hnone : column.primaryKey = true → t.primaryKey = none := by
      intro hkey
      rw [List.filter_append, List.map_append, ht, List.filter_cons_of_pos hkey, List.map_cons]
        at hprimary
      rcases htk : t.primaryKey with _ | name
      · rfl
      · rw [htk] at hprimary
        rcases primaryKey with _ | _ <;> simp at hprimary
    have hstep : ((t.columns ++ [column]).filter (·.primaryKey)).map (·.name) =
        (if column.primaryKey then some column.name else t.primaryKey).toList := by
      rw [List.filter_append, List.map_append, ht]
      rcases hkey : column.primaryKey with _ | _
      · simp [hkey]
      · simp [hkey, hnone hkey]
    rw [List.map_cons, List.foldlM_cons, decodeLine_column catalog hnew hnone]
    have hrest := @ih { t with
      primaryKey := if column.primaryKey then some column.name else t.primaryKey
      columns := t.columns ++ [column] } (by simpa using hnodup) hstep (by simpa using hprimary)
    simp only [bind, Except.bind, hrest, List.append_assoc, List.singleton_append]

theorem foldlM_indexLine (t : Table) (entries : List (String × String)) :
    (entries.map fun entry ↦ encodeLine (indexLine entry)).foldlM (decodeLine options)
        (catalog, some t) =
      .ok (catalog, some { t with
        indexes := entries.foldl (fun m entry ↦ m.insert entry.1 ⟨entry.2, ∅⟩) t.indexes }) := by
  induction entries generalizing t with
  | nil => rfl
  | cons entry entries ih =>
    rw [List.map_cons, List.foldlM_cons, decodeLine_index]
    exact ih _

theorem foldlM_ftsLine (t : Table) (entries : List (String × String)) :
    (entries.map fun entry ↦ encodeLine (ftsLine entry)).foldlM (decodeLine options)
        (catalog, some t) =
      .ok (catalog, some { t with
        fulltextIndexes := entries.foldl (fun m entry ↦ m.insert entry.1 ⟨entry.2, ∅⟩)
          t.fulltextIndexes }) := by
  induction entries generalizing t with
  | nil => rfl
  | cons entry entries ih =>
    rw [List.map_cons, List.foldlM_cons, decodeLine_fts]
    exact ih _

theorem foldlM_rowLine (t : Table) (rows : List (RowId × Row)) :
    (rows.map fun entry ↦ encodeLine (rowLine entry)).foldlM (decodeLine options)
        (catalog, some t) =
      .ok (catalog, some { t with
        nextRowId := rows.foldl (fun next entry ↦ max next (entry.1 + 1)) t.nextRowId
        rows := rows.foldl (fun m entry ↦ m.insert entry.1 entry.2) t.rows }) := by
  induction rows generalizing t with
  | nil => rfl
  | cons entry rows ih =>
    rw [List.map_cons, List.foldlM_cons, decodeLine_row]
    exact ih _

omit [Platform] in
/-- Reading the definitions of the indexes of a map gives the map with nothing listed. -/
theorem foldl_indexColumns (indexes : BTreeMap String Index) :
    (Table.indexColumns indexes).foldl (fun m entry ↦ m.insert entry.1 ⟨entry.2, ∅⟩)
        (∅ : BTreeMap String Index) =
      indexes.map fun _ index ↦ { index with map := ∅ } := by
  refine Std.ExtTreeMap.ext_getElem? fun n ↦ ?_
  rw [Table.indexColumns, List.foldl_map,
    BTree.getElem?_foldl_insert_toList (fun index : Index ↦ (⟨index.column, ∅⟩ : Index)),
    Std.ExtTreeMap.getElem?_map]

/-- What is known of a table once its lines have been read, before its derived maps are built. -/
def Table.unindexed (t : Table) : Table :=
  { t.cleared with nextRowId := freshRowId t.rows.toList }

/-- The declarations of a table fit together: what the reader checks of them. -/
structure Table.Declared (t : Table) : Prop where
  /-- Column names are distinct. -/
  columns_nodup : (t.columns.map (·.name)).Nodup
  /-- The primary key is the one column declared so, if there is one. -/
  primaryKey_eq : (t.columns.filter (·.primaryKey)).map (·.name) = t.primaryKey.toList
  /-- Row ids start at 1. -/
  nextRowId_pos : 0 < t.nextRowId

theorem decodeTable_encodeTable {t : Table} (hd : t.Declared)
    (h : (t.unindexed.rebuildIndexesWithOptions options).1 = .ok ()) :
    ((encodeTable t).map encodeLine).foldlM (decodeLine options) (catalog, none) =
      .ok (⟨catalog.tables.insert t.name (t.unindexed.rebuildIndexesWithOptions options).2⟩,
        none) := by
  have hname : (t.unindexed.rebuildIndexesWithOptions options).2.name = t.name :=
    (t.unindexed.rebuild_sameData options).name
  have hrows : t.rows.toList.foldl (fun m entry ↦ m.insert entry.1 entry.2) ∅ = t.rows := by
    refine Std.ExtTreeMap.ext_getElem? fun rowId ↦ ?_
    have hrow := BTree.getElem?_foldl_insert_toList id t.rows rowId
    rwa [Option.map_id, id] at hrow
  have hcolumns := @foldlM_columnLine _ options catalog (Table.blank t.name) t.columns t.primaryKey
    (by simpa [Table.blank] using hd.columns_nodup) rfl
    (by simpa [Table.blank] using hd.primaryKey_eq)
  simp only [encodeTable, List.map_cons, List.map_append, List.map_map, List.map_nil,
    List.foldlM_cons, List.foldlM_append, decodeLine_table, Function.comp_def, hcolumns,
    foldlM_indexLine, foldlM_ftsLine, foldlM_rowLine, bind, Except.bind, List.foldlM_nil]
  have hread : t.unindexed = { Table.blank t.name with
      columns := (Table.blank t.name).columns ++ t.columns
      rows := t.rows.toList.foldl (fun m entry ↦ m.insert entry.1 entry.2) (Table.blank t.name).rows
      nextRowId := t.rows.toList.foldl (fun next entry ↦ max next (entry.1 + 1))
        (Table.blank t.name).nextRowId
      primaryKey := t.primaryKey
      indexes := (Table.indexColumns t.indexes).foldl
        (fun m entry ↦ m.insert entry.1 ⟨entry.2, ∅⟩) (Table.blank t.name).indexes
      fulltextIndexes := (Table.indexColumns t.fulltextIndexes).foldl
        (fun m entry ↦ m.insert entry.1 ⟨entry.2, ∅⟩) (Table.blank t.name).fulltextIndexes } := by
    simp only [Table.blank, List.nil_append, hrows, foldl_indexColumns]
    rfl
  rw [← hread, decodeLine_endTable catalog h, hname]
  rfl

/-! ## Tables and catalogs read back -/

/-- **A table that has been read back**: it differs in the next row id, and in what its full-text
indexes list. -/
structure Table.Reopened (tokenizer : FullTextTokenizer) (t t' : Table) : Prop where
  /-- Columns, rows, definitions, the primary-key map and the secondary indexes are the same. -/
  same : { t with nextRowId := t'.nextRowId }.SameButFulltext t'
  /-- The next row id is one above the greatest row id. -/
  nextRowId : (t.rows = ∅ ∧ t'.nextRowId = 1) ∨
    ∃ rowId ∈ t.rows, t'.nextRowId = rowId + 1 ∧ ∀ i ∈ t.rows, i ≤ rowId
  /-- It is not above the one the table had. -/
  le : t'.nextRowId ≤ t.nextRowId
  /-- The derived maps are those of the rows. -/
  coherent : t'.Coherent
  /-- The full-text indexes are those of the tokenizer the table is read with. -/
  fulltext : t'.FulltextExact tokenizer

omit [Platform] in
/-- A loop that takes the maximum ends with the start or with one of the values, and above all. -/
theorem foldl_max_spec {α : Type*} (f : α → Nat) (l : List α) (n : Nat) :
    (∀ a ∈ l, f a ≤ l.foldl (fun next a ↦ max next (f a)) n) ∧
      n ≤ l.foldl (fun next a ↦ max next (f a)) n ∧
      (l.foldl (fun next a ↦ max next (f a)) n = n ∨
        ∃ a ∈ l, l.foldl (fun next a ↦ max next (f a)) n = f a) := by
  induction l generalizing n with
  | nil => simp
  | cons a l ih =>
    obtain ⟨hall, hle, hcases⟩ := ih (max n (f a))
    rw [List.foldl_cons, List.forall_mem_cons]
    refine ⟨⟨by omega, hall⟩, by omega, ?_⟩
    rcases hcases with heq | ⟨found, hmem, heq⟩
    · rcases Nat.le_total n (f a) with hn | hn
      · exact .inr ⟨a, List.mem_cons_self, by omega⟩
      · exact .inl (by omega)
    · exact .inr ⟨found, List.mem_cons_of_mem _ hmem, heq⟩

omit [Platform] in
theorem freshRowId_spec (t : Table) :
    (t.rows = ∅ ∧ freshRowId t.rows.toList = 1) ∨
      ∃ rowId ∈ t.rows, freshRowId t.rows.toList = rowId + 1 ∧ ∀ i ∈ t.rows, i ≤ rowId := by
  obtain ⟨hall, hle, hcases⟩ := foldl_max_spec (fun entry : RowId × Row ↦ entry.1 + 1)
    t.rows.toList 1
  rw [← freshRowId] at hall hle hcases
  have hbound (i : RowId) (hi : i ∈ t.rows) : i + 1 ≤ freshRowId t.rows.toList := by
    obtain ⟨row, hrow⟩ := (BTree.mem_iff_exists t.rows i).mp hi
    exact hall (i, row) ((mem_toList_iff t.rows i row).mpr hrow)
  have hfound (rowId : RowId) (row : Row) (hmem : (rowId, row) ∈ t.rows.toList) : rowId ∈ t.rows :=
    (BTree.mem_iff_exists t.rows rowId).mpr ⟨row, (mem_toList_iff t.rows rowId row).mp hmem⟩
  have hmax (rowId : RowId) (heq : freshRowId t.rows.toList = rowId + 1) (i : RowId)
      (hi : i ∈ t.rows) : i ≤ rowId :=
    Nat.le_of_succ_le_succ ((hbound i hi).trans heq.le)
  rcases hcases with hone | ⟨⟨rowId, row⟩, hmem, heq⟩
  · rcases hrows : t.rows.toList with _ | ⟨⟨rowId, row⟩, rest⟩
    · exact .inl ⟨Std.ExtTreeMap.toList_eq_nil_iff.mp hrows, hrows ▸ hone⟩
    · -- a single row with the id 0
      have hmem := hfound rowId row (hrows ▸ List.mem_cons_self)
      have hzero : rowId = 0 := Nat.le_zero.mp (hmax 0 hone rowId hmem)
      have heq : freshRowId t.rows.toList = rowId + 1 := by rw [hone, hzero]
      exact .inr ⟨rowId, hmem, hrows ▸ heq, hmax rowId heq⟩
  · exact .inr ⟨rowId, hfound rowId row hmem, heq, hmax rowId heq⟩

/-- **What is read back is a table like the one written.** -/
theorem Table.reopened_unindexed {t : Table} (hc : t.Coherent) (hd : t.Declared)
    (options : TableRuntimeOptions) :
    (t.unindexed.rebuildIndexesWithOptions options).1 = .ok () ∧
      t.Reopened options.fulltextTokenizer (t.unindexed.rebuildIndexesWithOptions options).2 := by
  have hspec := freshRowId_spec t
  have hbelow (i : RowId) (r : Row) (hr : t.rows[i]? = some r) :
      i < freshRowId t.rows.toList := by
    have hi : i ∈ t.rows := (BTree.mem_iff_exists t.rows i).mpr ⟨r, hr⟩
    rcases hspec with ⟨hempty, -⟩ | ⟨rowId, -, heq, hmax⟩
    · simp [hempty] at hr
    · exact heq ▸ Nat.lt_succ_of_le (hmax i hi)
  have hle : freshRowId t.rows.toList ≤ t.nextRowId := by
    rcases hspec with ⟨-, heq⟩ | ⟨rowId, hmem, heq, -⟩
    · exact heq ▸ hd.nextRowId_pos
    · obtain ⟨row, hrow⟩ := (BTree.mem_iff_exists t.rows rowId).mp hmem
      exact heq ▸ hc.rowId_lt rowId row hrow
  -- the table written, with the next row id that will be read
  have hwritten : { t with nextRowId := freshRowId t.rows.toList }.Coherent :=
    ⟨hbelow, hc.finite, hc.keys, hc.primary, hc.indexes, hc.fulltextIndexes⟩
  have hcleared := t.cleared_sameData
  have hunindexed : { t with nextRowId := freshRowId t.rows.toList }.SameData t.unindexed :=
    ⟨rfl, rfl, rfl, rfl, rfl, hcleared.indexes, hcleared.fulltextIndexes⟩
  obtain ⟨hok, hcoherent⟩ := hunindexed.rebuild hwritten options
  have hdata := rebuild_sameData t.unindexed options
  have hnext : (t.unindexed.rebuildIndexesWithOptions options).2.nextRowId =
      freshRowId t.rows.toList := hdata.nextRowId
  refine ⟨hok, ?_, ?_, ?_, hcoherent, fulltextExact_rebuild hok⟩
  · rw [hnext]
    exact (hunindexed.trans hdata).sameButFulltext hwritten hcoherent
  · rw [hnext]
    exact hspec
  · rw [hnext]
    exact hle

/-- Every table has the name it is stored under. -/
def Catalog.Named (catalog : Catalog) : Prop :=
  ∀ (name : String) (t : Table), catalog.tables[name]? = some t → t.name = name

/-- **A catalog that has been read back.** -/
def Catalog.Reopened (tokenizer : FullTextTokenizer) (c c' : Catalog) : Prop :=
  ∀ name : String, Option.Rel (Table.Reopened tokenizer) c.tables[name]? c'.tables[name]?

/-- The lines of a list of tables are read one table after the other. -/
theorem foldlM_encodeTable {entries : List (String × Table)}
    (hnodup : (entries.map Prod.fst).Nodup)
    (hentries : ∀ entry ∈ entries, entry.2.name = entry.1 ∧ entry.2.Coherent ∧ entry.2.Declared) :
    ∃ catalog', (entries.flatMap fun entry ↦ (encodeTable entry.2).map encodeLine).foldlM
          (decodeLine options) (catalog, none) = .ok (catalog', none) ∧
      (∀ entry ∈ entries, ∃ t', catalog'.tables[entry.1]? = some t' ∧
        entry.2.Reopened options.fulltextTokenizer t') ∧
      ∀ name : String, name ∉ entries.map Prod.fst →
        catalog'.tables[name]? = catalog.tables[name]? := by
  induction entries generalizing catalog with
  | nil => exact ⟨catalog, rfl, by simp, fun _ _ ↦ rfl⟩
  | cons entry entries ih =>
    rw [List.map_cons, List.nodup_cons] at hnodup
    rw [List.forall_mem_cons] at hentries
    obtain ⟨⟨hname, hc, hd⟩, hentries⟩ := hentries
    obtain ⟨hok, hreopened⟩ := entry.2.reopened_unindexed hc hd options
    obtain ⟨catalog', hfold, hfound, hrest⟩ :=
      ih ⟨catalog.tables.insert entry.2.name
        (entry.2.unindexed.rebuildIndexesWithOptions options).2⟩
        hnodup.2 hentries
    refine ⟨catalog', ?_, ?_, fun name hname' ↦ ?_⟩
    · rw [List.flatMap_cons, List.foldlM_append, decodeTable_encodeTable catalog hd hok]
      exact hfold
    · rw [List.forall_mem_cons]
      refine ⟨⟨_, ?_, hreopened⟩, hfound⟩
      rw [hrest entry.1 hnodup.1, BTree.getElem?_insert, if_pos hname]
    · rw [List.map_cons, List.mem_cons, not_or] at hname'
      rw [hrest name hname'.2, BTree.getElem?_insert, hname, if_neg (Ne.symm hname'.1)]

omit [Platform] in
theorem isField_of_mem_encodeTable {t : Table} {parts : List (List Char)}
    (h : parts ∈ encodeTable t) : ∀ part ∈ parts, IsField part := by
  have hconst (l : List Char) (hl : IsField l) (rest : List (List Char))
      (hrest : ∀ part ∈ rest, IsField part) : ∀ part ∈ l :: rest, IsField part :=
    List.forall_mem_cons.mpr ⟨hl, hrest⟩
  have hnil : ∀ part ∈ ([] : List (List Char)), IsField part := by simp
  simp only [encodeTable, List.mem_cons, List.mem_append, List.mem_map, List.not_mem_nil,
    or_false] at h
  rcases h with rfl |
    ((((⟨column, -, rfl⟩ | ⟨entry, -, rfl⟩) | ⟨entry, -, rfl⟩) | ⟨entry, -, rfl⟩) |
    rfl)
  · exact hconst _ (by decide) _ (hconst _ (isField_encodeString t.name) _ hnil)
  · refine hconst _ (by decide) _ (hconst _ (isField_encodeString column.name) _ (hconst _ ?_ _
      (hconst _ ?_ _ hnil)))
    · rcases column.ty <;> decide
    · split <;> decide
  · exact hconst _ (by decide) _ (hconst _ (isField_encodeString entry.1) _
      (hconst _ (isField_encodeString entry.2) _ hnil))
  · exact hconst _ (by decide) _ (hconst _ (isField_encodeString entry.1) _
      (hconst _ (isField_encodeString entry.2) _ hnil))
  · exact hconst _ (by decide) _ (hconst _ (isField_decimal entry.1) _
      fun part hpart ↦ isField_encodeFields hpart)
  · exact hconst _ (by decide) _ hnil

omit [Platform] in
/-- The lines of a catalog are told apart by the line breaks after them. -/
theorem lines_encode (catalog : Catalog) :
    lines catalog.encode.toList = catalog.encodeLines := by
  rw [Catalog.encode, String.toList_ofList]
  refine lines_flatMap fun line hline ↦ ?_
  rcases List.mem_cons.mp hline with rfl | hline
  · decide
  · obtain ⟨entry, -, hline⟩ := List.mem_flatMap.mp hline
    obtain ⟨parts, hparts, rfl⟩ := List.mem_map.mp hline
    exact not_mem_encodeLine (isField_of_mem_encodeTable hparts)

/-- **What is written is read back.** -/
theorem Catalog.decode_encode {catalog : Catalog} (hnamed : catalog.Named)
    (hc : catalog.Coherent) (hd : catalog.All Table.Declared) (options : TableRuntimeOptions) :
    ∃ catalog', Catalog.decodeWithOptions catalog.encode options = .ok catalog' ∧
      catalog.Reopened options.fulltextTokenizer catalog' := by
  have hentries (entry : String × Table) (hentry : entry ∈ catalog.tables.toList) :
      catalog.tables[entry.1]? = some entry.2 :=
    (mem_toList_iff catalog.tables entry.1 entry.2).mp hentry
  obtain ⟨catalog', hfold, hfound, hrest⟩ := @foldlM_encodeTable _ options .empty _
    (BTree.nodup_keys_toList catalog.tables) fun entry hentry ↦
      ⟨hnamed _ _ (hentries entry hentry), hc _ _ (hentries entry hentry),
        hd _ _ (hentries entry hentry)⟩
  refine ⟨catalog', ?_, fun name ↦ ?_⟩
  · rw [Catalog.decodeWithOptions, lines_encode, Catalog.encodeLines]
    simp only [ne_eq, not_true_eq_false, if_false, hfold, bind, Except.bind, Option.isSome,
      Bool.false_eq_true, pure, Except.pure]
  · rcases hname : catalog.tables[name]? with _ | t
    · have hnot : name ∉ catalog.tables.toList.map Prod.fst := by
        rintro hmem
        obtain ⟨entry, hentry, rfl⟩ := List.mem_map.mp hmem
        rw [hentries entry hentry] at hname
        exact Option.some_ne_none _ hname
      rw [hrest name hnot, Catalog.empty, Std.ExtTreeMap.getElem?_empty]
      exact .none
    · obtain ⟨t', ht', hreopened⟩ :=
        hfound (name, t) ((mem_toList_iff catalog.tables name t).mpr hname)
      rw [ht']
      exact .some hreopened

end Platform

end Fsql
