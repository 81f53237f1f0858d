import Fsql.Storage.Relation

/-!
# Tables refine relations

Each operation on a table does to what the table says (`Table.relation`) what the operation of the
same name does to a relation:

* `Table.selectWithOptions_relation` — `SELECT` filters, orders, cuts off and projects the rows;
* `Table.insertWithOptions_relation` — `INSERT` adds a row at the end;
* `Table.updateWithOptions_relation` — `UPDATE` rewrites rows where they are;
* `Table.deleteWithOptions_relation` — `DELETE` takes rows out;
* `Table.createIndex_relation` — `CREATE INDEX` changes the definition only.

The table is to be coherent, and its full-text indexes are to be those of the tokenizer.
-/

set_option autoImplicit false

namespace Fsql

open DerivedIndex Std

namespace Table

/-! ## What a relation keeps of a table -/

theorem SameData.schema_eq {t t' : Table} (h : t.SameData t') : t'.schema = t.schema := by
  have hempty : ({ t with rows := ∅, nextRowId := 1 } : Table).SameData
      { t' with rows := ∅, nextRowId := 1 } :=
    ⟨h.name, h.columns, rfl, rfl, h.primaryKey, h.indexes, h.fulltextIndexes⟩
  exact hempty.cleared_eq

theorem SameData.relation_eq {t t' : Table} (h : t.SameData t') : t'.relation = t.relation := by
  rw [relation, relation, h.schema_eq, contents, contents, h.rows]

/-- Whether a column is indexed can be seen from the definition. -/
theorem isSome_indexOn_schema (t : Table) (column : String) :
    (indexOn t.schema.indexes column).isSome = (indexOn t.indexes column).isSome := by
  have hisSome (indexes : BTreeMap String Index) :
      (indexOn indexes column).isSome = (indexColumns indexes).any fun p ↦ p.2 = column := by
    rw [indexOn, indexColumns, List.isSome_find?, List.any_map]
    rfl
  rw [hisSome, hisSome]
  exact congrArg (List.any · _) (indexColumns_cleared { t with rows := ∅, nextRowId := 1 }).1

/-! ## Scoring and sorting -/

theorem vectorScoresChunk_append (rows : BTreeMap RowId Row) (column : String) (target : List F32)
    (metric : VectorMetric) (rowIds rowIds' : List RowId) :
    vectorScoresChunk rows (rowIds ++ rowIds') column target metric = (do
      let scored ← vectorScoresChunk rows rowIds column target metric
      return scored ++ (← vectorScoresChunk rows rowIds' column target metric)) := by
  induction rowIds with
  | nil =>
    show _ = (vectorScoresChunk rows rowIds' column target metric).bind fun scored ↦ .ok scored
    rw [List.nil_append]
    rcases vectorScoresChunk rows rowIds' column target metric with error | scored <;> rfl
  | cons rowId rowIds ih =>
    rw [List.cons_append, vectorScoresChunk, vectorScoresChunk]
    split
    · rename_i vector _
      rw [ih]
      simp only [bind, Except.bind, pure, Except.pure]
      rcases vectorDistance vector target metric with error | distance
      · rfl
      · rcases vectorScoresChunk rows rowIds column target metric with error | scored
        · rfl
        · rcases vectorScoresChunk rows rowIds' column target metric with error | scored' <;> rfl
    · exact ih

/-- **Scoring in parallel is scoring in sequence.** -/
theorem vectorScores_eq (rows : BTreeMap RowId Row) (rowIds : List RowId) (column : String)
    (target : List F32) (options : TableRuntimeOptions) :
    vectorScores rows rowIds column target options =
      vectorScoresChunk rows rowIds column target options.vectorIndex.metric := by
  have hmapM (ls : List (List RowId)) :
      (do return (← ls.mapM fun chunk ↦
        vectorScoresChunk rows chunk column target options.vectorIndex.metric).flatten) =
      vectorScoresChunk rows ls.flatten column target options.vectorIndex.metric := by
    induction ls with
    | nil => rfl
    | cons chunk ls ih =>
      rw [List.flatten_cons, vectorScoresChunk_append, ← ih, List.mapM_cons]
      simp only [bind, Except.bind, pure, Except.pure]
      rcases vectorScoresChunk rows chunk column target options.vectorIndex.metric
        with error | scored
      · rfl
      · rcases ls.mapM (m := Result) fun chunk ↦
          vectorScoresChunk rows chunk column target options.vectorIndex.metric
          with error | rest <;> rfl
  rw [vectorScores]
  split
  · rfl
  · rename_i hparallel
    rw [not_or, Nat.not_le, Nat.not_lt] at hparallel
    dsimp only
    have hworkers : 0 < min options.workerThreads rowIds.length := by omega
    have hsize : 0 < (rowIds.length + min options.workerThreads rowIds.length - 1) /
        min options.workerThreads rowIds.length := Nat.div_pos (by omega) hworkers
    rw [hmapM, flatten_chunks hsize]

/-- Renaming what is scored. -/
theorem scores_map {α β : Type} (f : α → β) (row : β → Row) (column : String)
    (target : List F32) (metric : VectorMetric) (l : List α) :
    Relation.scores row column target metric (l.map f) =
      (Relation.scores (row ∘ f) column target metric l).map (List.map (Prod.map id f)) := by
  induction l with
  | nil => rfl
  | cons a l ih =>
    rw [List.map_cons, Relation.scores, Relation.scores, ih]
    simp only [Function.comp_apply]
    split
    · rename_i vector _
      simp only [bind, Except.bind, pure, Except.pure]
      rcases vectorDistance vector target metric with error | distance
      · rfl
      · rcases Relation.scores (row ∘ f) column target metric l with error | scored <;> rfl
    · rfl

/-- What is scored is among what was to be scored, in the same order. -/
theorem scores_sublist {α : Type} {row : α → Row} {column : String} {target : List F32}
    {metric : VectorMetric} {l : List α} {scored : List (F64 × α)}
    (h : Relation.scores row column target metric l = .ok scored) :
    (scored.map Prod.snd).Sublist l := by
  induction l generalizing scored with
  | nil =>
    obtain rfl := Except.ok.inj h
    exact List.Sublist.refl _
  | cons a l ih =>
    rw [Relation.scores] at h
    split at h
    · obtain ⟨distance, -, h⟩ := bind_eq_ok h
      obtain ⟨rest, hrest, h⟩ := bind_eq_ok h
      obtain rfl := Except.ok.inj h
      exact (ih hrest).cons_cons a
    · exact (ih h).cons a

/-- The source scores rows by their ids. -/
theorem vectorScoresChunk_entries {rows : BTreeMap RowId Row} {entries : List (RowId × Row)}
    (hentries : ∀ entry ∈ entries, rows[entry.1]? = some entry.2) (column : String)
    (target : List F32) (metric : VectorMetric) :
    vectorScoresChunk rows (entries.map Prod.fst) column target metric =
      (Relation.scores Prod.snd column target metric entries).map
        (List.map (Prod.map id Prod.fst)) := by
  induction entries with
  | nil => rfl
  | cons entry entries ih =>
    rw [List.forall_mem_cons] at hentries
    rw [List.map_cons, vectorScoresChunk, Relation.scores, hentries.1, Option.bind_some,
      ih hentries.2]
    -- both look for a vector in the column
    rcases entry.2[column]? with _ | (_ | _ | _ | _ | _ | vector | _)
    case some.vector =>
      simp only [bind, Except.bind, pure, Except.pure]
      rcases vectorDistance vector target metric with error | distance
      · rfl
      · rcases Relation.scores Prod.snd column target metric entries with error | scored <;> rfl
    all_goals rfl

/-- **Renaming what is sorted.** -/
theorem sorted_map {α β : Type} (f : α → β) (descending : Bool) (scored : List (F64 × α)) :
    Relation.sorted descending (scored.map (Prod.map id f)) =
      (Relation.sorted descending scored).map f := by
  let rename : (F64 × α) × Nat → (F64 × β) × Nat := Prod.map (Prod.map id f) id
  rw [Relation.sorted, Relation.sorted, List.zipIdx_map,
    ← List.map_mergeSort (f := rename)
      (r := fun a b ↦ scoreLe descending (a.1.1, a.2) (b.1.1, b.2)) fun _ _ _ _ ↦ rfl,
    List.map_map, List.map_map]
  rfl

theorem mem_sorted {α : Type} {descending : Bool} {scored : List (F64 × α)} {a : α} :
    a ∈ Relation.sorted descending scored ↔ a ∈ scored.map Prod.snd := by
  rw [Relation.sorted, ← List.zipIdx_map_fst 0 scored, List.map_map]
  simp only [List.mem_map, List.mem_mergeSort, Function.comp_apply, List.zipIdx_map_fst]

/-- **Among ascending row ids, the order of the source is that of the insertions.** -/
theorem sorted_rowIds {descending : Bool} {scored : List (F64 × RowId)}
    (h : scored.Pairwise fun a b ↦ a.2 < b.2) :
    (scored.mergeSort (scoreLe descending)).map Prod.snd = Relation.sorted descending scored := by
  have hcompare (a b : (F64 × RowId) × Nat) (ha : a ∈ scored.zipIdx) (hb : b ∈ scored.zipIdx) :
      compare a.1.2 b.1.2 = compare a.2 b.2 := by
    rw [List.mem_zipIdx_iff_getElem?, List.getElem?_eq_some_iff] at ha hb
    obtain ⟨hi, ha⟩ := ha
    obtain ⟨hj, hb⟩ := hb
    have hlt := List.pairwise_iff_getElem.mp h
    rcases Nat.lt_trichotomy a.2 b.2 with hab | hab | hab
    · have := hlt a.2 b.2 hi hj hab
      rw [ha, hb] at this
      rw [Nat.compare_eq_lt.mpr this, Nat.compare_eq_lt.mpr hab]
    · have heq : a.1 = b.1 := by rw [← ha, ← hb]; simp only [hab]
      rw [heq, hab, Nat.compare_eq_eq.mpr rfl, Nat.compare_eq_eq.mpr rfl]
    · have := hlt b.2 a.2 hj hi hab
      rw [ha, hb] at this
      rw [Nat.compare_eq_gt.mpr this, Nat.compare_eq_gt.mpr hab]
  rw [Relation.sorted]
  conv_lhs => rw [← List.zipIdx_map_fst 0 scored]
  rw [← List.map_mergeSort (r := fun a b ↦ scoreLe descending (a.1.1, a.2) (b.1.1, b.2)),
    List.map_map]
  · rfl
  · intro a ha b hb
    rw [scoreLe, scoreLe, hcompare a b ha hb]

section Platform

variable [Platform] {options : TableRuntimeOptions}

/-! ## Finding rows -/

/-- A match finds the rows that have the tokens of its query. -/
theorem finds_fullText {schema : Table} {column query : String} {row : Row} :
    Relation.finds schema options (some (.fullText column query)) row = true ↔
      HasTokens options.fulltextTokenizer column query row := by
  rw [Relation.finds, HasTokens, Bool.and_eq_true, Bool.not_eq_true', List.isEmpty_eq_false_iff]
  exact and_congr_right fun hne ↦ fulltextMatches_iff hne

theorem finds_equals (t : Table) (column : String) (value : Value) :
    Relation.finds t.schema options (some (.equals column value)) =
      if t.primaryKey = some column ∨ (indexOn t.indexes column).isSome = true then
        fun row ↦ decide (row[column]? = some value)
      else equalsMatches column value := by
  funext row
  rw [Relation.finds, isSome_indexOn_schema, apply_ite (fun f : Row → Bool ↦ f row)]
  rfl

/-- **What a filter finds** can be told from the definition and the rows. -/
theorem matchingRowIds_finds {t : Table} (hc : t.Coherent)
    (hexact : t.FulltextExact options.fulltextTokenizer) {filter normalized : Option Filter}
    (h : t.normalizeFilter filter options = .ok normalized) :
    ∃ path, t.matchingRowIds normalized options =
      .ok (t.scan (Relation.finds t.schema options normalized), path) := by
  rcases filter with _ | ⟨column, value⟩ | ⟨column, query⟩ | ⟨column, point, meters, inclusive⟩
  · obtain rfl := Except.ok.inj h
    refine ⟨.tableScan, ?_⟩
    show Except.ok (t.rows.keys, AccessPath.tableScan) = _
    rw [scan, ← ExtTreeMap.map_fst_toList_eq_keys]
    simp only [Relation.finds, List.filter_true]
  · obtain ⟨c, -, stored, hstored, rfl⟩ := normalizeFilter_equals h
    have hfinite := (validateValue_hasType hstored).isFinite
    rw [finds_equals]
    by_cases hindexed : t.primaryKey = some c.name ∨ (indexOn t.indexes c.name).isSome = true
    · -- the keys of an index tell values apart bit for bit
      obtain ⟨rowIds, path, hmatch, -, hpath⟩ :=
        @matchingRowIds_equals _ t c.name stored options hfinite
      obtain ⟨hordered, hmem⟩ := lookup_spec hc hmatch (hpath hindexed)
      refine ⟨path, hmatch.trans (congrArg (fun ids ↦ Except.ok (ids, path)) ?_)⟩
      refine BTree.eq_of_ordered hordered (t.ordered_scan _) fun rowId ↦ ?_
      rw [hmem, mem_scan, if_pos hindexed]
      simp only [decide_eq_true_eq]
    · rw [if_neg hindexed]
      rw [not_or, Bool.not_eq_true, Option.isSome_eq_false_iff, Option.isNone_iff_eq_none]
        at hindexed
      obtain ⟨key, hkey⟩ : ∃ key, indexKey stored = .ok key :=
        ⟨_, indexKey_eq_ok.mpr ⟨hfinite, rfl⟩⟩
      refine ⟨.tableScan, ?_⟩
      rw [matchingRowIds, hkey]
      show (if t.primaryKey = some c.name then _ else _) = _
      rw [if_neg hindexed.1, hindexed.2]
      rfl
  · obtain ⟨c, -, hc⟩ := bind_eq_ok h
    split at hc
    · cases hc
    · obtain rfl := Except.ok.inj hc
      refine ⟨(t.matchFulltext c.name query options).2, ?_⟩
      show Except.ok (t.matchFulltext c.name query options) = _
      refine congrArg Except.ok (Prod.ext ?_ rfl)
      refine BTree.eq_of_ordered (t.ordered_matchFulltext c.name query) (t.ordered_scan _)
        fun rowId ↦ ?_
      rw [mem_scan]
      simp only [finds_fullText]
      cases hindex : indexOn t.fulltextIndexes c.name with
      | none => exact mem_matchFulltext_scan hindex rowId
      | some entry => exact mem_matchFulltext_index hindex hexact rowId
  · obtain ⟨c, -, hc⟩ := bind_eq_ok h
    split at hc
    · cases hc
    · obtain rfl := Except.ok.inj hc
      exact ⟨.tableScan, rfl⟩

/-! ## Select -/

omit [Platform] in
/-- The rows a scan finds, with their ids. -/
theorem contents_filter (t : Table) (p : Row → Bool) :
    t.scan p = (t.rows.toList.filter fun entry ↦ p entry.2).map Prod.fst ∧
      t.contents.filter p = (t.rows.toList.filter fun entry ↦ p entry.2).map Prod.snd ∧
      ∀ entry ∈ t.rows.toList.filter fun entry ↦ p entry.2, t.rows[entry.1]? = some entry.2 := by
  refine ⟨rfl, List.filter_map, fun entry hentry ↦ ?_⟩
  exact (mem_toList_iff t.rows _ _).mp (List.mem_filter.mp hentry).1

omit [Platform] in
/-- Looking rows up by their ids, and cutting off. -/
theorem projected_eq {rows : BTreeMap RowId Row} {entries : List (RowId × Row)}
    (hentries : ∀ entry ∈ entries, rows[entry.1]? = some entry.2) (projection : Projection)
    (limit : Option Nat) :
    ((match limit with
        | some limit => (entries.map Prod.fst).take limit
        | none => entries.map Prod.fst).filterMap
      fun rowId ↦ rows[rowId]?.map (projectRow · projection)) =
      (match limit with
        | some limit => (entries.map Prod.snd).take limit
        | none => entries.map Prod.snd).map (projectRow · projection) := by
  have hall {entries : List (RowId × Row)}
      (hentries : ∀ entry ∈ entries, rows[entry.1]? = some entry.2) :
      (entries.map Prod.fst).filterMap (fun rowId ↦ rows[rowId]?.map (projectRow · projection)) =
        (entries.map Prod.snd).map (projectRow · projection) := by
    induction entries with
    | nil => rfl
    | cons entry entries ih =>
      rw [List.forall_mem_cons] at hentries
      rw [List.map_cons, List.map_cons, List.map_cons, List.filterMap_cons, hentries.1,
        ih hentries.2]
      rfl
  rcases limit with _ | limit
  · exact hall hentries
  · dsimp only
    rw [← List.map_take, ← List.map_take]
    exact hall fun entry hentry ↦ hentries entry (List.mem_of_mem_take hentry)

/-- **`SELECT` reads what the table says.** -/
theorem selectWithOptions_relation {t : Table} (hc : t.Coherent)
    (hexact : t.FulltextExact options.fulltextTokenizer) (projection : Projection)
    (filter : Option Filter) (order : Option Order) (limit : Option Nat) :
    t.selectWithOptions projection filter order limit options =
      t.relation.select projection filter order limit options := by
  have hprojection : t.relation.schema.validateProjection projection =
    t.validateProjection projection := rfl
  have hfilter : t.relation.schema.normalizeFilter filter options =
    t.normalizeFilter filter options := rfl
  rw [selectWithOptions, Relation.select, hprojection, hfilter]
  simp only [bind, Except.bind]
  rcases t.validateProjection projection with error | _
  · rfl
  dsimp only
  rcases hnormal : t.normalizeFilter filter options with error | normalized
  · rfl
  obtain ⟨path, hmatch⟩ := matchingRowIds_finds hc hexact hnormal
  obtain ⟨hids, hrows, hentries⟩ := t.contents_filter (Relation.finds t.schema options normalized)
  simp only [hmatch, hids, relation, hrows]
  have hordered : (t.rows.toList.filter fun entry ↦
      Relation.finds t.schema options normalized entry.2).Pairwise fun a b ↦ a.1 < b.1 :=
    (ExtTreeMap.ordered_keys_toList.filter _).imp fun hab ↦ Nat.compare_eq_lt.mp hab
  generalize (t.rows.toList.filter fun entry ↦
    Relation.finds t.schema options normalized entry.2) = entries at hentries hordered ⊢
  rcases order with _ | ⟨column, target, descending⟩
  · exact congrArg Except.ok (projected_eq hentries projection limit)
  · have hcolumn : t.schema.column column = t.column column := rfl
    simp only [Relation.orderBy, bind, Except.bind, pure, Except.pure, hcolumn, vectorScores_eq,
      vectorScoresChunk_entries hentries, scores_map]
    rcases t.column column with error | columnRef
    · rfl
    dsimp only
    split
    · rfl
    rw [Function.id_comp]
    rcases hscores : Relation.scores Prod.snd column target options.vectorIndex.metric entries
      with error | scored
    · rcases options.vectorIndex.dimensions with _ | expected
      · rfl
      · dsimp only
        split <;> rfl
    · -- both sides come to the same entries
      have hsub := scores_sublist hscores
      have hpairs := List.pairwise_map.mp (hordered.sublist hsub)
      have hsorted := @projected_eq t.rows (Relation.sorted descending scored)
        (fun entry hentry ↦ hentries entry (hsub.subset (mem_sorted.mp hentry))) projection limit
      rw [← sorted_map, ← sorted_map, ← sorted_rowIds (List.pairwise_map.mpr hpairs)] at hsorted
      rcases options.vectorIndex.dimensions with _ | expected
      · exact congrArg Except.ok hsorted
      · dsimp only
        split
        · rfl
        · exact congrArg Except.ok hsorted

/-! ## Insert -/

theorem insertValues_schema (t : Table) (values : List (String × Value)) (row : Row) :
    t.schema.insertValues options values row = t.insertValues options values row := by
  induction values generalizing row with
  | nil => rfl
  | cons entry values ih =>
    have hcolumn : t.schema.column entry.1 = t.column entry.1 := rfl
    rw [insertValues, insertValues, hcolumn]
    simp only [ih]

omit [Platform] in
/-- A key that is in the primary-key map is that of a row. -/
theorem mem_primary_iff {t : Table} (hc : t.Coherent) (key : String) :
    key ∈ t.primary ↔ ∃ stored ∈ t.contents, primaryKeyOf t.primaryKey stored = some key := by
  rw [BTree.mem_iff_exists]
  constructor
  · rintro ⟨rowId, hrowId⟩
    obtain ⟨stored, hstored, hkey⟩ := (hc.primary key rowId).mp hrowId
    exact ⟨stored, List.mem_map.mpr ⟨_, (mem_toList_iff t.rows _ _).mpr hstored, rfl⟩, hkey⟩
  · rintro ⟨stored, hmem, hkey⟩
    obtain ⟨⟨rowId, row⟩, hrow, rfl⟩ := List.mem_map.mp hmem
    exact ⟨rowId, (hc.primary key rowId).mpr ⟨row, (mem_toList_iff t.rows _ _).mp hrow, hkey⟩⟩

omit [Platform] in
/-- The checks of an insertion are those of an insertion into an empty table, and that no row has
its primary key. -/
theorem validatePrimaryInsert_eq {t : Table} (hc : t.Coherent) (row : Row) :
    t.validatePrimaryInsert row = (do
      t.schema.validatePrimaryInsert row
      if t.primaryKey.isSome ∧ ∃ stored ∈ t.contents,
          primaryKeyOf t.primaryKey stored = primaryKeyOf t.primaryKey row then
        .error (execution "duplicate primary key")) := by
  have hprimaryKey : t.schema.primaryKey = t.primaryKey := rfl
  have hempty (key : String) : key ∉ t.schema.primary := ExtTreeMap.not_mem_empty
  rw [validatePrimaryInsert, validatePrimaryInsert, hprimaryKey]
  rcases hpk : t.primaryKey with _ | column
  · simp [bind, Except.bind, pure, Except.pure]
  · dsimp only
    rcases hvalue : row[column]? with _ | value
    · rfl
    · by_cases hnull : value = .null
      · subst hnull
        rfl
      · rcases hkey : indexKey value with error | key
        · rcases value <;> first | exact absurd rfl hnull | (simp only [hkey]; rfl)
        · have hrow : primaryKeyOf (some column) row = some key :=
            primaryKeyOf_eq_some.mpr ⟨column, value, rfl, hvalue, hnull, hkey⟩
          have hmem := mem_primary_iff hc key
          rw [hpk] at hmem
          rcases value <;> first
            | exact absurd rfl hnull
            | simp only [hkey, hempty, hmem, hrow, bind, Except.bind, pure, Except.pure,
                Option.isSome_some, true_and, if_false]

/-- **A row is accepted** if a table without rows accepts it and no row has its key. -/
theorem insertRow_schema {t : Table} (hc : t.Coherent) (columns : Option (List String))
    (values : List Value) : t.insertRow columns values options =
      match t.schema.insertRow columns values options with
      | .error error => .error error
      | .ok row =>
        if t.primaryKey.isSome ∧ ∃ stored ∈ t.contents,
            primaryKeyOf t.primaryKey stored = primaryKeyOf t.primaryKey row then
          .error (execution "duplicate primary key")
        else .ok row := by
  have hcolumns : t.schema.columns = t.columns := rfl
  rw [insertRow, insertRow, hcolumns]
  split
  · rfl
  · simp only [insertValues_schema, validatePrimaryInsert_eq hc, bind, Except.bind, pure,
      Except.pure]
    generalize t.insertValues options _ _ = inserted
    rcases inserted with error | row
    · rfl
    · dsimp only
      rcases t.schema.validatePrimaryInsert row with error | _
      · rfl
      · dsimp only
        split_ifs <;> rfl

/-- **`INSERT` adds a row at the end of what the table says.** -/
theorem insertWithOptions_relation {t : Table} (hc : t.Coherent) (columns : Option (List String))
    (values : List Value) :
    (t.insertWithOptions columns values options).1 =
        (t.relation.insert columns values options).1 ∧
      (t.insertWithOptions columns values options).2.relation =
        (t.relation.insert columns values options).2 := by
  have hinsertRow := @insertRow_schema _ options t hc columns values
  have hschema : t.relation.schema = t.schema := rfl
  have hrelation : t.relation.rows = t.contents := rfl
  have hprimary : t.schema.primaryKey = t.primaryKey := rfl
  rw [Relation.insert, hschema, hrelation]
  rcases hrow : t.schema.insertRow columns values options with error | row
  · rw [hrow] at hinsertRow
    rw [insertWithOptions_error hinsertRow]
    exact ⟨rfl, rfl⟩
  · rw [hrow] at hinsertRow
    dsimp only at hinsertRow ⊢
    rw [hprimary]
    split at hinsertRow
    · rename_i hduplicate
      rw [insertWithOptions_error hinsertRow, if_pos hduplicate]
      exact ⟨rfl, rfl⟩
    · rename_i hnew
      obtain ⟨t', heq, -, hdata⟩ := insertWithOptions_ok hc hinsertRow
      rw [heq, if_neg hnew, hdata.relation_eq]
      refine ⟨rfl, congrArg (Relation.mk t.schema) ?_⟩
      show ((t.rows.insert t.nextRowId row).toList).map Prod.snd = _
      rw [BTree.toList_insert_of_lt row fun rowId stored hstored ↦
        Nat.compare_eq_lt.mpr (hc.rowId_lt rowId stored hstored), List.map_append]
      rfl

/-! ## Update and delete -/

/-- The rows of a rebuild are checked one after the other, when what is indexed is finite. -/
theorem rebuildRows_eq_checkKeys {primaryKey : Option String}
    {columns fulltextColumns : List (String × String)} {l : List (RowId × Row)}
    (hok : ∀ p ∈ l, Indexable columns p.2) {t' : Table} {seen : BTreeSet String}
    (hseen : ∀ key, key ∈ seen ↔ key ∈ t'.primary) :
    (rebuildRows primaryKey columns fulltextColumns options.fulltextTokenizer l t').1 =
      match primaryKey with
      | none => .ok ()
      | some column => Relation.checkKeys column (l.map Prod.snd) seen := by
  induction l generalizing t' seen with
  | nil => cases primaryKey <;> rfl
  | cons p l ih =>
    obtain ⟨rowId, row⟩ := p
    rw [List.forall_mem_cons] at hok
    have hsecondary := (@rebuildSecondary_ok_iff rowId row columns t'.indexes).mpr hok.1
    rw [List.map_cons, rebuildRows]
    rcases hs : rebuildSecondary rowId row columns t'.indexes with ⟨result, indexes⟩
    rw [hs] at hsecondary
    obtain rfl : result = .ok () := hsecondary
    rcases primaryKey with _ | column
    · exact ih hok.2 hseen
    · simp only [rebuildPrimary, Relation.checkKeys]
      rcases hvalue : row[column]? with _ | value
      · rfl
      · by_cases hnull : value = .null
        · subst hnull
          rfl
        · rcases hkey : indexKey value with error | key
          · rcases value <;> first | exact absurd rfl hnull | (simp only [hkey])
          · have hnext (k : String) :
                k ∈ seen.insert key ↔ k ∈ t'.primary.insert key rowId := by
              rw [BTree.mem_insert_set, ExtTreeMap.mem_insert, LawfulEqCmp.compare_eq_iff_eq,
                hseen]
            by_cases hmem : key ∈ t'.primary
            · rcases value <;> first
                | exact absurd rfl hnull
                | simp only [hkey, if_pos hmem, if_pos ((hseen key).mpr hmem)]
            · have hmem' := mt (hseen key).mp hmem
              rcases value <;> first
                | exact absurd rfl hnull
                | (simp only [hkey, if_neg hmem, if_neg hmem']
                   exact ih hok.2 hnext)

/-- **How a rebuild ends** can be told from the rows, when what is indexed is finite. -/
theorem rebuild_eq_check {t : Table} (h : t.IndexesFinite) :
    (t.rebuildIndexesWithOptions options).1 = Relation.check t.schema t.contents := by
  refine rebuildRows_eq_checkKeys (fun p hp q hq ↦ ?_) fun key ↦ ?_
  · obtain ⟨⟨n, index⟩, hmem, rfl⟩ := List.mem_map.mp hq
    exact h n index ((mem_toList_iff t.indexes n index).mp hmem) p.1 p.2
      ((mem_toList_iff t.rows _ _).mp hp)
  · exact iff_of_false ExtTreeSet.not_mem_empty ExtTreeMap.not_mem_empty

theorem normalizeAssignments_schema (t : Table) (assignments : List (String × Value)) :
    t.schema.normalizeAssignments options assignments =
      t.normalizeAssignments options assignments := by
  induction assignments with
  | nil => rfl
  | cons entry rest ih =>
    have hcolumn : t.schema.column entry.1 = t.column entry.1 := rfl
    rw [normalizeAssignments, normalizeAssignments, hcolumn, ih]

omit [Platform] in
theorem mem_scan_iff_of_mem {t : Table} {p : Row → Bool} {entry : RowId × Row}
    (h : entry ∈ t.rows.toList) : entry.1 ∈ t.scan p ↔ p entry.2 = true := by
  have hrow := (mem_toList_iff t.rows _ _).mp h
  rw [mem_scan]
  constructor
  · rintro ⟨row, hrow', hp⟩
    obtain rfl := Option.some.inj (hrow.symm.trans hrow')
    exact hp
  · exact fun hp ↦ ⟨entry.2, hrow, hp⟩

omit [Platform] in
theorem length_scan (t : Table) (p : Row → Bool) : (t.scan p).length = t.contents.countP p := by
  rw [scan, contents, List.length_map, List.countP_map, List.countP_eq_length_filter]
  rfl

omit [Platform] in
theorem contents_assigned (t : Table) (p : Row → Bool) (normalized : List (String × Value)) :
    (t.assigned (t.scan p) normalized).contents =
      t.contents.map fun row ↦ if p row then assign normalized row else row := by
  have hrows (rowId : RowId) : (t.assigned (t.scan p) normalized).rows[rowId]? =
      t.rows[rowId]?.map fun row ↦ if rowId ∈ t.scan p then assign normalized row else row := by
    rw [assigned, getElem?_assignRows]
    split
    · rfl
    · rw [Option.map_id']
  rw [contents, contents, BTree.toList_eq_map _ hrows, List.map_map, List.map_map]
  refine List.map_congr_left fun entry hentry ↦ ?_
  simp only [Function.comp_apply, mem_scan_iff_of_mem hentry]

omit [Platform] in
theorem contents_erased (t : Table) (p : Row → Bool) :
    (t.erased (t.scan p)).contents = t.contents.filter fun row ↦ !p row := by
  have hrows (rowId : RowId) : (t.erased (t.scan p)).rows[rowId]? =
      if decide (rowId ∉ t.scan p) = true then t.rows[rowId]? else none := by
    rw [getElem?_erased]
    by_cases hmem : rowId ∈ t.scan p <;> simp [hmem]
  rw [contents, contents, BTree.toList_eq_filter _ hrows, List.filter_map]
  refine congrArg (List.map Prod.snd) (List.filter_congr fun entry hentry ↦ ?_)
  rw [Function.comp_apply, decide_not]
  simp only [mem_scan_iff_of_mem hentry, Bool.decide_eq_true]

/-- **`UPDATE` rewrites rows where they are.** -/
theorem updateWithOptions_relation {t : Table} (hc : t.Coherent)
    (hexact : t.FulltextExact options.fulltextTokenizer) (assignments : List (String × Value))
    (filter : Option Filter) :
    (t.updateWithOptions assignments filter options).1 =
        (t.relation.update assignments filter options).1 ∧
      (t.updateWithOptions assignments filter options).2.relation =
        (t.relation.update assignments filter options).2 := by
  have hfilter : t.relation.schema.normalizeFilter filter options =
    t.normalizeFilter filter options := rfl
  have hassignments : t.relation.schema.normalizeAssignments options assignments =
    t.normalizeAssignments options assignments := t.normalizeAssignments_schema assignments
  rw [Relation.update, hfilter, hassignments]
  -- a plan that fails leaves the table alone
  have hfails {error : Error} (hplan : t.updatePlan assignments filter options = .error error) :
      t.updateWithOptions assignments filter options = (.error error, t) := by
    rw [updateWithOptions, hplan]
  rcases hnormal : t.normalizeFilter filter options with error | normalized
  · have hplan : t.updatePlan assignments filter options = .error error := by
      rw [updatePlan, hnormal]
      rfl
    rw [hfails hplan]
    exact ⟨rfl, rfl⟩
  obtain ⟨path, hmatch⟩ := matchingRowIds_finds hc hexact hnormal
  rcases hassign : t.normalizeAssignments options assignments with error | assigned
  · have hplan : t.updatePlan assignments filter options = .error error := by
      rw [updatePlan, hnormal]
      simp only [bind, Except.bind, hmatch, hassign]
    rw [hfails hplan]
    exact ⟨rfl, rfl⟩
  have hplan : t.updatePlan assignments filter options =
      .ok (t.scan (Relation.finds t.schema options normalized), assigned) := by
    rw [updatePlan, hnormal]
    simp only [bind, Except.bind, hmatch, hassign]
    rfl
  have hcontents := t.contents_assigned (Relation.finds t.schema options normalized) assigned
  have hcheck := @rebuild_eq_check _ options
    (t.assigned (t.scan (Relation.finds t.schema options normalized)) assigned)
    fun _ _ _ i r hr ↦ hc.finite_assigned _ hassign i r hr _
  have hdata := (t.assigned (t.scan (Relation.finds t.schema options normalized))
    assigned).rebuild_sameData options
  rw [hcontents] at hcheck
  have hschema : t.relation.schema = t.schema := rfl
  have hrelation : t.relation.rows = t.contents := rfl
  dsimp only
  rw [hschema, hrelation]
  rcases hresult : Relation.check t.schema (t.contents.map fun row ↦
    if Relation.finds t.schema options normalized row then assign assigned row else row)
    with error | _
  · rw [updateWithOptions_of_error hplan (hcheck.trans hresult)]
    have hrestored := (sameData_restored hdata).trans (rebuild_sameData _ options)
    exact ⟨rfl, hrestored.relation_eq⟩
  · rw [updateWithOptions_of_ok hplan (hcheck.trans hresult), hdata.relation_eq, length_scan]
    exact ⟨rfl, congrArg (Relation.mk t.schema) hcontents⟩

/-- **`DELETE` takes rows out.** -/
theorem deleteWithOptions_relation {t : Table} (hc : t.Coherent)
    (hexact : t.FulltextExact options.fulltextTokenizer) (filter : Option Filter) :
    (t.deleteWithOptions filter options).1 = (t.relation.delete filter options).1 ∧
      (t.deleteWithOptions filter options).2.relation = (t.relation.delete filter options).2 := by
  have hfilter : t.relation.schema.normalizeFilter filter options =
    t.normalizeFilter filter options := rfl
  rw [Relation.delete, hfilter]
  rcases hnormal : t.normalizeFilter filter options with error | normalized
  · have hmatch : t.matchingRowIdsForLock filter options = .error error := by
      rw [matchingRowIdsForLock, hnormal]
      rfl
    rw [deleteWithOptions, hmatch]
    exact ⟨rfl, rfl⟩
  obtain ⟨path, hmatch⟩ := matchingRowIds_finds hc hexact hnormal
  have hlock : t.matchingRowIdsForLock filter options =
      .ok (t.scan (Relation.finds t.schema options normalized)) := by
    rw [matchingRowIdsForLock, hnormal]
    simp only [bind, Except.bind, hmatch]
    rfl
  rcases deleteWithOptions_cases hc filter options with
    ⟨error, herror, -⟩ | ⟨rowIds, t', hids, -, hdata, heq⟩
  · rw [hlock] at herror
    cases herror
  · obtain rfl := Except.ok.inj (hlock.symm.trans hids)
    rw [heq, length_scan, hdata.relation_eq]
    exact ⟨rfl, congrArg (Relation.mk t.schema) (t.contents_erased _)⟩

/-! ## Creating indexes -/

omit [Platform] in
theorem schema_schema (t : Table) : t.schema.schema = t.schema :=
  SameData.schema_eq (t := { t with rows := ∅, nextRowId := 1 }) (cleared_sameData _)

omit [Platform] in
theorem mem_schema (t : Table) (name : String) :
    (name ∈ t.schema.indexes ↔ name ∈ t.indexes) ∧
      (name ∈ t.schema.fulltextIndexes ↔ name ∈ t.fulltextIndexes) :=
  ⟨ExtTreeMap.mem_map, ExtTreeMap.mem_map⟩

theorem rebuild_of_rows_eq_empty {t : Table} (h : t.rows = ∅) (options : TableRuntimeOptions) :
    t.rebuildIndexesWithOptions options = (.ok (), t.cleared) := by
  rw [rebuildIndexesWithOptions, h]
  rfl

/-- **`CREATE INDEX` changes the definition only.** -/
theorem createIndex_relation {t : Table} (hc : t.Coherent) (name column : String)
    (fulltext : Bool) :
    let created := if fulltext then t.createFulltextIndexWithOptions name column options
      else t.createIndex name column
    created.1 = (t.relation.createIndex name column fulltext options).1 ∧
      created.2.relation = (t.relation.createIndex name column fulltext options).2 := by
  have hcolumn : t.schema.column column = t.column column := rfl
  have hname : (name ∈ t.schema.indexes ∨ name ∈ t.schema.fulltextIndexes) ↔
      name ∈ t.indexes ∨ name ∈ t.fulltextIndexes :=
    or_congr (t.mem_schema name).1 (t.mem_schema name).2
  have hsame : ({ t with rows := ∅, nextRowId := 1 } : Table).SameData t.schema :=
    cleared_sameData _
  have hinsert {indexes indexes' : BTreeMap String Index}
      (hcolumns : ∀ n : String, indexes'[n]?.map (·.column) = indexes[n]?.map (·.column))
      (n : String) : (indexes'.insert name ⟨column, ∅⟩)[n]?.map (·.column) =
        (indexes.insert name ⟨column, ∅⟩)[n]?.map (·.column) := by
    rw [BTree.getElem?_insert, BTree.getElem?_insert]
    split
    · rfl
    · exact hcolumns n
  have hrefused (error : Error) : (Except.error error : Result Unit) = .error error ∧
      t.relation = ⟨t.schema.schema, t.contents⟩ := ⟨rfl, by rw [schema_schema]; rfl⟩
  -- the index is entered into both definitions, and both tables can be rebuilt
  have hcreated {u v : Table} {options options' : TableRuntimeOptions}
      (hrows : u.rows = t.rows) (hok : (u.rebuildIndexesWithOptions options).1 = .ok ())
      (hempty : v.rows = ∅) (hdata : { u with rows := ∅, nextRowId := 1 }.SameData v) :
      (u.rebuildIndexesWithOptions options).1 = (v.rebuildIndexesWithOptions options').1 ∧
        (u.rebuildIndexesWithOptions options).2.relation =
          ⟨(v.rebuildIndexesWithOptions options').2.schema, t.contents⟩ := by
    rw [hok, rebuild_of_rows_eq_empty hempty, (rebuild_sameData u options).relation_eq,
      (cleared_sameData v).schema_eq, hdata.schema_eq, relation, contents, hrows]
    exact ⟨rfl, rfl⟩
  cases fulltext with
  | false =>
    show (t.createIndex name column).1 = (t.schema.createIndex name column).1 ∧
      (t.createIndex name column).2.relation =
        ⟨(t.schema.createIndex name column).2.schema, t.contents⟩
    rw [createIndex, createIndex, hcolumn]
    rcases t.column column with error | columnRef
    · exact hrefused error
    · dsimp only
      by_cases hexists : name ∈ t.indexes ∨ name ∈ t.fulltextIndexes
      · rw [if_pos hexists, if_pos (hname.mpr hexists)]
        exact hrefused _
      · rw [if_neg hexists, if_neg (mt hname.mp hexists)]
        refine hcreated rfl ?_ rfl ⟨rfl, rfl, rfl, rfl, rfl, hinsert hsame.indexes,
          hsame.fulltextIndexes⟩
        exact (rebuild_coherent (t := { t with indexes := t.indexes.insert name ⟨column, ∅⟩ })
          hc.rowId_lt hc.finite hc.keys {}).1
  | true =>
    show (t.createFulltextIndexWithOptions name column options).1 =
        (t.schema.createFulltextIndexWithOptions name column options).1 ∧
      (t.createFulltextIndexWithOptions name column options).2.relation =
        ⟨(t.schema.createFulltextIndexWithOptions name column options).2.schema, t.contents⟩
    rw [createFulltextIndexWithOptions, createFulltextIndexWithOptions, hcolumn]
    rcases t.column column with error | columnRef
    · exact hrefused error
    · dsimp only
      by_cases htext : columnRef.ty ≠ .text
      · rw [if_pos htext, if_pos htext]
        exact hrefused _
      · rw [if_neg htext, if_neg htext]
        by_cases hexists : name ∈ t.indexes ∨ name ∈ t.fulltextIndexes
        · rw [if_pos hexists, if_pos (hname.mpr hexists)]
          exact hrefused _
        · rw [if_neg hexists, if_neg (mt hname.mp hexists)]
          refine hcreated rfl ?_ rfl ⟨rfl, rfl, rfl, rfl, rfl, hsame.indexes,
            hinsert hsame.fulltextIndexes⟩
          exact (rebuild_coherent
            (t := { t with fulltextIndexes := t.fulltextIndexes.insert name ⟨column, ∅⟩ })
            hc.rowId_lt hc.finite hc.keys options).1

end Platform

end Table

end Fsql
