import Fsql.Storage.Refinement

/-!
# Ordering by vector distance

`SELECT … ORDER BY VECTOR_DISTANCE` scores the rows that the filter finds, in as many threads as
there are workers, sorts them by distance and row id, reverses the order for `DESC`, and cuts off.
`Table.selectWithOptions_vectorDistance` says that the workers make no difference, and what comes
out.  Nothing is assumed of the distances: they may be anything, and may fail.
-/

set_option autoImplicit false

namespace Fsql

open DerivedIndex Std

namespace Table

/-! ## The order of scores -/

/-- Scores are ordered by distance, and at one distance by row id. -/
def scoreOrder : F64 × RowId → F64 × RowId → Ordering :=
  compareLex (compareOn fun score ↦ score.1.totalKey) (compareOn Prod.snd)

instance : TransCmp scoreOrder :=
  inferInstanceAs (TransCmp (compareLex (compareOn _) (compareOn _)))

theorem scoreLe_eq (descending : Bool) (a b : F64 × RowId) :
    scoreLe descending a b =
      if descending then (scoreOrder a b).isGE else (scoreOrder a b).isLE := by
  have horder : (compare a.1.totalKey b.1.totalKey).then (compare a.2 b.2) = scoreOrder a b := rfl
  rw [scoreLe, horder]
  cases scoreOrder a b <;> cases descending <;> rfl

theorem scoreOrder_ne_eq {a b : F64 × RowId} (h : a.2 ≠ b.2) : scoreOrder a b ≠ .eq := by
  intro heq
  exact h (Nat.compare_eq_eq.mp (compareLex_eq_eq.mp heq).2)

/-- **What is sorted ascends strictly**, if no row id occurs twice. -/
theorem pairwise_mergeSort_scoreLe {scored : List (F64 × RowId)}
    (hnodup : (scored.map Prod.snd).Nodup) :
    (scored.mergeSort (scoreLe false)).Pairwise fun a b ↦ scoreOrder a b = .lt := by
  have hle : (scored.mergeSort (scoreLe false)).Pairwise fun a b ↦ scoreLe false a b = true := by
    refine List.pairwise_mergeSort (fun a b c hab hbc ↦ ?_) (fun a b ↦ ?_) scored
    · rw [scoreLe_eq] at hab hbc ⊢
      exact TransCmp.isLE_trans hab hbc
    · rw [scoreLe_eq, scoreLe_eq, @OrientedCmp.eq_swap _ scoreOrder _ b a]
      cases scoreOrder a b <;> rfl
  have hne : (scored.mergeSort (scoreLe false)).Pairwise fun a b ↦ a.2 ≠ b.2 := by
    have hperm := (List.mergeSort_perm scored (scoreLe false)).map Prod.snd
    exact List.pairwise_map.mp (hperm.nodup_iff.mpr hnodup)
  refine (hle.and hne).imp fun {a b} hab ↦ ?_
  have hle := (scoreLe_eq false a b).symm.trans hab.1
  exact (Ordering.isLE_iff_eq_lt_or_eq_eq.mp hle).resolve_right (scoreOrder_ne_eq hab.2)

/-- **`DESC` is the reverse.** -/
theorem mergeSort_scoreLe_true {scored : List (F64 × RowId)}
    (hnodup : (scored.map Prod.snd).Nodup) :
    scored.mergeSort (scoreLe true) = (scored.mergeSort (scoreLe false)).reverse := by
  have hge : (scored.mergeSort (scoreLe true)).Pairwise fun a b ↦ (scoreOrder a b).isGE = true := by
    have hsorted : (scored.mergeSort (scoreLe true)).Pairwise fun a b ↦
      scoreLe true a b = true := by
      refine List.pairwise_mergeSort (fun a b c hab hbc ↦ ?_) (fun a b ↦ ?_) scored
      · rw [scoreLe_eq] at hab hbc ⊢
        exact TransCmp.isGE_trans hab hbc
      · rw [scoreLe_eq, scoreLe_eq, @OrientedCmp.eq_swap _ scoreOrder _ b a]
        cases scoreOrder a b <;> rfl
    exact hsorted.imp fun {a b} hab ↦ (scoreLe_eq true a b).symm.trans hab
  have hlt := List.pairwise_reverse.mpr ((pairwise_mergeSort_scoreLe hnodup).imp
    (S := fun a b ↦ (scoreOrder b a).isGE = true) fun {a b} hab ↦ by
      rw [@OrientedCmp.eq_swap _ scoreOrder _ b a, hab]
      rfl)
  refine List.Perm.eq_of_pairwise (fun a b ha hb hab hba ↦ ?_) hge hlt
    ((List.mergeSort_perm _ _).trans ((List.mergeSort_perm _ _).symm.trans
      (List.reverse_perm _).symm))
  rw [List.mem_mergeSort] at ha
  rw [List.mem_reverse, List.mem_mergeSort] at hb
  refine List.inj_on_of_nodup_map hnodup ha hb ?_
  by_contra hne
  rw [@OrientedCmp.eq_swap _ scoreOrder _ b a, Ordering.isGE_swap] at hba
  exact scoreOrder_ne_eq hne (Ordering.eq_eq_of_isLE_of_isGE hba hab)

/-! ## Scoring -/

/-- **What is scored**: the rows that have a vector in the column, each with its distance. -/
theorem mem_vectorScoresChunk {rows : BTreeMap RowId Row} {rowIds : List RowId} {column : String}
    {target : List F32} {metric : VectorMetric} {scored : List (F64 × RowId)}
    (h : vectorScoresChunk rows rowIds column target metric = .ok scored) (distance : F64)
    (rowId : RowId) :
    (distance, rowId) ∈ scored ↔ rowId ∈ rowIds ∧ ∃ row vector, rows[rowId]? = some row ∧
      row[column]? = some (.vector vector) ∧
        vectorDistance vector target metric = .ok distance := by
  induction rowIds generalizing scored with
  | nil =>
    obtain rfl := Except.ok.inj h
    simp
  | cons first rest ih =>
    rw [vectorScoresChunk] at h
    split at h
    · rename_i vector hvector
      obtain ⟨row, hrow, hcolumn⟩ := Option.bind_eq_some_iff.mp hvector
      obtain ⟨distance', hdistance, h⟩ := bind_eq_ok h
      obtain ⟨others, hothers, h⟩ := bind_eq_ok h
      obtain rfl := Except.ok.inj h
      rw [List.mem_cons, List.mem_cons, ih hothers, Prod.mk.injEq]
      constructor
      · rintro (⟨rfl, rfl⟩ | ⟨hmem, hrest⟩)
        · exact ⟨.inl rfl, row, vector, hrow, hcolumn, hdistance⟩
        · exact ⟨.inr hmem, hrest⟩
      · rintro ⟨rfl | hmem, row', vector', hrow', hcolumn', hdistance'⟩
        · obtain rfl := Option.some.inj (hrow.symm.trans hrow')
          obtain rfl := Value.vector.inj (Option.some.inj (hcolumn.symm.trans hcolumn'))
          exact .inl ⟨Except.ok.inj (hdistance'.symm.trans hdistance), rfl⟩
        · exact .inr ⟨hmem, row', vector', hrow', hcolumn', hdistance'⟩
    · rename_i hnone
      rw [ih h, List.mem_cons]
      refine ⟨fun h ↦ ⟨.inr h.1, h.2⟩, ?_⟩
      rintro ⟨rfl | hmem, row, vector, hrow, hcolumn, hdistance⟩
      · -- the first row has no vector
        exact absurd (by rw [hrow]; exact hcolumn) (hnone vector)
      · exact ⟨hmem, row, vector, hrow, hcolumn, hdistance⟩

theorem vectorScoresChunk_sublist {rows : BTreeMap RowId Row} {rowIds : List RowId}
    {column : String} {target : List F32} {metric : VectorMetric} {scored : List (F64 × RowId)}
    (h : vectorScoresChunk rows rowIds column target metric = .ok scored) :
    (scored.map Prod.snd).Sublist rowIds := by
  induction rowIds generalizing scored with
  | nil =>
    obtain rfl := Except.ok.inj h
    exact List.Sublist.refl _
  | cons rowId rowIds ih =>
    rw [vectorScoresChunk] at h
    split at h
    · obtain ⟨distance, -, h⟩ := bind_eq_ok h
      obtain ⟨rest, hrest, h⟩ := bind_eq_ok h
      obtain rfl := Except.ok.inj h
      exact (ih hrest).cons_cons rowId
    · exact (ih h).cons rowId

/-- A ranking of the rows that were found: each that has a vector in the column, once, with its
distance, and the nearest first. -/
structure Ranks (t : Table) (column : String) (target : List F32) (metric : VectorMetric)
    (found : List RowId) (ranked : List (F64 × RowId)) : Prop where
  mem : ∀ distance rowId, (distance, rowId) ∈ ranked ↔ rowId ∈ found ∧
    ∃ row vector, t.rows[rowId]? = some row ∧ row[column]? = some (.vector vector) ∧
      vectorDistance vector target metric = .ok distance
  ascending : ranked.Pairwise fun a b ↦ scoreOrder a b = .lt

section Platform

variable [Platform] {options : TableRuntimeOptions}

/-- Whatever the filter, the rows are found in the order of their ids. -/
theorem ordered_matchingRowIds {t : Table} {filter : Option Filter} {found : List RowId}
    {path : AccessPath} (h : t.matchingRowIds filter options = .ok (found, path)) :
    found.Pairwise (compare · · = .lt) := by
  rcases filter with _ | ⟨column, value⟩ | ⟨column, query⟩ | ⟨column, point, meters, inclusive⟩
  · obtain ⟨rfl, -⟩ := Prod.mk.inj (Except.ok.inj h)
    exact ExtTreeMap.ordered_keys
  · obtain ⟨key, -, h⟩ := bind_eq_ok h
    split at h
    · obtain ⟨rfl, -⟩ := Prod.mk.inj (Except.ok.inj h)
      rcases t.primary[key]? with _ | rowId
      · exact List.Pairwise.nil
      · exact List.pairwise_singleton _ _
    · split at h
      · obtain ⟨rfl, -⟩ := Prod.mk.inj (Except.ok.inj h)
        exact ExtTreeSet.ordered_toList
      · obtain ⟨rfl, -⟩ := Prod.mk.inj (Except.ok.inj h)
        exact t.ordered_scan _
  · obtain ⟨rfl, -⟩ := Prod.ext_iff.mp (Except.ok.inj h)
    exact t.ordered_matchFulltext column query
  · obtain ⟨rfl, -⟩ := Prod.mk.inj (Except.ok.inj h)
    exact t.ordered_scan _

/-- What a selection that succeeds has done. -/
theorem selectWithOptions_eq_ok {t : Table} {projection : Projection} {filter : Option Filter}
    {column : String} {target : List F32} {descending : Bool} {limit : Option Nat}
    {rows : List Row}
    (h : t.selectWithOptions projection filter (some (.vectorDistance column target descending))
      limit options = .ok rows) :
    ∃ normalized found path scored, t.normalizeFilter filter options = .ok normalized ∧
      t.matchingRowIds normalized options = .ok (found, path) ∧
      vectorScoresChunk t.rows found column target options.vectorIndex.metric = .ok scored ∧
      rows = (match limit with
        | some limit => ((scored.mergeSort (scoreLe descending)).map Prod.snd).take limit
        | none => (scored.mergeSort (scoreLe descending)).map Prod.snd).filterMap fun rowId ↦
          t.rows[rowId]?.map (projectRow · projection) := by
  obtain ⟨-, -, h⟩ := bind_eq_ok h
  obtain ⟨normalized, hnormalized, h⟩ := bind_eq_ok h
  obtain ⟨⟨found, path⟩, hfound, h⟩ := bind_eq_ok h
  obtain ⟨columnRef, -, h⟩ := bind_eq_ok h
  let ordered (scored : List (F64 × RowId)) := (scored.mergeSort (scoreLe descending)).map Prod.snd
  have hscored : ∃ scored, vectorScores t.rows found column target options = .ok scored ∧
      rows = (match limit with
        | some limit => (ordered scored).take limit
        | none => ordered scored).filterMap fun rowId ↦
          t.rows[rowId]?.map (projectRow · projection) := by
    dsimp only at h
    split at h
    · cases h
    · split at h
      · split at h
        · cases h
        · obtain ⟨scored, hscored, h⟩ := bind_eq_ok h
          exact ⟨scored, hscored, (Except.ok.inj h).symm⟩
      · obtain ⟨scored, hscored, h⟩ := bind_eq_ok h
        exact ⟨scored, hscored, (Except.ok.inj h).symm⟩
  obtain ⟨scored, hscored, hrows⟩ := hscored
  rw [vectorScores_eq] at hscored
  exact ⟨normalized, found, path, scored, hnormalized, hfound, hscored, hrows⟩

/-- **Ordering by vector distance** takes no notice of the workers, and gives the first rows of
the ranking, or of its reverse. -/
theorem selectWithOptions_vectorDistance (t : Table) (projection : Projection)
    (filter : Option Filter) (column : String) (target : List F32) (descending : Bool)
    (limit : Option Nat) (options : TableRuntimeOptions) :
    t.selectWithOptions projection filter (some (.vectorDistance column target descending)) limit
        options =
      t.selectWithOptions projection filter (some (.vectorDistance column target descending)) limit
        { options with workerThreads := 1 } ∧
    ∀ rows, t.selectWithOptions projection filter
        (some (.vectorDistance column target descending)) limit options = .ok rows →
      ∃ normalized found path ranked, t.normalizeFilter filter options = .ok normalized ∧
        t.matchingRowIds normalized options = .ok (found, path) ∧
        t.Ranks column target options.vectorIndex.metric found ranked ∧
        let ordered := if descending then ranked.reverse else ranked
        let firsts := match limit with
          | some limit => ordered.take limit
          | none => ordered
        rows = firsts.filterMap fun score ↦ t.rows[score.2]?.map (projectRow · projection) := by
  constructor
  · simp only [selectWithOptions, vectorScores_eq]
    rfl
  · intro rows h
    obtain ⟨normalized, found, path, scored, hnormalized, hfound, hscored, rfl⟩ :=
      selectWithOptions_eq_ok h
    have hnodup : (scored.map Prod.snd).Nodup := by
      have hfoundNodup : found.Nodup := (ordered_matchingRowIds hfound).imp fun {a b} hab heq ↦ by
        rw [heq, Nat.compare_eq_eq.mpr rfl] at hab
        cases hab
      exact (vectorScoresChunk_sublist hscored).nodup hfoundNodup
    have hsorted : scored.mergeSort (scoreLe descending) =
        if descending then (scored.mergeSort (scoreLe false)).reverse
        else scored.mergeSort (scoreLe false) := by
      cases descending
      · rfl
      · exact mergeSort_scoreLe_true hnodup
    refine ⟨normalized, found, path, scored.mergeSort (scoreLe false), hnormalized, hfound,
      ⟨fun distance rowId ↦ ?_, pairwise_mergeSort_scoreLe hnodup⟩, ?_⟩
    · rw [List.mem_mergeSort]
      exact mem_vectorScoresChunk hscored distance rowId
    · dsimp only
      rw [hsorted]
      generalize (if descending then (scored.mergeSort (scoreLe false)).reverse
        else scored.mergeSort (scoreLe false)) = ordered
      rcases limit with _ | limit
      · exact List.filterMap_map
      · show ((ordered.map Prod.snd).take limit).filterMap _ = _
        rw [← List.map_take, List.filterMap_map]
        rfl

end Platform

/-- Two rows, of which one has a vector. -/
def oneVector : Table where
  name := "t"
  columns := [⟨"x", .vector, false⟩]
  rows := ((∅ : BTreeMap RowId Row).insert 1 ((∅ : Row).insert "x" .null)).insert 2
    ((∅ : Row).insert "x" (.vector [⟨0⟩]))
  nextRowId := 3
  primaryKey := none
  primary := ∅
  indexes := ∅
  fulltextIndexes := ∅

/-- The row with a vector is what comes out. -/
theorem selectWithOptions_oneVector : ∃ rows : List Row,
    @selectWithOptions Platform.ascii oneVector .all none
        (some (.vectorDistance "x" [⟨0⟩] true)) (some 5) { workerThreads := 4 } = .ok rows ∧
      ∃ normalized found path ranked,
        @normalizeFilter Platform.ascii oneVector none { workerThreads := 4 } = .ok normalized ∧
        @matchingRowIds Platform.ascii oneVector normalized { workerThreads := 4 } =
          .ok (found, path) ∧
        oneVector.Ranks "x" [⟨0⟩] .euclidean found ranked ∧
        rows = (ranked.reverse.take 5).filterMap fun score ↦
          oneVector.rows[score.2]?.map (projectRow · .all) := by
  have h : @selectWithOptions Platform.ascii oneVector .all none
      (some (.vectorDistance "x" [⟨0⟩] true)) (some 5) { workerThreads := 4 } =
        .ok [(∅ : Row).insert "x" (.vector [⟨0⟩])] := by
    decide +kernel
  exact ⟨_, h, (@selectWithOptions_vectorDistance Platform.ascii oneVector .all none "x" [⟨0⟩]
    true (some 5) { workerThreads := 4 }).2 _ h⟩

end Table

end Fsql
