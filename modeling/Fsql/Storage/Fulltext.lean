import Fsql.Storage.Matching
import Fsql.Storage.Typed

/-!
# Full-text indexes

A full-text index lists row ids under the tokens of a text, and what the tokens are depends on a
tokenizer.  `Table.FulltextExact tokenizer` says that every full-text index of a table has been
built with one; then `MATCH` finds through an index what it finds without one
(`Table.matchFulltext_eq`).

Every operation builds the indexes anew, and all but one do it with the tokenizer they are given.
`create_index` rebuilds with the default options, so it leaves full-text indexes that are those of
the simple tokenizer (`Table.createIndex_fulltextExact_iff`).
-/

set_option autoImplicit false

namespace Fsql

open DerivedIndex Std

section Platform

variable [Platform] {options : TableRuntimeOptions} {tokenizer : FullTextTokenizer}

namespace Table

/-- **The full-text indexes are those of a tokenizer.** -/
def FulltextExact (tokenizer : FullTextTokenizer) (t : Table) : Prop :=
  ∀ (n : String) (index : Index), t.fulltextIndexes[n]? = some index →
    Inverts (columnTokens tokenizer index.column) t.rows index.map

/-- Two tokenizers find the same tokens in every text of a column. -/
def TokensAgree (left right : FullTextTokenizer) (rows : BTreeMap RowId Row) (column : String) :
    Prop :=
  ∀ entry ∈ rows.toList, columnTokens left column entry.2 ⊆ columnTokens right column entry.2 ∧
    columnTokens right column entry.2 ⊆ columnTokens left column entry.2

instance decidableTokensAgree (left right : FullTextTokenizer) (rows : BTreeMap RowId Row)
    (column : String) : Decidable (TokensAgree left right rows column) :=
  inferInstanceAs (Decidable (∀ entry ∈ rows.toList, _ ∧ _))

/-! ## Matching -/

/-- **What `MATCH` asks for**: the rows whose text has every token of the query, and none when the
query has no token. -/
def HasTokens (tokenizer : FullTextTokenizer) (column query : String) (row : Row) : Prop :=
  tokenize query tokenizer ≠ [] ∧
    ∀ token ∈ tokenize query tokenizer, token ∈ columnTokens tokenizer column row

theorem fulltextMatches_iff {column : String} {tokens : List String} (hne : tokens ≠ [])
    {row : Row} : fulltextMatches column tokens options row = true ↔
      ∀ token ∈ tokens, token ∈ columnTokens options.fulltextTokenizer column row := by
  obtain ⟨token, htoken⟩ := List.exists_mem_of_ne_nil tokens hne
  rw [fulltextMatches, columnTokens]
  generalize row[column]? = value
  split
  · simp only [List.all_eq_true, List.contains_eq_mem, decide_eq_true_eq]
  · simp only [Bool.false_eq_true, List.not_mem_nil, imp_false, false_iff]
    exact fun h ↦ h token htoken

/-- Without an index, `MATCH` finds the rows it asks for. -/
theorem mem_matchFulltext_scan {t : Table} {column query : String}
    (hindex : indexOn t.fulltextIndexes column = none) (rowId : RowId) :
    rowId ∈ (t.matchFulltext column query options).1 ↔
      ∃ row, t.rows[rowId]? = some row ∧ HasTokens options.fulltextTokenizer column query row := by
  rw [matchFulltext]
  split
  · rename_i hnil
    simp [HasTokens, hnil]
  · rename_i token tokens hcons
    rw [hindex]
    simp only [mem_scan, fulltextMatches_iff (List.cons_ne_nil token tokens), HasTokens, hcons,
      ne_eq, reduceCtorEq, not_false_eq_true, true_and]

/-- Through an index that is right, `MATCH` finds the rows it asks for. -/
theorem mem_matchFulltext_index {t : Table} {column query name : String} {index : Index}
    (hindex : indexOn t.fulltextIndexes column = some (name, index))
    (hexact : t.FulltextExact options.fulltextTokenizer) (rowId : RowId) :
    rowId ∈ (t.matchFulltext column query options).1 ↔
      ∃ row, t.rows[rowId]? = some row ∧ HasTokens options.fulltextTokenizer column query row := by
  obtain ⟨hname, rfl⟩ := indexOn_eq_some hindex
  have hlookup := (hexact name index hname).mem_lookup
  rw [matchFulltext]
  split
  · rename_i hnil
    simp [HasTokens, hnil]
  · rename_i token tokens hcons
    rw [hindex]
    simp only [ExtTreeSet.mem_toList, mem_foldl_inter, HasTokens, hcons, ne_eq, reduceCtorEq,
      not_false_eq_true, true_and]
    rw [← List.forall_mem_cons (p := fun token ↦ rowId ∈ index.map.lookup token)]
    constructor
    · intro h
      obtain ⟨row, hrow, -⟩ := (hlookup token rowId).mp (h token List.mem_cons_self)
      refine ⟨row, hrow, fun k hk ↦ ?_⟩
      obtain ⟨row', hrow', hmem⟩ := (hlookup k rowId).mp (h k hk)
      obtain rfl := Option.some.inj (hrow.symm.trans hrow')
      exact hmem
    · rintro ⟨row, hrow, h⟩ k hk
      exact (hlookup k rowId).mpr ⟨row, hrow, h k hk⟩

theorem ordered_matchFulltext (t : Table) (column query : String) :
    (t.matchFulltext column query options).1.Pairwise (compare · · = .lt) := by
  rw [matchFulltext]
  split
  · exact List.Pairwise.nil
  · split
    · exact ExtTreeSet.ordered_toList
    · exact t.ordered_scan _

/-- The table with its full-text indexes dropped. -/
def withoutFulltext (t : Table) : Table := { t with fulltextIndexes := ∅ }

omit [Platform] in
theorem indexOn_withoutFulltext (t : Table) (column : String) :
    indexOn t.withoutFulltext.fulltextIndexes column = none := by
  simp [indexOn, withoutFulltext]

/-- **`MATCH` finds through an index what it finds without one.** -/
theorem matchFulltext_eq {t : Table} (hexact : t.FulltextExact options.fulltextTokenizer)
    (column query : String) :
    (t.matchFulltext column query options).1 =
      (t.withoutFulltext.matchFulltext column query options).1 := by
  refine BTree.eq_of_ordered (t.ordered_matchFulltext column query)
    (t.withoutFulltext.ordered_matchFulltext column query) fun rowId ↦ ?_
  rw [mem_matchFulltext_scan (t.indexOn_withoutFulltext column)]
  cases hindex : indexOn t.fulltextIndexes column with
  | none => exact mem_matchFulltext_scan hindex rowId
  | some entry => exact mem_matchFulltext_index hindex hexact rowId

/-- **A `SELECT` with a `MATCH` does not depend on the full-text indexes.** -/
theorem selectWithOptions_fulltext {t : Table} (hexact : t.FulltextExact options.fulltextTokenizer)
    (projection : Projection) (column query : String) (order : Option Order) (limit : Option Nat) :
    t.selectWithOptions projection (some (.fullText column query)) order limit options =
      t.withoutFulltext.selectWithOptions projection (some (.fullText column query)) order limit
        options := by
  have hnormal : t.withoutFulltext.normalizeFilter (some (.fullText column query)) options =
      t.normalizeFilter (some (.fullText column query)) options := rfl
  have hprojection : t.withoutFulltext.validateProjection projection =
      t.validateProjection projection := rfl
  rw [selectWithOptions, selectWithOptions, hnormal, hprojection]
  cases hfilter : t.normalizeFilter (some (.fullText column query)) options with
  | error error => rfl
  | ok filter =>
    have hfound : ∃ path path' rowIds, t.matchingRowIds filter options = .ok (rowIds, path) ∧
        t.withoutFulltext.matchingRowIds filter options = .ok (rowIds, path') := by
      rw [normalizeFilter] at hfilter
      cases hcolumn : t.column column with
      | error error => simp [hcolumn, bind, Except.bind] at hfilter
      | ok columnRef =>
        simp only [hcolumn, bind, Except.bind, pure, Except.pure] at hfilter
        split at hfilter
        · cases hfilter
        · obtain rfl := Except.ok.inj hfilter
          refine ⟨(t.matchFulltext columnRef.name query options).2,
            (t.withoutFulltext.matchFulltext columnRef.name query options).2, _, rfl, ?_⟩
          have heq : (t.withoutFulltext.matchFulltext columnRef.name query options).1 =
              (t.matchFulltext columnRef.name query options).1 :=
            (matchFulltext_eq hexact columnRef.name query).symm
          exact congrArg Except.ok (Prod.ext heq rfl)
    obtain ⟨path, path', rowIds, hmatch, hmatch'⟩ := hfound
    simp only [bind, Except.bind, hmatch, hmatch']
    rfl

/-! ## Operations -/

theorem fulltextExact_rebuild {t : Table}
    (h : (t.rebuildIndexesWithOptions options).1 = .ok ()) :
    FulltextExact options.fulltextTokenizer (t.rebuildIndexesWithOptions options).2 :=
  (rebuild_exact h).fulltextIndexes

theorem fulltextExact_new {name : String} {columns : List Column} {t : Table}
    (h : Table.new name columns = .ok t) : t.FulltextExact tokenizer := by
  rw [Table.new] at h
  cases hcheck : checkColumns columns ∅ none with
  | error error => simp [hcheck, bind, Except.bind] at h
  | ok primaryKey =>
    simp only [hcheck, bind, Except.bind, pure, Except.pure, Except.ok.injEq] at h
    subst h
    intro n index hindex
    simp at hindex

theorem fulltextExact_insert {t : Table} (hc : t.Coherent)
    (h : t.FulltextExact options.fulltextTokenizer) (columns : Option (List String))
    (values : List Value) :
    (t.insertWithOptions columns values options).2.FulltextExact options.fulltextTokenizer := by
  rw [insertWithOptions]
  split
  · exact h
  · rename_i row hrow
    exact fulltextExact_rebuild (hc.rebuild_stored hrow).1

theorem fulltextExact_update {t : Table} (hc : t.Coherent)
    (h : t.FulltextExact options.fulltextTokenizer) (assignments : List (String × Value))
    (filter : Option Filter) :
    (t.updateWithOptions assignments filter options).2.FulltextExact
      options.fulltextTokenizer := by
  cases hplan : t.updatePlan assignments filter options with
  | error error =>
    rw [updateWithOptions, hplan]
    exact h
  | ok plan =>
    obtain ⟨rowIds, normalized⟩ := plan
    have hdata := (t.assigned rowIds normalized).rebuild_sameData options
    cases hrebuild : ((t.assigned rowIds normalized).rebuildIndexesWithOptions options).1 with
    | ok _ =>
      rw [updateWithOptions_of_ok hplan hrebuild]
      exact fulltextExact_rebuild hrebuild
    | error error =>
      rw [updateWithOptions_of_error hplan hrebuild]
      exact fulltextExact_rebuild ((sameData_restored hdata).rebuild hc options).1

theorem fulltextExact_delete {t : Table} (hc : t.Coherent)
    (h : t.FulltextExact options.fulltextTokenizer) (filter : Option Filter) :
    (t.deleteWithOptions filter options).2.FulltextExact options.fulltextTokenizer := by
  rw [deleteWithOptions]
  split
  · exact h
  · rename_i rowIds hmatch
    have hexact := fulltextExact_rebuild (hc.rebuild_erased rowIds options).1
    split <;> rename_i heq <;> rw [erased, heq] at hexact <;> exact hexact

theorem fulltextExact_createFulltextIndex {t : Table} (hc : t.Coherent)
    (h : t.FulltextExact options.fulltextTokenizer) (name column : String) :
    (t.createFulltextIndexWithOptions name column options).2.FulltextExact
      options.fulltextTokenizer := by
  rw [createFulltextIndexWithOptions]
  split
  · exact h
  · split
    · exact h
    · split
      · exact h
      · exact fulltextExact_rebuild (rebuild_coherent
          (t := { t with fulltextIndexes := t.fulltextIndexes.insert name ⟨column, ∅⟩ })
          hc.rowId_lt hc.finite hc.keys options).1

/-- **Indexes of one tokenizer are those of another** exactly when the two agree on the stored
texts. -/
theorem FulltextExact.iff_tokensAgree {tokenizer' : FullTextTokenizer} {t : Table}
    (h : t.FulltextExact tokenizer) :
    t.FulltextExact tokenizer' ↔
      ∀ (n : String) (index : Index), t.fulltextIndexes[n]? = some index →
        TokensAgree tokenizer tokenizer' t.rows index.column := by
  constructor
  · intro h' n index hindex entry hentry
    have hrow := (mem_toList_iff t.rows entry.1 entry.2).mp hentry
    -- both tokenizers say under which tokens the row stands in this index
    have hiff (token : String) : token ∈ columnTokens tokenizer index.column entry.2 ↔
        token ∈ columnTokens tokenizer' index.column entry.2 := by
      have hleft := (h n index hindex).mem_lookup token entry.1
      have hright := (h' n index hindex).mem_lookup token entry.1
      rw [hrow] at hleft hright
      simpa using hleft.symm.trans hright
    exact ⟨fun token ↦ (hiff token).mp, fun token ↦ (hiff token).mpr⟩
  · intro hagree n index hindex
    refine (h n index hindex).congr fun rowId row hrow token ↦ ?_
    obtain ⟨hleft, hright⟩ :=
      hagree n index hindex (rowId, row) ((mem_toList_iff t.rows rowId row).mpr hrow)
    exact ⟨fun hmem ↦ hright hmem, fun hmem ↦ hleft hmem⟩

/-- Whether two tokenizers agree on the texts of a table depends on its data only. -/
theorem SameData.tokensAgree_iff {tokenizer' : FullTextTokenizer} {t t' : Table}
    (h : t.SameData t') :
    (∀ (n : String) (index : Index), t'.fulltextIndexes[n]? = some index →
        TokensAgree tokenizer tokenizer' t'.rows index.column) ↔
      ∀ (n : String) (index : Index), t.fulltextIndexes[n]? = some index →
        TokensAgree tokenizer tokenizer' t.rows index.column := by
  rw [h.rows]
  constructor
  · intro hagree n index hindex
    obtain ⟨index', hindex', hcolumn⟩ := exists_of_column_eq (h.fulltextIndexes n).symm hindex
    exact hcolumn ▸ hagree n index' hindex'
  · intro hagree n index hindex
    obtain ⟨index', hindex', hcolumn⟩ := exists_of_column_eq (h.fulltextIndexes n) hindex
    exact hcolumn ▸ hagree n index' hindex'

/-- **After a secondary index has been created, the full-text indexes are those of the simple
tokenizer.**  They are those of another one exactly when the two agree on the stored texts. -/
theorem createIndex_fulltextExact_iff {t : Table} (hc : t.Coherent) {name column : String}
    (h : (t.createIndex name column).1 = .ok ()) :
    (t.createIndex name column).2.FulltextExact tokenizer ↔
      ∀ (n : String) (index : Index), t.fulltextIndexes[n]? = some index →
        TokensAgree .simple tokenizer t.rows index.column := by
  obtain ⟨hok, -⟩ := rebuild_coherent (t := { t with indexes := t.indexes.insert name ⟨column, ∅⟩ })
    hc.rowId_lt hc.finite hc.keys {}
  have hdata := rebuild_sameData { t with indexes := t.indexes.insert name ⟨column, ∅⟩ } {}
  have heq : (t.createIndex name column).2 =
      ({ t with indexes := t.indexes.insert name ⟨column, ∅⟩ }.rebuildIndexesWithOptions {}).2 := by
    rw [createIndex] at h ⊢
    split at h
    · cases h
    · split at h
      · cases h
      · rename_i hname
        rw [if_neg hname]
        rfl
  rw [heq]
  exact (fulltextExact_rebuild hok).iff_tokensAgree.trans hdata.tokensAgree_iff

/-! ## Rebuilding -/

/-- Rebuilding leaves the full-text indexes as they are. -/
def FulltextRebuilt (options : TableRuntimeOptions) (t : Table) : Prop :=
  (t.rebuildIndexesWithOptions options).1 = .ok () ∧
    (t.rebuildIndexesWithOptions options).2.fulltextIndexes = t.fulltextIndexes

/-- **The indexes that are right are those that a rebuild leaves as they are.** -/
theorem fulltextRebuilt_iff {t : Table} (hc : t.Coherent) :
    t.FulltextRebuilt options ↔ t.FulltextExact options.fulltextTokenizer := by
  obtain ⟨hok, -⟩ := rebuild_coherent hc.rowId_lt hc.finite hc.keys options
  have hdata := t.rebuild_sameData options
  have hexact := fulltextExact_rebuild hok
  constructor
  · rintro ⟨-, hsame⟩ n index hindex
    have := hexact n index (hsame ▸ hindex)
    rwa [hdata.rows] at this
  · intro h
    refine ⟨hok, ExtTreeMap.ext_getElem? fun n ↦ ?_⟩
    have hcolumn := hdata.fulltextIndexes n
    rcases hold : t.fulltextIndexes[n]? with _ | index
    · rw [hold, Option.map_none, Option.map_eq_none_iff] at hcolumn
      exact hcolumn
    · obtain ⟨index', hindex', heq⟩ := exists_of_column_eq hcolumn.symm hold
      have hnew := hexact n index' hindex'
      rw [hdata.rows, heq] at hnew
      rw [hindex']
      refine congrArg some ?_
      rcases index with ⟨column, map⟩
      rcases index' with ⟨column', map'⟩
      obtain rfl : column' = column := heq
      exact congrArg _ (hnew.unique (h n _ hold))

end Table

end Platform

end Fsql
