import Fsql.Pool

/-!
# Merging a transaction

What `merge_catalogs` computes.  A lock key is text, and the merge reads the row ids back out of it;
`rowLockKey_inj` and `Reads.eq` say that the keys of rows are told apart, and read as what they are.
`mergeTable_spec` gives the rows of a merged table in terms of its two sources, and
`mergeCatalogs_spec` those of a merged catalog.

A merge can fail, and `Mergeable` is exactly when it does not: the keys can be read, and the rows
that come together have distinct primary keys.
-/

set_option autoImplicit false

namespace Fsql

open Number

/-! ## Lock keys -/

/-- The two forms of a lock key. -/
def IsLockKey (key : String) : Prop :=
  (∃ table rowId, key = rowLockKey table rowId) ∨ ∃ rest, key = "insert:" ++ rest

theorem toList_rowLockKey (table : String) (rowId : RowId) :
    (rowLockKey table rowId).toList =
      ("row:".toList ++ table.toList) ++ ':' :: decimal rowId := by
  simp [rowLockKey]

/-- **A lock key names its row.** -/
theorem rowLockKey_inj {table table' : String} {rowId rowId' : RowId}
    (h : rowLockKey table rowId = rowLockKey table' rowId') : table = table' ∧ rowId = rowId' := by
  have hlist := congrArg String.toList h
  rw [toList_rowLockKey, toList_rowLockKey] at hlist
  obtain ⟨htable, hid⟩ := Text.append_sep_inj (not_mem_decimal (by decide))
    (not_mem_decimal (by decide)) hlist
  exact ⟨String.toList_inj.mp (List.append_cancel_left htable), decimal_inj hid⟩

/-- The lock key of an insertion is not that of a row. -/
theorem insert_ne_rowLockKey (rest table : String) (rowId : RowId) :
    "insert:" ++ rest ≠ rowLockKey table rowId := by
  intro h
  have hlist := congrArg String.toList h
  rw [toList_rowLockKey] at hlist
  simp at hlist

/-- The key is read as that of a row of the table. -/
def Reads (tableName key : String) (rowId : RowId) : Prop :=
  ("row:" ++ tableName ++ ":").toList.isPrefixOf key.toList = true ∧
    parseUnbounded (key.toList.drop ("row:" ++ tableName ++ ":").toList.length) = some rowId

/-- The key is taken for that of a row of the table, and no row id can be read from it. -/
def Malformed (tableName key : String) : Prop :=
  ("row:" ++ tableName ++ ":").toList.isPrefixOf key.toList = true ∧
    parseUnbounded (key.toList.drop ("row:" ++ tableName ++ ":").toList.length) = none

instance decidableMalformed (tableName key : String) : Decidable (Malformed tableName key) :=
  inferInstanceAs (Decidable (_ ∧ _))

theorem reads_rowLockKey (table : String) (rowId : RowId) :
    Reads table (rowLockKey table rowId) rowId := by
  have hlist : (rowLockKey table rowId).toList = ("row:" ++ table ++ ":").toList ++
    decimal rowId := by
    simp [rowLockKey]
  rw [Reads, hlist, List.isPrefixOf_iff_prefix, List.drop_left]
  exact ⟨List.prefix_append _ _, parseUnbounded_decimal rowId⟩

/-- **A lock key is read as that of its own row only.** -/
theorem Reads.eq {tableName key : String} {rowId : RowId} (h : Reads tableName key rowId)
    (hkey : IsLockKey key) : key = rowLockKey tableName rowId := by
  obtain ⟨hstarts, hparse⟩ := h
  rw [List.isPrefixOf_iff_prefix] at hstarts
  obtain ⟨rest, hrest⟩ := hstarts
  rw [← hrest, List.drop_left] at hparse
  have hsep : ':' ∉ rest := not_mem_of_parseUnbounded hparse (by decide) (by decide)
  have hkeyList : key.toList = ("row:".toList ++ tableName.toList) ++ ':' :: rest := by
    rw [← hrest]
    simp
  rcases hkey with ⟨table, rowId', rfl⟩ | ⟨other, rfl⟩
  · rw [toList_rowLockKey] at hkeyList
    obtain ⟨htable, hid⟩ := Text.append_sep_inj (not_mem_decimal (by decide)) hsep hkeyList
    obtain rfl := String.toList_inj.mp (List.append_cancel_left htable)
    rw [← hid, parseUnbounded_decimal, Option.some_inj] at hparse
    rw [hparse]
  · simp at hkeyList

/-! ## One table -/

/-- The locked rows of a list of keys are copied, if all keys can be read. -/
theorem overlayRows_spec {tableName : String} {staged : Table} {keys : List String}
    (h : ∀ key ∈ keys, ¬Malformed tableName key) (rows : BTreeMap RowId Row) :
    ∃ rows', overlayRows tableName staged keys rows = .ok rows' ∧
      ∀ rowId : RowId, ((∃ key ∈ keys, Reads tableName key rowId) →
          rows'[rowId]? = staged.rows[rowId]?) ∧
        ((∀ key ∈ keys, ¬Reads tableName key rowId) → rows'[rowId]? = rows[rowId]?) := by
  induction keys generalizing rows with
  | nil => exact ⟨rows, rfl, fun rowId ↦ ⟨by simp, fun _ ↦ rfl⟩⟩
  | cons key keys ih =>
    rw [List.forall_mem_cons] at h
    obtain ⟨hkey, hkeys⟩ := h
    rw [overlayRows]
    split
    · rename_i hstarts
      cases hparse :
        parseUnbounded (key.toList.drop ("row:" ++ tableName ++ ":").toList.length) with
      | none => exact absurd ⟨hstarts, hparse⟩ hkey
      | some read =>
        have hread (rowId : RowId) : Reads tableName key rowId ↔ read = rowId := by
          rw [Reads, hparse, Option.some_inj]
          exact ⟨fun hr ↦ hr.2, fun heq ↦ ⟨hstarts, heq⟩⟩
        -- what is copied for this key
        obtain ⟨copied, heq, hcopied⟩ : ∃ copied,
            overlayRows tableName staged (key :: keys) rows =
                overlayRows tableName staged keys copied ∧
              ∀ rowId : RowId, copied[rowId]? =
                if read = rowId then staged.rows[rowId]? else rows[rowId]? := by
          rw [overlayRows, if_pos hstarts, hparse]
          refine ⟨_, rfl, fun rowId ↦ ?_⟩
          by_cases heq : read = rowId
          · subst heq
            cases staged.rows[read]? <;> simp
          · cases staged.rows[read]? with
            | none => simp only [BTree.getElem?_erase, if_neg heq]
            | some row => simp only [BTree.getElem?_insert, if_neg heq]
        obtain ⟨rows', hrows', hspec⟩ := ih hkeys copied
        rw [overlayRows, if_pos hstarts, hparse] at heq
        rw [← heq] at hrows'
        refine ⟨rows', hrows', fun rowId ↦ ⟨?_, fun hnone ↦ ?_⟩⟩
        · rintro ⟨key', hmem, hkey'⟩
          by_cases hlater : ∃ key ∈ keys, Reads tableName key rowId
          · exact (hspec rowId).1 hlater
          · have hnone : ∀ key ∈ keys, ¬Reads tableName key rowId := fun k hk hr ↦
              hlater ⟨k, hk, hr⟩
            rcases List.mem_cons.mp hmem with rfl | hmem
            · rw [(hspec rowId).2 hnone, hcopied, if_pos ((hread rowId).mp hkey')]
            · exact absurd hkey' (hnone key' hmem)
        · rw [List.forall_mem_cons, hread] at hnone
          rw [(hspec rowId).2 hnone.2, hcopied, if_neg hnone.1]
    · rename_i hstarts
      obtain ⟨rows', hrows', hspec⟩ := ih hkeys rows
      have hread (rowId : RowId) : ¬Reads tableName key rowId := fun hr ↦ hstarts hr.1
      refine ⟨rows', hrows', fun rowId ↦ ⟨?_, fun hnone ↦ ?_⟩⟩
      · rintro ⟨key', hmem, hkey'⟩
        rcases List.mem_cons.mp hmem with rfl | hmem
        · exact absurd hkey' (hread rowId)
        · exact (hspec rowId).1 ⟨key', hmem, hkey'⟩
      · rw [List.forall_mem_cons] at hnone
        exact (hspec rowId).2 hnone.2

/-- A key that cannot be read makes the merge fail. -/
theorem overlayRows_error {tableName : String} {staged : Table} {keys : List String} {key : String}
    (hmem : key ∈ keys) (hkey : Malformed tableName key) (rows : BTreeMap RowId Row) :
    ∃ error, overlayRows tableName staged keys rows = .error error := by
  induction keys generalizing rows with
  | nil => simp at hmem
  | cons k keys ih =>
    rw [overlayRows]
    rcases List.mem_cons.mp hmem with rfl | hmem
    · simp only [hkey.1, if_true, hkey.2]
      exact ⟨_, rfl⟩
    · split
      · split
        · exact ⟨_, rfl⟩
        · exact ih hmem _
      · exact ih hmem _

/-- The rows of a merged table: those of the staged table where the row is locked, and those of the
committed table elsewhere. -/
def mergedRows (tableName : String) (target staged : Table) (lockedRows : BTreeSet String) :
    BTreeMap RowId Row :=
  BTree.overlay (fun rowId ↦ rowLockKey tableName rowId ∈ lockedRows) staged.rows target.rows

theorem getElem?_mergedRows (tableName : String) (target staged : Table)
    (lockedRows : BTreeSet String) (rowId : RowId) :
    (mergedRows tableName target staged lockedRows)[rowId]? =
      if rowLockKey tableName rowId ∈ lockedRows then staged.rows[rowId]?
        else target.rows[rowId]? := by
  rw [mergedRows, BTree.getElem?_overlay]
  simp only [decide_eq_true_eq]

/-- **The merge of a table can be carried out**: the locked keys can be read, and the primary keys
of the rows that come together are distinct. -/
structure MergeableTable (tableName : String) (target staged : Table)
    (lockedRows : BTreeSet String) : Prop where
  /-- The keys taken for keys of rows of the table are such. -/
  keys : ∀ key ∈ lockedRows.toList, ¬Malformed tableName key
  /-- The rows that come together have distinct primary keys. -/
  keysOk : { target with rows := mergedRows tableName target staged lockedRows }.KeysOk

instance decidableMergeableTable (tableName : String) (target staged : Table)
    (lockedRows : BTreeSet String) :
    Decidable (MergeableTable tableName target staged lockedRows) :=
  decidable_of_iff ((∀ key ∈ lockedRows.toList, ¬Malformed tableName key) ∧
      { target with rows := mergedRows tableName target staged lockedRows }.KeysOk)
    ⟨fun ⟨hkeys, hok⟩ ↦ ⟨hkeys, hok⟩, fun ⟨hkeys, hok⟩ ↦ ⟨hkeys, hok⟩⟩

/-- The merged table: the committed one with other rows, up to its derived maps. -/
def MergedFrom (tableName : String) (target staged : Table) (lockedRows : BTreeSet String)
    (merged : Table) : Prop :=
  { target with rows := mergedRows tableName target staged lockedRows }.SameData merged

/-- Among lock keys, a row's own key is the only one read as it. -/
theorem exists_reads_iff {tableName : String} {lockedRows : BTreeSet String}
    (hkeys : ∀ key ∈ lockedRows, IsLockKey key) (rowId : RowId) :
    (∃ key ∈ lockedRows.toList, Reads tableName key rowId) ↔
      rowLockKey tableName rowId ∈ lockedRows := by
  simp only [Std.ExtTreeSet.mem_toList]
  constructor
  · rintro ⟨key, hmem, hreads⟩
    exact hreads.eq (hkeys key hmem) ▸ hmem
  · intro hmem
    exact ⟨_, hmem, reads_rowLockKey tableName rowId⟩

section Platform

variable [Platform] {tableName : String} {target staged : Table} {lockedRows : BTreeSet String}

/-- The merge of a table is the rebuild of the merged rows, once the keys are read. -/
theorem mergeTable_eq (hnext : staged.nextRowId ≤ target.nextRowId)
    (hkeys : ∀ key ∈ lockedRows, IsLockKey key)
    (hread : ∀ key ∈ lockedRows.toList, ¬Malformed tableName key) :
    mergeTable tableName target staged lockedRows.toList =
      let merged := { target with
        rows := mergedRows tableName target staged lockedRows }.rebuildIndexesWithOptions {}
      merged.1.map fun _ ↦ merged.2 := by
  obtain ⟨rows, hrows, hspec⟩ := @overlayRows_spec tableName staged _ hread target.rows
  have heq : rows = mergedRows tableName target staged lockedRows := by
    refine Std.ExtTreeMap.ext_getElem? fun rowId ↦ ?_
    rw [getElem?_mergedRows]
    split
    · rename_i hlocked
      exact (hspec rowId).1 ((exists_reads_iff hkeys rowId).mpr hlocked)
    · rename_i hfree
      refine (hspec rowId).2 fun key hmem hreads ↦ hfree ?_
      exact (exists_reads_iff hkeys rowId).mp ⟨key, hmem, hreads⟩
  have hnew : List.range' target.nextRowId (staged.nextRowId - target.nextRowId) = [] := by
    rw [Nat.sub_eq_zero_of_le hnext]
    rfl
  simp only [mergeTable, hrows, bind, Except.bind, hnew, appendRows, List.foldl_nil,
    Nat.max_eq_left hnext, heq]

/-- **A mergeable table is merged.** -/
theorem mergeTable_ok (htarget : target.Coherent) (hstaged : staged.Coherent)
    (hnext : staged.nextRowId ≤ target.nextRowId) (hkeys : ∀ key ∈ lockedRows, IsLockKey key)
    (h : MergeableTable tableName target staged lockedRows) :
    ∃ merged, mergeTable tableName target staged lockedRows.toList = .ok merged ∧
      merged.Coherent ∧ MergedFrom tableName target staged lockedRows merged := by
  obtain ⟨hok, hcoherent⟩ := Table.rebuild_coherent
    (t := { target with rows := mergedRows tableName target staged lockedRows })
    (fun rowId row hrow ↦ by
      rw [getElem?_mergedRows] at hrow
      split at hrow
      · exact Nat.lt_of_lt_of_le (hstaged.rowId_lt rowId row hrow) hnext
      · exact htarget.rowId_lt rowId row hrow)
    (fun rowId row hrow ↦ by
      rw [getElem?_mergedRows] at hrow
      split at hrow
      · exact hstaged.finite rowId row hrow
      · exact htarget.finite rowId row hrow)
    h.keysOk {}
  refine ⟨_, ?_, hcoherent, Table.rebuild_sameData _ {}⟩
  rw [mergeTable_eq hnext hkeys h.keys]
  simp only [hok, Except.map]

/-- **Any other is not.** -/
theorem mergeTable_error (hnext : staged.nextRowId ≤ target.nextRowId)
    (hkeys : ∀ key ∈ lockedRows, IsLockKey key)
    (h : ¬MergeableTable tableName target staged lockedRows) :
    ∃ error, mergeTable tableName target staged lockedRows.toList = .error error := by
  by_cases hread : ∀ key ∈ lockedRows.toList, ¬Malformed tableName key
  · have hfails : ({ target with rows := mergedRows tableName target staged lockedRows
        }.rebuildIndexesWithOptions {}).1 ≠ .ok () := fun hok ↦
      h ⟨hread, ((Table.rebuild_ok_iff _ _).mp hok).1⟩
    rw [mergeTable_eq hnext hkeys hread]
    cases hresult : ({ target with rows := mergedRows tableName target staged lockedRows
        }.rebuildIndexesWithOptions {}).1 with
    | error error => exact ⟨error, by simp only [hresult, Except.map]⟩
    | ok _ => exact absurd hresult hfails
  · simp only [not_forall, not_not] at hread
    obtain ⟨key, hmem, hkey⟩ := hread
    obtain ⟨error, herror⟩ := @overlayRows_error tableName staged _ key hmem hkey target.rows
    exact ⟨error, by simp only [mergeTable, herror, bind, Except.bind]⟩

/-! ## The catalog -/

/-- What a merge starts from: the staged tables are committed ones, with at most their row ids, and
what is locked are rows and insertions. -/
structure MergeInput (base staged : Catalog) (lockedRows : BTreeSet String) : Prop where
  base_coherent : base.Coherent
  staged_coherent : staged.Coherent
  /-- Staged tables are committed, and have used no row ids that the committed ones have not. -/
  below (name : String) (t : Table) : staged.tables[name]? = some t →
    ∃ target, base.tables[name]? = some target ∧ t.nextRowId ≤ target.nextRowId
  /-- What is locked are rows and insertions. -/
  keys : ∀ key ∈ lockedRows, IsLockKey key

/-- **The merge can be carried out**, in every table. -/
def Mergeable (base staged : Catalog) (lockedRows : BTreeSet String) : Prop :=
  ∀ p ∈ staged.tables.toList, ∀ target ∈ base.tables[p.1]?,
    MergeableTable p.1 target p.2 lockedRows

instance decidableMergeable (base staged : Catalog) (lockedRows : BTreeSet String) :
    Decidable (Mergeable base staged lockedRows) :=
  inferInstanceAs (Decidable (∀ p ∈ staged.tables.toList, ∀ target ∈ base.tables[p.1]?,
    MergeableTable p.1 target p.2 lockedRows))

theorem mergeTables_ok (hkeys : ∀ key ∈ lockedRows, IsLockKey key) {l : List (String × Table)}
    (hnodup : (l.map Prod.fst).Nodup) {base : Catalog} (hbase : base.Coherent)
    (hl : ∀ p ∈ l, p.2.Coherent ∧ ∃ target, base.tables[p.1]? = some target ∧
      p.2.nextRowId ≤ target.nextRowId ∧ MergeableTable p.1 target p.2 lockedRows) :
    ∃ merged, mergeTables lockedRows.toList l base = .ok merged ∧ merged.Coherent ∧
      (∀ name ∉ l.map Prod.fst, merged.tables[name]? = base.tables[name]?) ∧
      ∀ p ∈ l, ∃ target m, base.tables[p.1]? = some target ∧ merged.tables[p.1]? = some m ∧
        MergedFrom p.1 target p.2 lockedRows m := by
  induction l generalizing base with
  | nil => exact ⟨base, rfl, hbase, fun _ _ ↦ rfl, by simp⟩
  | cons p l ih =>
    obtain ⟨name, t⟩ := p
    rw [List.map_cons, List.nodup_cons] at hnodup
    rw [List.forall_mem_cons] at hl
    obtain ⟨⟨ht, target, htarget, hnext, hmergeable⟩, hl⟩ := hl
    obtain ⟨m, hm, hcoherent, hfrom⟩ :=
      mergeTable_ok (hbase name target htarget) ht hnext hkeys hmergeable
    -- the tables still to come are untouched
    have hother (p : String × Table) (hp : p ∈ l) :
        (base.tables.insert name m)[p.1]? = base.tables[p.1]? := by
      rw [BTree.getElem?_insert, if_neg]
      rintro rfl
      exact hnodup.1 (List.mem_map.mpr ⟨p, hp, rfl⟩)
    obtain ⟨merged, hmerged, hall, hkept, hnew⟩ := @ih hnodup.2 ⟨base.tables.insert name m⟩
      (hbase.insert name hcoherent) (fun p hp ↦ by
        obtain ⟨hp', target', htarget', hrest⟩ := hl p hp
        exact ⟨hp', target', (hother p hp).trans htarget', hrest⟩)
    refine ⟨merged, ?_, hall, fun n hn ↦ ?_, ?_⟩
    · simp only [mergeTables, htarget, hm, hmerged]
    · rw [List.map_cons, List.mem_cons, not_or] at hn
      rw [hkept n hn.2, BTree.getElem?_insert, if_neg (Ne.symm hn.1)]
    · rw [List.forall_mem_cons]
      refine ⟨⟨target, m, htarget, ?_, hfrom⟩, fun p hp ↦ ?_⟩
      · rw [hkept name hnodup.1, BTree.getElem?_insert, if_pos rfl]
      · obtain ⟨target', m', htarget', hm', hfrom'⟩ := hnew p hp
        exact ⟨target', m', (hother p hp).symm.trans htarget', hm', hfrom'⟩

theorem mergeTables_error (hkeys : ∀ key ∈ lockedRows, IsLockKey key) {l : List (String × Table)}
    (hnodup : (l.map Prod.fst).Nodup) {base : Catalog}
    (hl : ∀ p ∈ l, ∃ target, base.tables[p.1]? = some target ∧
      p.2.nextRowId ≤ target.nextRowId)
    (h : ∃ p ∈ l, ∃ target ∈ base.tables[p.1]?, ¬MergeableTable p.1 target p.2 lockedRows) :
    ∃ error, mergeTables lockedRows.toList l base = .error error := by
  induction l generalizing base with
  | nil => simp at h
  | cons p l ih =>
    obtain ⟨name, t⟩ := p
    rw [List.map_cons, List.nodup_cons] at hnodup
    rw [List.forall_mem_cons] at hl
    obtain ⟨⟨target, htarget, hnext⟩, hl⟩ := hl
    cases hm : mergeTable name target t lockedRows.toList with
    | error error => exact ⟨error, by simp only [mergeTables, htarget, hm]⟩
    | ok m =>
      have hother (p : String × Table) (hp : p ∈ l) :
          (base.tables.insert name m)[p.1]? = base.tables[p.1]? := by
        rw [BTree.getElem?_insert, if_neg]
        rintro rfl
        exact hnodup.1 (List.mem_map.mpr ⟨p, hp, rfl⟩)
      obtain ⟨error, herror⟩ := @ih hnodup.2 ⟨base.tables.insert name m⟩
        (fun p hp ↦ by
          rw [hother p hp]
          exact hl p hp)
        (by
          obtain ⟨p, hp, target', htarget', hnot⟩ := h
          rcases List.mem_cons.mp hp with rfl | hp
          · -- this table has been merged, so it was mergeable
            obtain rfl := Option.some.inj (htarget.symm.trans htarget')
            obtain ⟨error, herror⟩ := mergeTable_error hnext hkeys hnot
            rw [hm] at herror
            cases herror
          · exact ⟨p, hp, target', (hother p hp).trans htarget', hnot⟩)
      exact ⟨error, by simp only [mergeTables, htarget, hm, herror]⟩

variable {base stagedCatalog : Catalog}

/-- **A merge that can be carried out succeeds**, and leaves every table as its own merge does. -/
theorem mergeCatalogs_ok (h : MergeInput base stagedCatalog lockedRows)
    (hmergeable : Mergeable base stagedCatalog lockedRows) :
    ∃ merged, mergeCatalogs base stagedCatalog lockedRows = .ok merged ∧ merged.Coherent ∧
      (∀ name : String, stagedCatalog.tables[name]? = none →
        merged.tables[name]? = base.tables[name]?) ∧
      ∀ (name : String) (t : Table), stagedCatalog.tables[name]? = some t →
        ∃ target m, base.tables[name]? = some target ∧ merged.tables[name]? = some m ∧
          MergedFrom name target t lockedRows m := by
  obtain ⟨merged, hmerged, hcoherent, hkept, hnew⟩ := mergeTables_ok h.keys
    (BTree.nodup_keys_toList stagedCatalog.tables) h.base_coherent (fun p hp ↦ by
      have hp' := (DerivedIndex.mem_toList_iff stagedCatalog.tables p.1 p.2).mp hp
      obtain ⟨target, htarget, hnext⟩ := h.below p.1 p.2 hp'
      exact ⟨h.staged_coherent p.1 p.2 hp', target, htarget, hnext,
        hmergeable p hp target htarget⟩)
  refine ⟨merged, hmerged, hcoherent, fun name hnone ↦ hkept name ?_, fun name t ht ↦ ?_⟩
  · rw [Std.ExtTreeMap.map_fst_toList_eq_keys, Std.ExtTreeMap.mem_keys,
      Std.ExtTreeMap.mem_iff_isSome_getElem?, hnone]
    simp
  · exact hnew (name, t) ((DerivedIndex.mem_toList_iff stagedCatalog.tables name t).mpr ht)

/-- **Any other fails.** -/
theorem mergeCatalogs_error (h : MergeInput base stagedCatalog lockedRows)
    (hmergeable : ¬Mergeable base stagedCatalog lockedRows) :
    ∃ error, mergeCatalogs base stagedCatalog lockedRows = .error error := by
  simp only [Mergeable, not_forall] at hmergeable
  obtain ⟨p, hp, target, htarget, hnot⟩ := hmergeable
  refine mergeTables_error h.keys (BTree.nodup_keys_toList stagedCatalog.tables) (fun q hq ↦ ?_)
    ⟨p, hp, target, htarget, hnot⟩
  exact h.below q.1 q.2 ((DerivedIndex.mem_toList_iff stagedCatalog.tables q.1 q.2).mp hq)

end Platform

end Fsql
