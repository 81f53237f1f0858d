import Fsql.Pool.Merge

/-!
# Which lock keys are taken for a row of another table

A lock key is the text `row:<table>:<row id>`, and `merge_catalogs` finds the keys of a table by
their beginning.  Two keys are never the same (`rowLockKey_inj`), but a key begins like those of
another table if the name of its own one begins with the other name and a colon, and then no row id
can be read from the rest (`malformed_rowLockKey_iff`).

`keysApplied_iff` says that this is all that goes wrong: without such a pair of names, every key is
applied to its own row and to no other, and the merge never fails for a key it cannot read.
-/

set_option autoImplicit false

namespace Fsql

open Number Text

/-! ## Keys -/

/-- The keys of a list of locked rows. -/
def lockKeys (locked : List (String × RowId)) : BTreeSet String :=
  locked.foldl (fun keys row ↦ keys.insert (rowLockKey row.1 row.2)) ∅

theorem mem_lockKeys {locked : List (String × RowId)} {key : String} :
    key ∈ lockKeys locked ↔ ∃ row ∈ locked, key = rowLockKey row.1 row.2 := by
  have hfold (keys : BTreeSet String) :
      key ∈ locked.foldl (fun keys row ↦ keys.insert (rowLockKey row.1 row.2)) keys ↔
        key ∈ keys ∨ ∃ row ∈ locked, key = rowLockKey row.1 row.2 := by
    induction locked generalizing keys with
    | nil => simp
    | cons row locked ih =>
      rw [List.foldl_cons, ih, BTree.mem_insert_set, List.exists_mem_cons_iff, or_assoc, eq_comm]
      tauto
  rw [lockKeys, hfold]
  simp

/-- A row is locked by its own key. -/
theorem rowLockKey_mem_lockKeys {locked : List (String × RowId)} {name : String} {rowId : RowId} :
    rowLockKey name rowId ∈ lockKeys locked ↔ (name, rowId) ∈ locked := by
  rw [mem_lockKeys]
  constructor
  · rintro ⟨row, hmem, heq⟩
    obtain ⟨rfl, rfl⟩ := rowLockKey_inj heq
    exact hmem
  · exact fun hmem ↦ ⟨_, hmem, rfl⟩

theorem isLockKey_of_mem_lockKeys {locked : List (String × RowId)} {key : String}
    (h : key ∈ lockKeys locked) : IsLockKey key := by
  obtain ⟨row, -, rfl⟩ := mem_lockKeys.mp h
  exact .inl ⟨row.1, row.2, rfl⟩

/-- The name is that of another table with more behind it, after a colon. -/
def Extends (name other : String) : Prop := (other ++ ":").toList <+: name.toList

instance (name other : String) : Decidable (Extends name other) :=
  inferInstanceAs (Decidable (_ <+: _))

/-- **The keys of a table are taken for those of the tables that it extends**, and cannot be read.
-/
theorem malformed_rowLockKey_iff {other name : String} {rowId : RowId} :
    Malformed other (rowLockKey name rowId) ↔ Extends name other := by
  have hkey : (rowLockKey name rowId).toList =
      "row:".toList ++ (name.toList ++ ':' :: decimal rowId) := by
    rw [toList_rowLockKey, List.append_assoc]
  have hpre : ("row:" ++ other ++ ":").toList = "row:".toList ++ (other.toList ++ [':']) := by
    simp
  rw [Malformed, hkey, hpre, List.isPrefixOf_iff_prefix, List.prefix_append_right_inj,
    List.length_append, List.drop_length_add_append]
  constructor
  · rintro ⟨hbegins, hparse⟩
    rcases List.prefix_or_prefix_of_prefix hbegins (List.prefix_append _ _) with hname | hother
    · simpa [Extends] using hname
    · rcases List.prefix_concat_iff.mp hother with heq | ⟨rest, hrest⟩
      · simp [Extends, heq]
      · -- The name ends inside the other one, so that both are the same.
        rcases rest with _ | ⟨c, rest⟩
        · have heq : other.toList = name.toList := by simpa using hrest.symm
          rw [heq, List.append_cons name.toList ':' (decimal rowId), List.drop_left,
            parseUnbounded_decimal] at hparse
          cases hparse
        · rw [← hrest, List.append_assoc, List.prefix_append_right_inj] at hbegins
          have hmem : ':' ∈ decimal rowId :=
            (List.cons_prefix_cons.mp hbegins).2.subset (by simp)
          exact absurd hmem (not_mem_decimal (by decide))
  · rintro ⟨rest, hrest⟩
    have hname : name.toList ++ ':' :: decimal rowId =
        (other.toList ++ [':']) ++ (rest ++ ':' :: decimal rowId) := by
      rw [← hrest]
      simp
    rw [hname, List.drop_left]
    refine ⟨List.prefix_append _ _, ?_⟩
    rcases hparse : parseUnbounded (rest ++ ':' :: decimal rowId) with _ | n
    · rfl
    · have hnot := @not_mem_of_parseUnbounded _ _ hparse ':' (by decide) (by decide)
      exact absurd (by simp) hnot

/-! ## One table -/

/-- What keys that cannot be read make the merge fail with. -/
theorem overlayRows_eq_error {tableName : String} {staged : Table} {keys : List String}
    {rows : BTreeMap RowId Row} {error : Error}
    (h : overlayRows tableName staged keys rows = .error error) :
    error = execution "invalid locked row id" := by
  induction keys generalizing rows with
  | nil => cases h
  | cons key keys ih =>
    rw [overlayRows] at h
    split at h
    · split at h
      · exact (Except.error.inj h).symm
      · exact ih h
    · exact ih h

/-- The rows with new ids are copied over the others. -/
theorem getElem?_appendRows (staged : Table) (rowIds : List RowId) (rows : BTreeMap RowId Row)
    (rowId : RowId) : (appendRows staged rowIds rows)[rowId]? =
      if rowId ∈ rowIds then staged.rows[rowId]?.or rows[rowId]? else rows[rowId]? := by
  induction rowIds generalizing rows with
  | nil => rfl
  | cons first rowIds ih =>
    rw [appendRows, List.foldl_cons, ← appendRows, ih]
    by_cases heq : first = rowId
    · subst heq
      rcases staged.rows[first]? with _ | row
      · simp
      · simp
    · rcases staged.rows[first]? with _ | row
      · simp only [List.mem_cons, Ne.symm heq, false_or]
      · simp only [List.mem_cons, Ne.symm heq, false_or, BTree.getElem?_insert, if_neg heq]

/-- The numbers from one to another one. -/
theorem mem_range'_sub {n start stop : Nat} :
    n ∈ List.range' start (stop - start) ↔ start ≤ n ∧ n < stop := by
  rw [List.mem_range'_1]
  omega

/-- What a rebuild of the derived maps fails with. -/
def rebuildErrors : List Error :=
  [execution "primary key value missing", execution "primary key cannot be null",
    execution "duplicate primary key", execution "non-finite value cannot be indexed"]

theorem indexKey_error {value : Value} {error : Error} (h : indexKey value = .error error) :
    error ∈ rebuildErrors := by
  rw [indexKey_eq] at h
  split at h
  · cases h
  · obtain rfl := Except.error.inj h
    simp [rebuildErrors, execution]

theorem rebuildPrimary_error {primaryKey : Option String} {rowId : RowId} {row : Row}
    {primary : BTreeMap String RowId} {error : Error}
    (h : (rebuildPrimary primaryKey rowId row primary).1 = .error error) :
    error ∈ rebuildErrors := by
  unfold rebuildPrimary at h
  split at h
  · cases h
  · split at h
    · obtain rfl := Except.error.inj h
      simp [rebuildErrors]
    · obtain rfl := Except.error.inj h
      simp [rebuildErrors]
    · split at h
      · rename_i hkey
        obtain rfl := Except.error.inj h
        exact indexKey_error hkey
      · dsimp only at h
        split at h
        · obtain rfl := Except.error.inj h
          simp [rebuildErrors]
        · cases h

theorem rebuildSecondary_error {rowId : RowId} {row : Row} {columns : List (String × String)}
    {indexes : BTreeMap String Index} {error : Error}
    (h : (rebuildSecondary rowId row columns indexes).1 = .error error) :
    error ∈ rebuildErrors := by
  induction columns generalizing indexes with
  | nil => cases h
  | cons column columns ih =>
    rw [rebuildSecondary] at h
    split at h
    · exact ih h
    · split at h
      · rename_i hkey
        obtain rfl := Except.error.inj h
        exact indexKey_error hkey
      · exact ih h

section Platform

variable [Platform]

/-- **A rebuild fails for the keys of the rows only.** -/
theorem rebuildRows_error {primaryKey : Option String}
    {columns fulltextColumns : List (String × String)}
    {tokenizer : FullTextTokenizer} {l : List (RowId × Row)} {t : Table} {error : Error}
    (h : (Table.rebuildRows primaryKey columns fulltextColumns tokenizer l t).1 = .error error) :
    error ∈ rebuildErrors := by
  induction l generalizing t with
  | nil => cases h
  | cons p l ih =>
    obtain ⟨rowId, row⟩ := p
    rw [Table.rebuildRows] at h
    split at h
    · rename_i hprimary
      obtain rfl := Except.error.inj h
      exact rebuildPrimary_error (congrArg Prod.fst hprimary)
    · split at h
      · rename_i hsecondary
        obtain rfl := Except.error.inj h
        exact rebuildSecondary_error (congrArg Prod.fst hsecondary)
      · exact ih h

/-- The row that a merged table has: the staged one where the row is locked, the committed one
elsewhere, and a staged one with a new id in any case. -/
def rowMerged (locked : List (String × RowId)) (name : String) (target staged : Table)
    (rowId : RowId) : Option Row :=
  if (name, rowId) ∈ locked then staged.rows[rowId]?
  else if target.nextRowId ≤ rowId ∧ rowId < staged.nextRowId then
    staged.rows[rowId]?.or target.rows[rowId]?
  else target.rows[rowId]?

variable {locked : List (String × RowId)} {name : String} {target staged : Table}

omit [Platform] in
/-- Without names that extend the name of a table, its keys can be read. -/
theorem not_malformed (h : ∀ row ∈ locked, ¬ Extends row.1 name) :
    ∀ key ∈ (lockKeys locked).toList, ¬ Malformed name key := by
  intro key hkey
  obtain ⟨row, hmem, rfl⟩ := mem_lockKeys.mp (Std.ExtTreeSet.mem_toList.mp hkey)
  rw [malformed_rowLockKey_iff]
  exact h row hmem

/-- **A table is merged by its own keys.** -/
theorem mergeTable_lockKeys (h : ∀ row ∈ locked, ¬ Extends row.1 name) :
    mergeTable name target staged (lockKeys locked).toList ≠
        .error (execution "invalid locked row id") ∧
      ∀ merged, mergeTable name target staged (lockKeys locked).toList = .ok merged →
        ∀ rowId : RowId, merged.rows[rowId]? = rowMerged locked name target staged rowId := by
  obtain ⟨rows, hrows, hspec⟩ :=
    @overlayRows_spec name staged (lockKeys locked).toList (not_malformed h) target.rows
  have hrow (rowId : RowId) : rows[rowId]? =
      if (name, rowId) ∈ locked then staged.rows[rowId]? else target.rows[rowId]? := by
    have hreads := @exists_reads_iff name (lockKeys locked)
      (fun key ↦ isLockKey_of_mem_lockKeys) rowId
    rw [rowLockKey_mem_lockKeys] at hreads
    split
    · exact (hspec rowId).1 (hreads.mpr ‹_›)
    · refine (hspec rowId).2 fun key hkey hread ↦ ?_
      exact absurd (hreads.mp ⟨key, hkey, hread⟩) ‹_›
  simp only [mergeTable, hrows, bind, Except.bind]
  generalize hdata : ({ target with
    rows := appendRows staged
      (List.range' target.nextRowId (staged.nextRowId - target.nextRowId)) rows
    nextRowId := max target.nextRowId staged.nextRowId } : Table) = data
  have hsame := data.rebuild_sameData {}
  rcases hresult : data.rebuildIndexesWithOptions {} with ⟨result, merged⟩
  rw [hresult] at hsame
  constructor
  · intro heq
    rcases result with error | _
    · have hmem : error ∈ rebuildErrors := rebuildRows_error (congrArg Prod.fst hresult)
      obtain rfl := Except.error.inj heq
      simp [rebuildErrors, execution] at hmem
    · cases heq
  · intro m hm rowId
    rcases result with error | _
    · cases hm
    obtain rfl := Except.ok.inj hm
    show merged.rows[rowId]? = _
    rw [hsame.rows, ← hdata, getElem?_appendRows, hrow, rowMerged]
    simp only [mem_range'_sub]
    by_cases hlocked : (name, rowId) ∈ locked
    · rcases hstaged : staged.rows[rowId]? with _ | row
      · simp [hlocked]
      · simp [hlocked]
    · simp only [if_neg hlocked]

/-! ## The catalog -/

/-- **Every key is applied to its own row and to no other.** -/
structure KeysApplied (base staged : Catalog) (locked : List (String × RowId)) : Prop where
  /-- The merge does not fail for a key that it cannot read. -/
  readable : mergeCatalogs base staged (lockKeys locked) ≠
    .error (execution "invalid locked row id")
  /-- Tables that are not staged are kept. -/
  kept (merged : Catalog) : mergeCatalogs base staged (lockKeys locked) = .ok merged →
    ∀ name : String, staged.tables[name]? = none → merged.tables[name]? = base.tables[name]?
  /-- Tables that are not committed yet are taken as they are staged. -/
  created (merged : Catalog) : mergeCatalogs base staged (lockKeys locked) = .ok merged →
    ∀ (name : String) (t : Table), base.tables[name]? = none → staged.tables[name]? = some t →
      merged.tables[name]? = some t
  /-- In all others, the locked rows of the table itself are the staged ones. -/
  rows (merged : Catalog) : mergeCatalogs base staged (lockKeys locked) = .ok merged →
    ∀ (name : String) (target t : Table), base.tables[name]? = some target →
      staged.tables[name]? = some t → ∃ m, merged.tables[name]? = some m ∧
        ∀ rowId : RowId, m.rows[rowId]? = rowMerged locked name target t rowId

/-- A list of tables is merged one by one. -/
theorem mergeTables_lockKeys {l : List (String × Table)} (hnodup : (l.map Prod.fst).Nodup)
    (h : ∀ p ∈ l, ∀ row ∈ locked, ¬ Extends row.1 p.1) (base : Catalog) :
    mergeTables (lockKeys locked).toList l base ≠ .error (execution "invalid locked row id") ∧
      ∀ merged, mergeTables (lockKeys locked).toList l base = .ok merged →
        (∀ name ∉ l.map Prod.fst, merged.tables[name]? = base.tables[name]?) ∧
          ∀ p ∈ l, (base.tables[p.1]? = none → merged.tables[p.1]? = some p.2) ∧
            ∀ target, base.tables[p.1]? = some target → ∃ m, merged.tables[p.1]? = some m ∧
              ∀ rowId : RowId, m.rows[rowId]? = rowMerged locked p.1 target p.2 rowId := by
  induction l generalizing base with
  | nil =>
    refine ⟨by simp [mergeTables], fun merged hmerged ↦ ?_⟩
    obtain rfl := Except.ok.inj hmerged
    exact ⟨fun _ _ ↦ rfl, by simp⟩
  | cons p l ih =>
    obtain ⟨name, t⟩ := p
    rw [List.map_cons, List.nodup_cons] at hnodup
    rw [List.forall_mem_cons] at h
    -- The tables still to come are untouched, and this one stays as it is merged.
    have hrest (m : Table) (merged : Catalog)
        (hmerged :
          mergeTables (lockKeys locked).toList l ⟨base.tables.insert name m⟩ = .ok merged) :
        merged.tables[name]? = some m ∧
          (∀ n ∉ name :: l.map Prod.fst, merged.tables[n]? = base.tables[n]?) ∧
          ∀ p ∈ l, (base.tables[p.1]? = none → merged.tables[p.1]? = some p.2) ∧
            ∀ target, base.tables[p.1]? = some target → ∃ m, merged.tables[p.1]? = some m ∧
              ∀ rowId : RowId, m.rows[rowId]? = rowMerged locked p.1 target p.2 rowId := by
      obtain ⟨-, hok⟩ := ih hnodup.2 h.2 ⟨base.tables.insert name m⟩
      obtain ⟨hkept, hnew⟩ := hok merged hmerged
      have hother (p : String × Table) (hp : p ∈ l) :
          (base.tables.insert name m)[p.1]? = base.tables[p.1]? := by
        rw [BTree.getElem?_insert, if_neg]
        rintro rfl
        exact hnodup.1 (List.mem_map.mpr ⟨p, hp, rfl⟩)
      refine ⟨?_, fun n hn ↦ ?_, fun p hp ↦ ?_⟩
      · rw [hkept name hnodup.1, BTree.getElem?_insert, if_pos rfl]
      · rw [List.mem_cons, not_or] at hn
        rw [hkept n hn.2, BTree.getElem?_insert, if_neg (Ne.symm hn.1)]
      · have hp' := hnew p hp
        rwa [hother p hp] at hp'
    rw [mergeTables, List.map_cons]
    rcases htarget : base.tables[name]? with _ | target
    · refine ⟨(ih hnodup.2 h.2 _).1, fun merged hmerged ↦ ?_⟩
      obtain ⟨hself, hkept, hnew⟩ := hrest t merged hmerged
      refine ⟨hkept, List.forall_mem_cons.mpr ⟨⟨fun _ ↦ hself, fun target heq ↦ ?_⟩, hnew⟩⟩
      cases htarget.symm.trans heq
    · obtain ⟨hvalid, hrows⟩ := @mergeTable_lockKeys _ locked name target t h.1
      dsimp only
      rcases hm : mergeTable name target t (lockKeys locked).toList with error | m
      · refine ⟨fun heq ↦ ?_, fun merged hmerged ↦ ?_⟩
        · obtain rfl := Except.error.inj heq
          exact hvalid hm
        · cases hmerged
      · refine ⟨(ih hnodup.2 h.2 _).1, fun merged hmerged ↦ ?_⟩
        obtain ⟨hself, hkept, hnew⟩ := hrest m merged hmerged
        refine ⟨hkept, List.forall_mem_cons.mpr ⟨⟨fun heq ↦ ?_, fun target' heq ↦ ?_⟩, hnew⟩⟩
        · cases htarget.symm.trans heq
        · obtain rfl := Option.some.inj (htarget.symm.trans heq)
          exact ⟨m, hself, hrows m hm⟩

/-- **A merge by keys that can all be told apart.** -/
theorem keysApplied_of_not_extends {base staged : Catalog}
    (h : ∀ (name : String) (t : Table), staged.tables[name]? = some t →
      ∀ row ∈ locked, ¬ Extends row.1 name) : KeysApplied base staged locked := by
  obtain ⟨hvalid, hok⟩ := mergeTables_lockKeys (BTree.nodup_keys_toList staged.tables)
    (fun p hp ↦ h p.1 p.2 ((DerivedIndex.mem_toList_iff staged.tables p.1 p.2).mp hp)) base
  have hmem (name : String) (t : Table) (ht : staged.tables[name]? = some t) :
      (name, t) ∈ staged.tables.toList := (DerivedIndex.mem_toList_iff staged.tables name t).mpr ht
  refine ⟨hvalid, fun merged hmerged name hnone ↦ (hok merged hmerged).1 name ?_,
    fun merged hmerged name t hnone ht ↦ ((hok merged hmerged).2 _ (hmem name t ht)).1 hnone,
    fun merged hmerged name target t htarget ht ↦
      ((hok merged hmerged).2 _ (hmem name t ht)).2 target htarget⟩
  rw [Std.ExtTreeMap.map_fst_toList_eq_keys, Std.ExtTreeMap.mem_keys,
    Std.ExtTreeMap.mem_iff_isSome_getElem?, hnone]
  simp

/-- A catalog of one table. -/
def onlyTable (t : Table) : Catalog := ⟨(∅ : BTreeMap String Table).insert t.name t⟩

/-- **A merge with a key that is taken for another table's fails.** -/
theorem mergeCatalogs_onlyTable (t : Table) {row : String × RowId} (hmem : row ∈ locked)
    (h : Extends row.1 t.name) : mergeCatalogs (onlyTable t) (onlyTable t) (lockKeys locked) =
      .error (execution "invalid locked row id") := by
  have hlist : (onlyTable t).tables.toList = [(t.name, t)] := rfl
  have hget : (onlyTable t).tables[t.name]? = some t := by
    rw [onlyTable, BTree.getElem?_insert, if_pos rfl]
  have hkey : rowLockKey row.1 row.2 ∈ (lockKeys locked).toList :=
    Std.ExtTreeSet.mem_toList.mpr (rowLockKey_mem_lockKeys.mpr hmem)
  obtain ⟨error, herror⟩ := @overlayRows_error t.name t _ _ hkey
    (malformed_rowLockKey_iff.mpr h) t.rows
  obtain rfl := overlayRows_eq_error herror
  rw [mergeCatalogs, hlist, mergeTables, hget]
  simp only [mergeTable, herror, bind, Except.bind]

/-- A new table with a column of integers. -/
def integerTable (name : String) : Table :=
  { name, columns := [⟨"x", .integer, false⟩], rows := ∅, nextRowId := 1, primaryKey := none
    primary := ∅, indexes := ∅, fulltextIndexes := ∅ }

omit [Platform] in
theorem new_integerTable (name : String) :
    Table.new name [⟨"x", .integer, false⟩] = .ok (integerTable name) := rfl

/-- All tables of the catalog have one of the names. -/
def Catalog.Within (catalog : Catalog) (names : Set String) : Prop :=
  ∀ (name : String) (t : Table), catalog.tables[name]? = some t → name ∈ names

/-- **When lock keys identify one row of one table**: exactly if no locked table has a name that
extends another one's. -/
theorem keysApplied_iff (names : Set String) (locked : List (String × RowId)) :
    (∀ base staged : Catalog, base.Within names → staged.Within names →
        KeysApplied base staged locked) ↔
      ∀ name ∈ names, ∀ row ∈ locked, ¬ Extends row.1 name := by
  constructor
  · intro h name hname row hmem hextends
    have hwithin : (onlyTable (integerTable name)).Within names := by
      intro n t ht
      rw [onlyTable, BTree.getElem?_insert] at ht
      split at ht
      · rename_i heq
        exact heq ▸ hname
      · cases ht
    exact (h _ _ hwithin hwithin).readable (mergeCatalogs_onlyTable _ hmem hextends)
  · intro h base staged _ hstaged
    exact keysApplied_of_not_extends fun name t ht ↦ h name (hstaged name t ht)

end Platform

/-- The table can be created. -/
def Creatable (name : String) : Prop :=
  ∃ sql dialect columns, parseSqlWithDialect sql dialect = .ok (.createTable name columns) ∧
    ∃ t, Table.new name columns = .ok t

/-- **The key of a row of a table `a:b` is taken for one of the table `a`**, and a merge in which
both are staged fails. -/
theorem not_keysApplied : ¬ ∀ [Platform] (names : Set String) (locked : List (String × RowId)),
    (∀ name ∈ names, Creatable name) → (∀ row ∈ locked, row.1 ∈ names) →
      ∀ base staged : Catalog, base.Within names → staged.Within names →
        KeysApplied base staged locked := by
  intro h
  have hparse : parseSqlWithDialect "CREATE TABLE a (x INTEGER)" .fsql =
      .ok (.createTable "a" [⟨"x", .integer, false⟩]) := by decide +kernel
  have hparse' : parseSqlWithDialect "CREATE TABLE a:b (x INTEGER)" .fsql =
      .ok (.createTable "a:b" [⟨"x", .integer, false⟩]) := by decide +kernel
  have hcreatable : ∀ name ∈ ({"a", "a:b"} : Set String), Creatable name := by
    rintro name (rfl | rfl)
    · exact ⟨_, _, _, hparse, _, new_integerTable "a"⟩
    · exact ⟨_, _, _, hparse', _, new_integerTable "a:b"⟩
  have hkeys := (@keysApplied_iff Platform.ascii {"a", "a:b"} [("a:b", 1)]).mp
    (@h Platform.ascii _ _ hcreatable (by simp))
  exact hkeys "a" (.inl rfl) ("a:b", 1) (List.mem_singleton.mpr rfl) (by decide)

end Fsql
