import Fsql.Pool.Fulltext
import Fsql.Pool.LockKeys
import Fsql.Relational

/-!
# What a transaction stages

A transaction works on a copy of the committed catalog.  As long as nobody commits, the copy differs
from the committed catalog in rows that are locked, and in nothing else (`Catalog.AgreesBut`):
locking changes no row (`lockStatementRows_reserved`), a statement changes locked rows only
(`Catalog.AgreesBut.write`), and so the merge is the copy (`Catalog.AgreesBut.relations_merge`).

`lockStatementRows_error` is the other side, the statements that do not get so far: a statement that
would fail anyway, or one that meets a lock of somebody else.
-/

set_option autoImplicit false

namespace Fsql

open DerivedIndex Std

/-! ## Catalogs that agree -/

namespace Catalog

/-- **Two catalogs have the same tables, and the same rows where they are not locked.** -/
structure AgreesBut (locked : BTreeSet String) (c c' : Catalog) : Prop where
  /-- The definitions of the tables are the same. -/
  schema (name : String) : c'.tables[name]?.map Table.schema = c.tables[name]?.map Table.schema
  /-- The rows are the same but where they are locked. -/
  version (table : String) (rowId : RowId) : rowLockKey table rowId ∉ locked →
    c'.version table rowId = c.version table rowId

variable {locked locked' : BTreeSet String} {c c' c'' : Catalog}

namespace AgreesBut

theorem refl (locked : BTreeSet String) (c : Catalog) : c.AgreesBut locked c :=
  ⟨fun _ ↦ rfl, fun _ _ _ ↦ rfl⟩

theorem symm (h : c.AgreesBut locked c') : c'.AgreesBut locked c :=
  ⟨fun name ↦ (h.schema name).symm, fun table rowId hfree ↦ (h.version table rowId hfree).symm⟩

theorem trans (h : c.AgreesBut locked c') (h' : c'.AgreesBut locked c'') : c.AgreesBut locked c'' :=
  ⟨fun name ↦ (h'.schema name).trans (h.schema name),
    fun table rowId hfree ↦ (h'.version table rowId hfree).trans (h.version table rowId hfree)⟩

theorem mono (h : c.AgreesBut locked c') (hle : ∀ key ∈ locked, key ∈ locked') :
    c.AgreesBut locked' c' :=
  ⟨h.schema, fun table rowId hfree ↦ h.version table rowId fun hmem ↦ hfree (hle _ hmem)⟩

theorem of_empty (h : c.AgreesBut ∅ c') : c.AgreesBut locked c' :=
  h.mono fun _ hkey ↦ absurd hkey ExtTreeSet.not_mem_empty

/-- **Catalogs that agree in all rows say the same.** -/
theorem relations_eq (h : c.AgreesBut ∅ c') : c'.relations = c.relations := by
  refine ExtTreeMap.ext_getElem? fun name ↦ ?_
  have hschema := h.schema name
  have hversion (rowId : RowId) := h.version name rowId ExtTreeSet.not_mem_empty
  rw [getElem?_relations, getElem?_relations]
  simp only [Catalog.version] at hversion
  rcases ht : c.tables[name]? with _ | t
  · rw [ht, Option.map_none, Option.map_eq_none_iff] at hschema
    rw [hschema]
  · rw [ht, Option.map_some, Option.map_eq_some_iff] at hschema
    obtain ⟨t', ht', hschema⟩ := hschema
    simp only [ht, ht', Option.bind_some] at hversion
    rw [ht', Option.map_some, Option.map_some, Table.relation, Table.relation, Table.contents,
      Table.contents, hschema, ExtTreeMap.ext_getElem? hversion]

/-- A table with the same definition and the same rows takes the place of another one. -/
theorem insert {name : String} {t t' : Table} (ht : c.tables[name]? = some t)
    (hschema : t'.schema = t.schema) (hrows : t'.rows = t.rows) :
    c.AgreesBut locked ⟨c.tables.insert name t'⟩ := by
  refine ⟨fun n ↦ ?_, fun table rowId _ ↦ ?_⟩
  · rw [BTree.getElem?_insert]
    split
    · rename_i heq
      rw [← heq, ht, Option.map_some, Option.map_some, hschema]
    · rfl
  · rw [Catalog.version, Catalog.version, BTree.getElem?_insert]
    split
    · rename_i heq
      rw [← heq, ht, Option.bind_some, Option.bind_some, hrows]
    · rfl

end AgreesBut

/-- Nothing has happened but that row ids of one table have been used up. -/
def OnlyReserved (c c' : Catalog) : Prop :=
  c' = c ∨ ∃ (name : String) (t : Table) (nextRowId : RowId), c.tables[name]? = some t ∧
    t.nextRowId ≤ nextRowId ∧ c' = ⟨c.tables.insert name { t with nextRowId }⟩

theorem OnlyReserved.agrees (h : c.OnlyReserved c') : c.AgreesBut locked c' := by
  rcases h with rfl | ⟨name, t, nextRowId, ht, -, rfl⟩
  · exact .refl locked _
  · exact .insert ht rfl rfl

theorem OnlyReserved.all [Platform] {tokenizer : FullTextTokenizer} (h : c.OnlyReserved c')
    (hall : c.All (Table.FulltextCoherent tokenizer)) :
    c'.All (Table.FulltextCoherent tokenizer) := by
  rcases h with rfl | ⟨name, t, nextRowId, ht, hle, rfl⟩
  · exact hall
  · obtain ⟨hcoherent, hexact⟩ := hall name t ht
    exact hall.insert name ⟨hcoherent.withNextRowId hle, hexact⟩

end Catalog

/-! ## Locking -/

variable {shared : SharedDatabase} {state : TransactionState}

theorem reserveInsertRowId_reserved (h : state.Inv shared) (statement : Statement) :
    (reserveInsertRowId shared state statement).2.1.database =
        { shared.database with
          catalog := (reserveInsertRowId shared state statement).2.1.database.catalog } ∧
      shared.database.catalog.OnlyReserved
        (reserveInsertRowId shared state statement).2.1.database.catalog ∧
      state.catalog.OnlyReserved (reserveInsertRowId shared state statement).2.2.catalog := by
  unfold reserveInsertRowId
  split
  · rename_i table columns values
    rcases hcommitted : shared.database.catalog.tables[table]? with _ | committed
    · exact ⟨rfl, .inl rfl, .inl rfl⟩
    · have hreserved : shared.database.catalog.OnlyReserved ⟨shared.database.catalog.tables.insert
          table { committed with nextRowId := committed.nextRowId + 1 }⟩ :=
        .inr ⟨table, committed, _, hcommitted, Nat.le_succ _, rfl⟩
      dsimp only
      rcases hstaged : state.catalog.tables[table]? with _ | staged
      · exact ⟨rfl, hreserved, .inl rfl⟩
      · obtain ⟨target, htarget, hle⟩ := h.below table staged hstaged
        obtain rfl := Option.some.inj (hcommitted.symm.trans htarget)
        dsimp only
        rw [reserved_eq hle]
        exact ⟨rfl, hreserved, .inr ⟨table, staged, _, hstaged, hle, rfl⟩⟩
  · exact ⟨rfl, .inl rfl, .inl rfl⟩

section Platform

variable [Platform] {options : TableRuntimeOptions}

/-- **Locking changes no row**, of neither catalog. -/
theorem lockStatementRows_reserved (hs : shared.Inv) (h : state.Inv shared)
    (statement : Statement) :
    (lockStatementRows shared statement state).2.1.database =
        { shared.database with
          catalog := (lockStatementRows shared statement state).2.1.database.catalog } ∧
      shared.database.catalog.OnlyReserved
        (lockStatementRows shared statement state).2.1.database.catalog ∧
      state.catalog.OnlyReserved (lockStatementRows shared statement state).2.2.catalog := by
  rw [lockStatementRows]
  rcases hkeys : rowsToLock state.catalog statement (tableRuntimeOptions shared.database.options)
    with error | keys
  · exact ⟨rfl, .inl rfl, .inl rfl⟩
  · have hacquired := locking_acquire hs h (rowsToLock_spec h.coherent hkeys)
    dsimp only
    rcases hacquire : LockTable.acquire state.id keys shared.rowLocks state.lockedRows with
      ⟨error | _, rowLocks, lockedRows⟩
    · exact ⟨rfl, .inl rfl, .inl rfl⟩
    · rw [hacquire] at hacquired
      exact reserveInsertRowId_reserved hacquired.inv statement

/-! ## Statements that are not executed -/

/-- A value that cannot be indexed is stored in no column. -/
theorem Table.isFinite_of_validateValue {column : Column} {value stored : Value}
    (h : validateValueWithOptions column value options = .ok stored) :
    value.isFinite = true := by
  obtain ⟨name, ty, primaryKey⟩ := column
  cases value with
  | float x =>
    cases ty <;> simp only [validateValueWithOptions, reduceCtorEq] at h
    split at h
    · assumption
    · cases h
  | vector x =>
    cases ty <;> simp only [validateValueWithOptions, reduceCtorEq] at h
    split at h
    · assumption
    · cases h
  | point x =>
    cases ty <;> simp only [validateValueWithOptions, reduceCtorEq] at h
    split at h
    · assumption
    · cases h
  | _ => rfl

theorem Table.isFinite_of_insertValues {t : Table} {entries : List (String × Value)}
    {row row' : Row}
    (h : t.insertValues options entries row = .ok row') :
    ∀ entry ∈ entries, entry.2.isFinite = true := by
  induction entries generalizing row with
  | nil => simp
  | cons entry entries ih =>
    rw [insertValues] at h
    obtain ⟨column, -, h⟩ := bind_eq_ok h
    obtain ⟨stored, hstored, h⟩ := bind_eq_ok h
    exact List.forall_mem_cons.mpr ⟨isFinite_of_validateValue hstored, ih h⟩

/-- An update whose rows cannot be found fails. -/
theorem Table.updatePlan_error {t : Table} {filter : Option Filter} {error : Error}
    (h : t.matchingRowIdsForLock filter options = .error error)
    (assignments : List (String × Value)) :
    t.updatePlan assignments filter options = .error error := by
  rw [matchingRowIdsForLock] at h
  rw [updatePlan]
  generalize t.normalizeFilter filter options = normalized at h ⊢
  rcases normalized with error' | filter
  · obtain rfl := Except.error.inj h
    rfl
  · dsimp only [bind, Except.bind] at h ⊢
    generalize t.matchingRowIds filter options = found at h ⊢
    rcases found with error' | rowIds
    · obtain rfl := Except.error.inj h
      rfl
    · cases h

/-- **A statement whose rows cannot be found fails**, and an insertion whose key cannot be locked,
because it is not finite. -/
theorem rowsToLock_error {catalog : Catalog} {statement : Statement} {error : Error}
    (h : rowsToLock catalog statement options = .error error) :
    (executeStatementWithOptions catalog statement options).1 = .error error ∨
      (∃ table columns values, statement = .insert table columns values ∧
          ∃ value ∈ values, value.isFinite = false) ∧
        ∃ error', (executeStatementWithOptions catalog statement options).1 = .error error' := by
  cases statement with
  | update table assignments filter =>
    rw [rowsToLock] at h
    rw [executeStatementWithOptions, Catalog.modifyTable]
    generalize catalog.tables[table]? = found at h ⊢
    rcases found with _ | t
    · obtain rfl := Except.error.inj h
      exact .inl rfl
    · rcases hmatch : t.matchingRowIdsForLock filter options with error' | rowIds
      · dsimp only at h ⊢
        rw [hmatch] at h
        obtain rfl := Except.error.inj h
        rw [Table.updateWithOptions, Table.updatePlan_error hmatch]
        exact .inl rfl
      · dsimp only at h
        rw [hmatch] at h
        cases h
  | delete table filter =>
    rw [rowsToLock] at h
    rw [executeStatementWithOptions, Catalog.modifyTable]
    generalize catalog.tables[table]? = found at h ⊢
    rcases found with _ | t
    · obtain rfl := Except.error.inj h
      exact .inl rfl
    · rcases hmatch : t.matchingRowIdsForLock filter options with error' | rowIds
      · dsimp only at h ⊢
        rw [hmatch] at h
        obtain rfl := Except.error.inj h
        rw [Table.deleteWithOptions, hmatch]
        exact .inl rfl
      · dsimp only at h
        rw [hmatch] at h
        cases h
  | insert table columns values =>
    rw [rowsToLock, insertLockKey] at h
    rw [executeStatementWithOptions, Catalog.modifyTable]
    generalize catalog.tables[table]? = found at h ⊢
    rcases found with _ | t
    · obtain rfl := Except.error.inj h
      exact .inl rfl
    · obtain ⟨entry, hentry, hinfinite⟩ : ∃ entry ∈
          (columns.getD (t.columns.map (·.name))).zip values, entry.2.isFinite = false := by
        dsimp only at h
        generalize t.primaryKey = primaryKey at h
        rcases primaryKey with _ | primaryKey
        · cases h
        · dsimp only at h
          split at h
          · rename_i name value hfind
            refine ⟨(name, value), List.mem_of_find?_eq_some hfind, ?_⟩
            rw [indexKey_eq] at h
            rcases hfinite : value.isFinite with _ | _
            · rfl
            · rw [hfinite] at h
              cases h
          · cases h
      refine .inr
        ⟨⟨table, columns, values, rfl, entry.2, (List.of_mem_zip hentry).2, hinfinite⟩, ?_⟩
      dsimp only
      rw [Table.insertWithOptions]
      rcases hrow : t.insertRow columns values options with error' | row
      · exact ⟨error', rfl⟩
      -- the literals of a row that is stored are finite
      · have hfinite := Table.isFinite_of_insertValues (Table.insertRow_eq_ok hrow).1 entry hentry
        rw [hinfinite] at hfinite
        cases hfinite
  | _ => cases h

/-- A row id can be reserved where a key has been found. -/
theorem reserveInsertRowId_ok (h : state.Inv shared) {statement : Statement} {keys : List String}
    (hkeys : rowsToLock state.catalog statement options = .ok keys) :
    (reserveInsertRowId shared state statement).1 = .ok () := by
  unfold reserveInsertRowId
  split
  · rename_i table columns values
    rw [rowsToLock, insertLockKey] at hkeys
    rcases hstaged : state.catalog.tables[table]? with _ | staged
    · rw [hstaged] at hkeys
      cases hkeys
    · obtain ⟨target, htarget, -⟩ := h.below table staged hstaged
      rw [htarget]
  · rfl

/-- **Why rows are not locked**: they cannot be found, or somebody else has locked one of them. -/
theorem lockStatementRows_error (hs : shared.Inv) (h : state.Inv shared) {statement : Statement}
    {error : Error} (herror : (lockStatementRows shared statement state).1 = .error error) :
    (rowsToLock state.catalog statement (tableRuntimeOptions shared.database.options) =
        .error error ∧ (lockStatementRows shared statement state).2 = (shared, state)) ∨
      statement.isDml = true ∧ ∃ (key : String) (owner : Nat),
        error = execution s!"row lock conflict on {key}" ∧
          shared.rowLocks[key]? = some owner ∧ owner ≠ state.id := by
  rw [lockStatementRows] at herror ⊢
  rcases hkeys : rowsToLock state.catalog statement (tableRuntimeOptions shared.database.options)
    with error' | keys
  · rw [hkeys] at herror
    obtain rfl := Except.error.inj herror
    exact .inl ⟨rfl, rfl⟩
  · rw [hkeys] at herror
    have hacquired := locking_acquire hs h (rowsToLock_spec h.coherent hkeys)
    dsimp only at herror ⊢
    rcases hacquire : LockTable.acquire state.id keys shared.rowLocks state.lockedRows with
      ⟨key | _, rowLocks, lockedRows⟩
    · rw [hacquire] at herror
      obtain rfl := Except.error.inj herror
      obtain ⟨owner, howner, hne⟩ := LockTable.exists_of_acquire_error
        (congrArg Prod.fst hacquire)
      refine .inr ⟨?_, key, owner, rfl, howner, hne⟩
      -- other statements lock nothing
      cases statement with
      | insert | update | delete => rfl
      | _ =>
        obtain rfl := Except.ok.inj hkeys
        cases hacquire
    · rw [hacquire] at herror hacquired
      rw [reserveInsertRowId_ok hacquired.inv hkeys] at herror
      cases herror

/-! ## Statements of a transaction -/

omit [Platform] in
/-- The schema of a relation stays. -/
theorem Relations.schema_modify {α : Type} (relations : Relations) (name : String)
    {f : Relation → Result α × Relation} (h : ∀ r, (f r).2.schema = r.schema) (n : String) :
    (relations.modify name f).2[n]?.map Relation.schema = relations[n]?.map Relation.schema := by
  rw [modify]
  rcases hname : relations[name]? with _ | r
  · rfl
  · dsimp only
    rw [BTree.getElem?_insert]
    split
    · rename_i heq
      rw [← heq, hname, Option.map_some, Option.map_some, h]
    · rfl

/-- **Only DDL changes schemas.** -/
theorem Relations.schema_execute {statement : Statement} (h : statement.isDdl = false)
    (relations : Relations) (n : String) :
    (relations.execute statement options).2[n]?.map Relation.schema =
      relations[n]?.map Relation.schema := by
  cases statement with
  | createTable | createIndex => cases h
  | insert table columns values =>
    refine relations.schema_modify table (fun r ↦ ?_) n
    rw [Relation.insert]
    split
    · rfl
    · dsimp only
      split <;> rfl
  | update table assignments filter =>
    refine relations.schema_modify table (fun r ↦ ?_) n
    rw [Relation.update]
    split
    · rfl
    · split
      · rfl
      · dsimp only
        split <;> rfl
  | delete table filter =>
    refine relations.schema_modify table (fun r ↦ ?_) n
    rw [Relation.delete]
    split <;> rfl
  | select table projection filter order limit =>
    rw [execute]
    split <;> rfl
  | _ => rfl

omit [Platform] in
theorem Catalog.schema_relations (catalog : Catalog) (name : String) :
    catalog.relations[name]?.map Relation.schema = catalog.tables[name]?.map Table.schema := by
  rw [getElem?_relations, Option.map_map]
  rfl

/-- **A statement of a transaction changes locked rows only.** -/
theorem Catalog.AgreesBut.write {c : Catalog} (h : c.AgreesBut state.lockedRows state.catalog)
    (hall : state.catalog.All (Table.FulltextCoherent options.fulltextTokenizer))
    {statement : Statement} (hddl : statement.isDdl = false)
    (hcovered : Covered state statement options) :
    c.AgreesBut state.lockedRows
      (executeStatementWithOptions state.catalog statement options).2 := by
  have hchanges := @executeStatement_changes _ options _
    (fun name t ht ↦ (hall name t ht).coherent) statement
  refine ⟨fun name ↦ ?_, fun table rowId hfree ↦ ?_⟩
  · rw [← Catalog.schema_relations, (executeStatement_relations hall statement).2,
      Relations.schema_execute hddl, Catalog.schema_relations, h.schema]
  · have huntouched : (table, rowId) ∉ touchedRows state.catalog statement options :=
      fun htouched ↦ hfree (hcovered (table, rowId) htouched)
    exact (hchanges.version huntouched).trans (h.version table rowId hfree)

/-- With the simple tokenizer, a statement leaves full-text indexes of the simple tokenizer. -/
theorem all_executeStatement {options : DatabaseOptions}
    (htokenizer : options.fulltextTokenizer = .simple) {catalog : Catalog}
    (h : catalog.All (Table.FulltextCoherent .simple)) (statement : Statement) :
    (executeStatementWithOptions catalog statement (tableRuntimeOptions options)).2.All
      (Table.FulltextCoherent .simple) := by
  rw [← htokenizer] at h ⊢
  have hkeeps : Database.KeepsTokens ⟨none, catalog, none, options, ∅⟩ statement := by
    cases statement with
    | createIndex name table column fulltext =>
      rcases fulltext with _ | _
      · intro t _ _ _ _ entry _ stored _
        rw [htokenizer]
        exact ⟨fun _ ↦ id, fun _ ↦ id⟩
      · trivial
    | _ => trivial
  exact executeStatement_all (Table.preserved_fulltextCoherent (tableRuntimeOptions options))
    hkeeps.indexPreserves h

/-! ## Commits -/

omit [Platform] in
/-- **A transaction that nobody has got in the way of can be merged**, if its lock keys are read. -/
theorem mergeable_of_agreesBut (h : state.Inv shared)
    (hagrees : shared.database.catalog.AgreesBut state.lockedRows state.catalog)
    (hnames : ∀ name ∈ shared.database.catalog.tables, ∀ other ∈ shared.database.catalog.tables,
      ¬Extends name other) :
    Mergeable shared.database.catalog state.catalog state.lockedRows := by
  intro p hp target htarget
  have hstaged := (mem_toList_iff state.catalog.tables p.1 p.2).mp hp
  have hcommitted {name : String} {t : Table} (ht : state.catalog.tables[name]? = some t) :
      name ∈ shared.database.catalog.tables := by
    obtain ⟨target, htarget, -⟩ := h.below name t ht
    rw [ExtTreeMap.mem_iff_isSome_getElem?, htarget]
    rfl
  have hschema := hagrees.schema p.1
  rw [hstaged, htarget, Option.map_some, Option.map_some, Option.some_inj] at hschema
  refine ⟨fun key hkey hmalformed ↦ ?_, ?_⟩
  · have hmem := ExtTreeSet.mem_toList.mp hkey
    rcases h.keys key hmem with ⟨table, rowId, rfl⟩ | ⟨rest, rfl⟩
    · obtain ⟨t, ht⟩ := h.staged table rowId hmem
      exact hnames table (hcommitted ht) p.1 (hcommitted hstaged)
        (malformed_rowLockKey_iff.mp hmalformed)
    · obtain ⟨hstarts, -⟩ := hmalformed
      rw [List.isPrefixOf_iff_prefix] at hstarts
      simp at hstarts
  · have hrows : mergedRows p.1 target p.2 state.lockedRows = p.2.rows := by
      refine ExtTreeMap.ext_getElem? fun rowId ↦ ?_
      rw [getElem?_mergedRows]
      split
      · rfl
      · rename_i hfree
        have hversion := hagrees.version p.1 rowId hfree
        rw [Catalog.version, Catalog.version, hstaged, htarget] at hversion
        exact hversion.symm
    have hkeys := (h.coherent p.1 p.2 hstaged).keys
    have hprimary : p.2.schema.primaryKey = target.schema.primaryKey := by rw [hschema]
    rw [Table.KeysOk, show p.2.primaryKey = target.primaryKey from hprimary] at hkeys
    rw [hrows]
    exact hkeys

/-- **A transaction that nobody has got in the way of publishes what it has seen.** -/
theorem relations_of_merge (hs : shared.Inv) (h : state.Inv shared)
    (hagrees : shared.database.catalog.AgreesBut state.lockedRows state.catalog) {merged : Catalog}
    (hmerged : mergeCatalogs shared.database.catalog state.catalog state.lockedRows = .ok merged) :
    merged.relations = state.catalog.relations := by
  obtain ⟨-, hkept, hnew⟩ := mergeCatalogs_spec (h.mergeInput hs) hmerged
  refine Catalog.AgreesBut.relations_eq ⟨fun name ↦ ?_, fun table rowId _ ↦ ?_⟩
  · rw [hagrees.schema]
    rcases hstaged : state.catalog.tables[name]? with _ | t
    · rw [hkept name hstaged]
    · obtain ⟨target, m, htarget, hm, hfrom⟩ := hnew name t hstaged
      rw [htarget, hm, Option.map_some, Option.map_some]
      exact congrArg some hfrom.schema_eq
  · rw [version_mergeCatalogs (h.mergeInput hs) hmerged h.staged]
    split
    · rfl
    · rename_i hfree
      exact (hagrees.version table rowId hfree).symm

/-- A merge leaves full-text indexes of the simple tokenizer, if they were so. -/
theorem all_of_merge (hs : shared.Inv) (h : state.Inv shared)
    (hall : shared.database.catalog.All (Table.FulltextCoherent .simple)) {merged : Catalog}
    (hmerged : mergeCatalogs shared.database.catalog state.catalog state.lockedRows = .ok merged) :
    merged.All (Table.FulltextCoherent .simple) := by
  obtain ⟨hcoherent, hkept, -⟩ := mergeCatalogs_spec (h.mergeInput hs) hmerged
  intro name m hm
  refine ⟨hcoherent name m hm, ?_⟩
  rcases hstaged : state.catalog.tables[name]? with _ | t
  · exact (hall name m ((hkept name hstaged).symm.trans hm)).exact
  · exact mergeCatalogs_fulltextExact (h.mergeInput hs) hmerged hstaged hm

end Platform

end Fsql
