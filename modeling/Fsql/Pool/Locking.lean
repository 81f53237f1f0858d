import Fsql.EngineFrame
import Fsql.Pool.Merge

/-!
# Locking the rows of a statement

What `lock_statement_rows` does to the shared state and to the transaction.  `Locking` lists it:
keys are taken under the transaction's number, nobody else's entries change, no row changes in
either catalog.  A new row gets an id that no lock key mentions yet, although nothing checks that:
lock keys only mention ids that have been used up (`SharedDatabase.Inv.fresh`).

`covered_of_lockStatementRows` is what the locks are for: when the call succeeds, every row that
the statement can change is locked.
-/

set_option autoImplicit false

namespace Fsql

/-! ## The invariant of the two parties -/

/-- No table disappears, and no row id is given back. -/
def Catalog.Grows (c c' : Catalog) : Prop :=
  ∀ (name : String) (t : Table), c.tables[name]? = some t →
    ∃ t', c'.tables[name]? = some t' ∧ t.nextRowId ≤ t'.nextRowId

theorem Catalog.Grows.refl (c : Catalog) : c.Grows c :=
  fun _ t ht ↦ ⟨t, ht, le_refl _⟩

theorem Catalog.Grows.trans {c c' c'' : Catalog} (h : c.Grows c') (h' : c'.Grows c'') :
    c.Grows c'' := by
  intro name t ht
  obtain ⟨t', ht', hle⟩ := h name t ht
  obtain ⟨t'', ht'', hle'⟩ := h' name t' ht'
  exact ⟨t'', ht'', le_trans hle hle'⟩

theorem Catalog.Changes.grows {touched : List (String × RowId)} {ddl : Bool} {c c' : Catalog}
    (h : c.Changes touched ddl c') : c.Grows c' := by
  intro name t ht
  obtain ⟨t', ht', hchanges⟩ := h.kept name t ht
  exact ⟨t', ht', hchanges.le⟩

/-- **The invariant of the shared state.** -/
structure SharedDatabase.Inv (shared : SharedDatabase) : Prop where
  /-- The committed tables are coherent. -/
  coherent : shared.database.catalog.Coherent
  /-- The database has no transaction of its own. -/
  noTransaction : shared.database.transaction = none
  /-- What is locked has a row id that has been used up. -/
  fresh (table : String) (rowId : RowId) (owner : Nat) :
    shared.rowLocks[rowLockKey table rowId]? = some owner →
      ∃ t, shared.database.catalog.tables[table]? = some t ∧ rowId < t.nextRowId

/-- **The invariant of an open transaction.** -/
structure TransactionState.Inv (shared : SharedDatabase) (state : TransactionState) : Prop where
  /-- The staged tables are coherent. -/
  coherent : state.catalog.Coherent
  /-- They are committed, and have used up no row ids that the committed ones have not. -/
  below (name : String) (t : Table) : state.catalog.tables[name]? = some t →
    ∃ target, shared.database.catalog.tables[name]? = some target ∧
      t.nextRowId ≤ target.nextRowId
  /-- What is locked are rows and insertions. -/
  keys : ∀ key ∈ state.lockedRows, IsLockKey key
  /-- The rows that are locked belong to staged tables. -/
  staged (table : String) (rowId : RowId) : rowLockKey table rowId ∈ state.lockedRows →
    ∃ t, state.catalog.tables[table]? = some t
  /-- The locks are entered in the table all share. -/
  holds : LockTable.Holds state.id state.lockedRows shared.rowLocks

theorem TransactionState.Inv.mergeInput {shared : SharedDatabase} {state : TransactionState}
    (h : state.Inv shared) (hs : shared.Inv) :
    MergeInput shared.database.catalog state.catalog state.lockedRows :=
  ⟨hs.coherent, h.coherent, h.below, h.keys⟩

/-- A transaction does not notice that the others go on, as long as they leave its locks alone. -/
theorem TransactionState.Inv.advance {shared shared' : SharedDatabase} {state : TransactionState}
    (h : state.Inv shared) (hgrows : shared.database.catalog.Grows shared'.database.catalog)
    (hlocks : LockTable.Holds state.id state.lockedRows shared'.rowLocks) : state.Inv shared' := by
  refine ⟨h.coherent, fun name t ht ↦ ?_, h.keys, h.staged, hlocks⟩
  obtain ⟨target, htarget, hle⟩ := h.below name t ht
  obtain ⟨target', htarget', hle'⟩ := hgrows name target htarget
  exact ⟨target', htarget', le_trans hle hle'⟩

/-- A locked row has an id that has been used up in the committed table. -/
theorem TransactionState.Inv.lt_of_mem {shared : SharedDatabase} {state : TransactionState}
    (h : state.Inv shared) (hs : shared.Inv) {table : String} {rowId : RowId}
    (hmem : rowLockKey table rowId ∈ state.lockedRows) :
    ∃ t, shared.database.catalog.tables[table]? = some t ∧ rowId < t.nextRowId :=
  hs.fresh table rowId state.id (h.holds _ hmem)

/-! ## What locking does -/

/-- **Locking**: keys are taken for the transaction, and nothing else happens to the rows. -/
structure Locking (shared : SharedDatabase) (state : TransactionState)
    (shared' : SharedDatabase) (state' : TransactionState) : Prop where
  id : state'.id = state.id
  options : shared'.database.options = shared.database.options
  /-- Nobody else's locks change. -/
  frame : LockTable.Frame state.id shared.rowLocks shared'.rowLocks
  grows : shared.database.catalog.Grows shared'.database.catalog
  /-- No committed row changes. -/
  version (table : String) (rowId : RowId) :
    shared'.database.catalog.version table rowId = shared.database.catalog.version table rowId
  /-- No staged row changes. -/
  stagedVersion (table : String) (rowId : RowId) :
    state'.catalog.version table rowId = state.catalog.version table rowId
  /-- What was locked is locked. -/
  subset : ∀ key ∈ state.lockedRows, key ∈ state'.lockedRows
  shared_inv : shared'.Inv
  inv : state'.Inv shared'
  /-- The transaction knows of all its locks, if it did. -/
  account : (∀ key : String, shared.rowLocks[key]? = some state.id → key ∈ state.lockedRows) →
    ∀ key : String, shared'.rowLocks[key]? = some state.id → key ∈ state'.lockedRows

theorem Locking.refl {shared : SharedDatabase} {state : TransactionState} (hs : shared.Inv)
    (h : state.Inv shared) : Locking shared state shared state :=
  ⟨rfl, rfl, LockTable.Frame.refl _ _, Catalog.Grows.refl _, fun _ _ ↦ rfl, fun _ _ ↦ rfl,
    fun _ hkey ↦ hkey, hs, h, fun hall ↦ hall⟩

theorem Locking.trans {shared shared' shared'' : SharedDatabase}
    {state state' state'' : TransactionState} (h : Locking shared state shared' state')
    (h' : Locking shared' state' shared'' state'') : Locking shared state shared'' state'' where
  id := h'.id.trans h.id
  options := h'.options.trans h.options
  frame := h.frame.trans (h.id ▸ h'.frame)
  grows := h.grows.trans h'.grows
  version table rowId := (h'.version table rowId).trans (h.version table rowId)
  stagedVersion table rowId := (h'.stagedVersion table rowId).trans (h.stagedVersion table rowId)
  subset key hkey := h'.subset key (h.subset key hkey)
  shared_inv := h'.shared_inv
  inv := h'.inv
  account hall key hkey := by
    have hall' := h.account hall
    rw [← h.id] at hall'
    exact h'.account hall' key (by rw [h.id]; exact hkey)

/-- Using up row ids keeps a table coherent. -/
theorem Table.Coherent.withNextRowId {t : Table} (h : t.Coherent) {nextRowId : RowId}
    (hle : t.nextRowId ≤ nextRowId) : { t with nextRowId }.Coherent where
  rowId_lt rowId row hrow := Nat.lt_of_lt_of_le (h.rowId_lt rowId row hrow) hle
  finite := h.finite
  keys := h.keys
  primary := h.primary
  indexes := h.indexes
  fulltextIndexes := h.fulltextIndexes

/-- Using up row ids of one table. -/
theorem Catalog.Coherent.withNextRowId {c : Catalog} (h : c.Coherent) {name : String} {t : Table}
    (ht : c.tables[name]? = some t) {nextRowId : RowId} (hle : t.nextRowId ≤ nextRowId) :
    Catalog.Coherent ⟨c.tables.insert name { t with nextRowId }⟩ ∧
      c.Grows ⟨c.tables.insert name { t with nextRowId }⟩ ∧
      ∀ (table : String) (rowId : RowId), Catalog.version
        ⟨c.tables.insert name { t with nextRowId }⟩ table rowId = c.version table rowId := by
  refine ⟨Catalog.All.insert h name ((h name t ht).withNextRowId hle), fun n u hu ↦ ?_,
    fun table rowId ↦ ?_⟩
  · rw [BTree.getElem?_insert]
    split
    · rename_i hn
      subst hn
      obtain rfl := Option.some.inj (ht.symm.trans hu)
      exact ⟨_, rfl, hle⟩
    · exact ⟨u, hu, le_refl _⟩
  · rw [Catalog.version, Catalog.version, BTree.getElem?_insert]
    split
    · rename_i hn
      subst hn
      rw [ht]
      rfl
    · rfl

variable {shared : SharedDatabase} {state : TransactionState}

/-! ## Taking the keys -/

/-- The lock key of an insertion is marked as such. -/
theorem insertLockKey_eq_ok {catalog : Catalog} {table key : String} {statement : Statement}
    (h : insertLockKey catalog table statement = .ok key) : ∃ rest, key = "insert:" ++ rest := by
  have hnext (t : Table) : ∃ rest, "insert:" ++ table ++ ":next:" ++
      String.ofList (Number.decimal t.nextRowId) = "insert:" ++ rest :=
    ⟨table ++ (":next:" ++ _), by rw [String.append_assoc, String.append_assoc]⟩
  unfold insertLockKey at h
  split at h
  · split at h
    · cases h
    · rename_i t _
      simp only at h
      split at h
      · exact Except.ok.inj h ▸ hnext t
      · split at h
        · rename_i value _
          cases hindex : indexKey value with
          | error error =>
            rw [hindex] at h
            cases h
          | ok indexed =>
            rw [hindex, Except.map, Except.ok.injEq] at h
            exact ⟨table ++ (":" ++ indexed), by rw [← h, String.append_assoc, String.append_assoc]⟩
        · exact Except.ok.inj h ▸ hnext t
  · cases h

/-- **Taking keys is locking.** -/
theorem locking_acquire (hs : shared.Inv) (h : state.Inv shared) {keys : List String}
    (hkeys : ∀ key ∈ keys, (∃ table rowId t, key = rowLockKey table rowId ∧
        state.catalog.tables[table]? = some t ∧ rowId < t.nextRowId) ∨
      ∃ rest, key = "insert:" ++ rest) :
    Locking shared state
      { shared with
        rowLocks := (LockTable.acquire state.id keys shared.rowLocks state.lockedRows).2.1 }
      { state with
        lockedRows := (LockTable.acquire state.id keys shared.rowLocks state.lockedRows).2.2 } where
  id := rfl
  options := rfl
  frame := LockTable.acquire_frame _ _ _ _
  grows := Catalog.Grows.refl _
  version _ _ := rfl
  stagedVersion _ _ := rfl
  subset key hkey := LockTable.mem_acquire_of_mem keys shared.rowLocks hkey
  shared_inv := by
    refine ⟨hs.coherent, hs.noTransaction, fun table rowId owner howner ↦ ?_⟩
    rcases LockTable.getElem?_acquire howner with hold | ⟨hmem, -⟩
    · exact hs.fresh table rowId owner hold
    · rcases hkeys _ hmem with ⟨table', rowId', t, heq, ht, hlt⟩ | ⟨rest, heq⟩
      · obtain ⟨rfl, rfl⟩ := rowLockKey_inj heq
        obtain ⟨target, htarget, hle⟩ := h.below table t ht
        exact ⟨target, htarget, Nat.lt_of_lt_of_le hlt hle⟩
      · exact absurd heq.symm (insert_ne_rowLockKey rest table rowId)
  inv := by
    refine ⟨h.coherent, h.below, fun key hkey ↦ ?_, fun table rowId hmem ↦ ?_,
      LockTable.acquire_holds keys h.holds⟩
    · rcases LockTable.mem_acquire hkey with hold | hmem
      · exact h.keys key hold
      · rcases hkeys key hmem with ⟨table, rowId, -, heq, -, -⟩ | hinsert
        · exact .inl ⟨table, rowId, heq⟩
        · exact .inr hinsert
    · rcases LockTable.mem_acquire hmem with hold | hmem
      · exact h.staged table rowId hold
      · rcases hkeys _ hmem with ⟨table', rowId', t, heq, ht, -⟩ | ⟨rest, heq⟩
        · obtain ⟨rfl, rfl⟩ := rowLockKey_inj heq
          exact ⟨t, ht⟩
        · exact absurd heq.symm (insert_ne_rowLockKey rest table rowId)
  account hall _ hkey := LockTable.mem_acquire_of_getElem? hall hkey

/-! ## Reserving a row id -/

/-- The id of the next committed row is one that no lock mentions. -/
theorem not_locked_nextRowId (hs : shared.Inv) {table : String} {t : Table}
    (ht : shared.database.catalog.tables[table]? = some t) :
    shared.rowLocks[rowLockKey table t.nextRowId]? = none := by
  rw [Option.eq_none_iff_forall_not_mem]
  intro owner howner
  obtain ⟨t', ht', hlt⟩ := hs.fresh table t.nextRowId owner howner
  obtain rfl := Option.some.inj (ht.symm.trans ht')
  exact absurd hlt (Nat.lt_irrefl _)

/-- The staged table a row id is reserved for. -/
theorem reserved_eq {committed staged : Table} (hle : staged.nextRowId ≤ committed.nextRowId) :
    (if staged.nextRowId < committed.nextRowId then
      { staged with nextRowId := committed.nextRowId } else staged) =
      { staged with nextRowId := committed.nextRowId } := by
  split
  · rfl
  · rename_i hnot
    have heq : committed.nextRowId = staged.nextRowId := Nat.le_antisymm (Nat.not_lt.mp hnot) hle
    rw [heq]

/-- **Reserving a row id is locking**, whatever the statement is. -/
theorem locking_reserve (hs : shared.Inv) (h : state.Inv shared) (statement : Statement) :
    Locking shared state (reserveInsertRowId shared state statement).2.1
      (reserveInsertRowId shared state statement).2.2 := by
  unfold reserveInsertRowId
  split
  · rename_i table columns values
    cases hcommitted : shared.database.catalog.tables[table]? with
    | none => exact Locking.refl hs h
    | some committed =>
      obtain ⟨hcoherent, hgrows, hversion⟩ := hs.coherent.withNextRowId hcommitted
        (Nat.le_succ committed.nextRowId)
      have hbumped : SharedDatabase.Inv { shared with database := { shared.database with
          catalog := ⟨shared.database.catalog.tables.insert table
            { committed with nextRowId := committed.nextRowId + 1 }⟩ } } := by
        refine ⟨hcoherent, hs.noTransaction, fun n rowId owner howner ↦ ?_⟩
        obtain ⟨t, ht, hlt⟩ := hs.fresh n rowId owner howner
        obtain ⟨t', ht', hle⟩ := hgrows n t ht
        exact ⟨t', ht', Nat.lt_of_lt_of_le hlt hle⟩
      cases hstaged : state.catalog.tables[table]? with
      | none =>
        exact ⟨rfl, rfl, LockTable.Frame.refl _ _, hgrows, hversion, fun _ _ ↦ rfl,
          fun _ hkey ↦ hkey, hbumped, h.advance hgrows h.holds, fun hall ↦ hall⟩
      | some staged =>
        obtain ⟨target, htarget, hle⟩ := h.below table staged hstaged
        obtain rfl := Option.some.inj (hcommitted.symm.trans htarget)
        obtain ⟨hcoherent', -, hversion'⟩ := Catalog.Coherent.withNextRowId h.coherent hstaged hle
        simp only [reserved_eq hle]
        have hfree := not_locked_nextRowId hs hcommitted
        have hinsert (key : String) : key ∈ state.lockedRows.insert
            (rowLockKey table committed.nextRowId) ↔
              rowLockKey table committed.nextRowId = key ∨ key ∈ state.lockedRows :=
          BTree.mem_insert_set state.lockedRows _ key
        refine ⟨rfl, rfl, LockTable.insert_frame (by simp [hfree]), hgrows, hversion, hversion',
          fun key hkey ↦ (hinsert key).mpr (.inr hkey), ?_, ?_, ?_⟩
        · refine ⟨hcoherent, hs.noTransaction, fun n rowId owner howner ↦ ?_⟩
          rw [BTree.getElem?_insert] at howner
          split at howner
          · rename_i heq
            obtain ⟨rfl, rfl⟩ := rowLockKey_inj heq
            exact ⟨_, by rw [BTree.getElem?_insert, if_pos rfl], Nat.lt_succ_self _⟩
          · exact hbumped.fresh n rowId owner howner
        · refine ⟨hcoherent', fun n t ht ↦ ?_, fun key hkey ↦ ?_, fun n rowId hmem ↦ ?_,
            h.holds.insert _⟩
          · rw [BTree.getElem?_insert] at ht ⊢
            split at ht
            · rename_i hn
              subst hn
              obtain rfl := Option.some.inj ht
              exact ⟨_, by rw [if_pos rfl], Nat.le_succ _⟩
            · rename_i hn
              rw [if_neg hn]
              exact h.below n t ht
          · rcases (hinsert key).mp hkey with rfl | hkey
            · exact .inl ⟨table, committed.nextRowId, rfl⟩
            · exact h.keys key hkey
          · have hstill : ∃ t, state.catalog.tables[n]? = some t := by
              rcases (hinsert _).mp hmem with heq | hmem
              · obtain ⟨rfl, -⟩ := rowLockKey_inj heq
                exact ⟨staged, hstaged⟩
              · exact h.staged n rowId hmem
            rw [BTree.getElem?_insert]
            split
            · exact ⟨_, rfl⟩
            · exact hstill
        · intro hall key hkey
          rw [BTree.getElem?_insert] at hkey
          split at hkey
          · rename_i heq
            exact (hinsert key).mpr (.inl heq)
          · exact (hinsert key).mpr (.inr (hall key hkey))
  · exact Locking.refl hs h

/-! ## The whole call -/

section Platform

variable [Platform]

/-- The keys a statement locks before it runs: rows of staged tables, or an insertion. -/
theorem rowsToLock_spec (hc : state.catalog.Coherent) {statement : Statement}
    {options : TableRuntimeOptions} {keys : List String}
    (h : rowsToLock state.catalog statement options = .ok keys) :
    ∀ key ∈ keys, (∃ table rowId t, key = rowLockKey table rowId ∧
        state.catalog.tables[table]? = some t ∧ rowId < t.nextRowId) ∨
      ∃ rest, key = "insert:" ++ rest := by
  have hrows (table : String) (filter : Option Filter)
      (h : rowsToLock state.catalog (.delete table filter) options = .ok keys) :
      ∀ key ∈ keys, ∃ table rowId t, key = rowLockKey table rowId ∧
        state.catalog.tables[table]? = some t ∧ rowId < t.nextRowId := by
    rw [rowsToLock] at h
    cases ht : state.catalog.tables[table]? with
    | none =>
      rw [ht] at h
      cases h
    | some t =>
      rw [ht] at h
      cases hmatch : t.matchingRowIdsForLock filter options with
      | error error =>
        simp only [hmatch, Except.map] at h
        cases h
      | ok rowIds =>
        simp only [hmatch, Except.map, Except.ok.injEq] at h
        subst h
        intro key hkey
        obtain ⟨rowId, hmem, rfl⟩ := List.mem_map.mp hkey
        obtain ⟨row, hrow⟩ := Table.matchingRowIdsForLock_mem (hc table t ht) hmatch hmem
        exact ⟨table, rowId, t, rfl, ht, (hc table t ht).rowId_lt rowId row hrow⟩
  cases statement with
  | update table assignments filter => exact fun key hkey ↦ .inl (hrows table filter h key hkey)
  | delete table filter => exact fun key hkey ↦ .inl (hrows table filter h key hkey)
  | insert table columns values =>
    rw [rowsToLock] at h
    cases hkey : insertLockKey state.catalog table (.insert table columns values) with
    | error error =>
      rw [hkey] at h
      cases h
    | ok key =>
      rw [hkey, Except.map, Except.ok.injEq] at h
      subst h
      intro key' hkey'
      obtain rfl := List.mem_singleton.mp hkey'
      exact .inr (insertLockKey_eq_ok hkey)
  | _ =>
    obtain rfl := Except.ok.inj h
    simp

/-- **`lock_statement_rows` is locking**, whether it succeeds or not. -/
theorem locking_lockStatementRows (hs : shared.Inv) (h : state.Inv shared)
    (statement : Statement) :
    Locking shared state (lockStatementRows shared statement state).2.1
      (lockStatementRows shared statement state).2.2 := by
  rw [lockStatementRows]
  cases hkeys :
    rowsToLock state.catalog statement (tableRuntimeOptions shared.database.options) with
  | error error => exact Locking.refl hs h
  | ok keys =>
    have hacquired := locking_acquire hs h (rowsToLock_spec h.coherent hkeys)
    simp only
    cases hacquire : LockTable.acquire state.id keys shared.rowLocks state.lockedRows with
    | mk result rest =>
      rw [hacquire] at hacquired
      cases result with
      | error key => exact hacquired
      | ok _ =>
        exact hacquired.trans (locking_reserve hacquired.shared_inv hacquired.inv statement)

/-- Every row that a statement can change is locked. -/
def Covered (state : TransactionState) (statement : Statement) (options : TableRuntimeOptions) :
    Prop :=
  ∀ p ∈ touchedRows state.catalog statement options, rowLockKey p.1 p.2 ∈ state.lockedRows

/-- The rows of an update or a deletion are among the keys it locks. -/
theorem mem_rowsToLock {catalog : Catalog} {statement : Statement} {options : TableRuntimeOptions}
    {keys : List String} (h : rowsToLock catalog statement options = .ok keys)
    (hinsert : ∀ table columns values, statement ≠ .insert table columns values)
    {p : String × RowId} (hp : p ∈ touchedRows catalog statement options) :
    rowLockKey p.1 p.2 ∈ keys := by
  have hrows (table : String) (filter : Option Filter)
      (h : rowsToLock catalog (.delete table filter) options = .ok keys)
      (hp : p ∈ touchedRows catalog (.delete table filter) options) :
      rowLockKey p.1 p.2 ∈ keys := by
    rw [rowsToLock] at h
    rw [touchedRows] at hp
    cases ht : catalog.tables[table]? with
    | none =>
      rw [ht] at hp
      cases hp
    | some t =>
      rw [ht] at h hp
      cases hmatch : t.matchingRowIdsForLock filter options with
      | error error =>
        simp only [hmatch] at hp
        cases hp
      | ok rowIds =>
        simp only [hmatch, Except.map, Except.ok.injEq] at h hp
        subst h
        obtain ⟨rowId, hmem, rfl⟩ := List.mem_map.mp hp
        exact List.mem_map_of_mem hmem
  cases statement with
  | update table assignments filter => exact hrows table filter h hp
  | delete table filter => exact hrows table filter h hp
  | insert table columns values => exact absurd rfl (hinsert table columns values)
  | _ => cases hp

/-- **When locking succeeds, every row that the statement can change is locked.** -/
theorem covered_of_lockStatementRows (h : state.Inv shared) {statement : Statement}
    (hok : (lockStatementRows shared statement state).1 = .ok ()) :
    Covered (lockStatementRows shared statement state).2.2 statement
      (tableRuntimeOptions shared.database.options) := by
  rw [lockStatementRows] at hok ⊢
  cases hkeys :
    rowsToLock state.catalog statement (tableRuntimeOptions shared.database.options) with
  | error error =>
    rw [hkeys] at hok
    cases hok
  | ok keys =>
    rw [hkeys] at hok
    simp only at hok ⊢
    have hall := @LockTable.mem_acquire_of_ok _ _ _ _ _ _ _ state.id keys
      shared.rowLocks state.lockedRows
    cases hacquire : LockTable.acquire state.id keys shared.rowLocks state.lockedRows with
    | mk result rest =>
      obtain ⟨rowLocks, lockedRows⟩ := rest
      rw [hacquire] at hok hall
      cases result with
      | error key => cases hok
      | ok _ =>
        by_cases hinsert : ∃ table columns values, statement = .insert table columns values
        · obtain ⟨table, columns, values, rfl⟩ := hinsert
          simp only [reserveInsertRowId] at hok ⊢
          cases hcommitted : shared.database.catalog.tables[table]? with
          | none =>
            rw [hcommitted] at hok
            cases hok
          | some committed =>
            rw [hcommitted] at hok
            simp only at hok ⊢
            cases hstaged : state.catalog.tables[table]? with
            | none =>
              rw [hstaged] at hok
              cases hok
            | some staged =>
              obtain ⟨target, htarget, hle⟩ := h.below table staged hstaged
              obtain rfl := Option.some.inj (hcommitted.symm.trans htarget)
              simp only [reserved_eq hle]
              intro p hp
              rw [touchedRows, BTree.getElem?_insert, if_pos rfl] at hp
              obtain rfl := List.mem_singleton.mp hp
              exact (BTree.mem_insert_set _ _ _).mpr (.inl rfl)
        · have hsame : reserveInsertRowId { shared with rowLocks } { state with lockedRows }
              statement = (.ok (), { shared with rowLocks }, { state with lockedRows }) := by
            cases statement with
            | insert table columns values => exact absurd ⟨table, columns, values, rfl⟩ hinsert
            | _ => rfl
          intro p hp
          simp only [hsame] at hp ⊢
          refine hall rfl (mem_rowsToLock hkeys (fun table columns values heq ↦ ?_) hp)
          exact hinsert ⟨table, columns, values, heq⟩

end Platform

end Fsql
