import Fsql.Pool.Invariant

/-!
# Writes outside transactions

The row locks are looked at by the statements of open transactions.  An `UPDATE` or `DELETE` of a
connection without a transaction is executed on the committed catalog at once (`executeShared`), and
what it finds locked there it changes all the same.  `honoursLocks_iff` says exactly which such
statements do fail and change nothing when they meet a lock: those that would fail without it.
-/

set_option autoImplicit false

namespace Fsql

/-- The statement changes the rows that match a filter. -/
def Statement.Modifies (statement : Statement) : Prop :=
  ∃ table filter, statement = .delete table filter ∨
    ∃ assignments, statement = .update table assignments filter

/-- A write that is made fails when the environment lets it. -/
theorem appendOptionalLine_cases (path : Option String) (outcome : Option Error) :
    (appendOptionalLine path outcome = .ok () ∧ ¬(path.isSome ∧ outcome.isSome)) ∨
      ∃ error, appendOptionalLine path outcome = .error error ∧ path.isSome ∧ outcome.isSome := by
  cases path with
  | none => exact .inl ⟨rfl, fun h ↦ absurd h.1 Bool.false_ne_true⟩
  | some path =>
    cases outcome with
    | none => exact .inl ⟨rfl, fun h ↦ absurd h.2 Bool.false_ne_true⟩
    | some error => exact .inr ⟨error, rfl, rfl, rfl⟩

/-- What is computed from a result fails as the result does. -/
theorem exists_map_eq_error {α β : Type} (f : α → β) (result : Result α) :
    (∃ error, result.map f = .error error) ↔ ∃ error, result = .error error := by
  cases result with
  | error error => exact ⟨fun _ ↦ ⟨error, rfl⟩, fun _ ↦ ⟨error, rfl⟩⟩
  | ok value => exact ⟨fun ⟨error, h⟩ ↦ (by cases h), fun ⟨error, h⟩ ↦ (by cases h)⟩

section Platform

variable [Platform]

/-- The statement is an `UPDATE` whose assignments cannot be made: they do not resolve, or leave a
primary key that is null or not the only one. -/
def Catalog.Refuses (catalog : Catalog) (statement : Statement) (options : TableRuntimeOptions) :
    Prop :=
  match statement with
  | .update table assignments filter => ∀ t rowIds normalized, catalog.tables[table]? = some t →
      t.matchingRowIdsForLock filter options = .ok rowIds →
        t.normalizeAssignments options assignments = .ok normalized →
          ¬(t.assigned rowIds normalized).KeysOk
  | _ => False

/-- A statement that touches rows has a table, and its filter resolves. -/
theorem exists_of_touchedRows_ne_nil {catalog : Catalog} {table : String} {filter : Option Filter}
    {statement : Statement} {options : TableRuntimeOptions}
    (h : statement = .delete table filter ∨ ∃ assignments,
      statement = .update table assignments filter)
    (hne : touchedRows catalog statement options ≠ []) :
    ∃ t rowIds, catalog.tables[table]? = some t ∧
      t.matchingRowIdsForLock filter options = .ok rowIds := by
  have htouched : touchedRows catalog statement options = touchedRows catalog
      (.delete table filter) options := by
    rcases h with rfl | ⟨assignments, rfl⟩ <;> rfl
  rw [htouched] at hne
  cases ht : catalog.tables[table]? with
  | none =>
    simp only [touchedRows, ht] at hne
    exact absurd rfl hne
  | some t =>
    cases hmatch : t.matchingRowIdsForLock filter options with
    | error error =>
      simp only [touchedRows, ht, hmatch] at hne
      exact absurd rfl hne
    | ok rowIds => exact ⟨t, rowIds, rfl, hmatch⟩

/-- **When an update of rows fails**: exactly if its assignments cannot be made. -/
theorem Table.updateWithOptions_error_iff {t : Table} (hc : t.Coherent)
    (assignments : List (String × Value)) {filter : Option Filter} {options : TableRuntimeOptions}
    {rowIds : List RowId} (hmatch : t.matchingRowIdsForLock filter options = .ok rowIds) :
    (∃ error, (t.updateWithOptions assignments filter options).1 = .error error) ↔
      ∀ normalized, t.normalizeAssignments options assignments = .ok normalized →
        ¬(t.assigned rowIds normalized).KeysOk := by
  rcases updateWithOptions_cases hc assignments filter options with
    ⟨error, hplan, heq⟩ | ⟨rowIds', normalized, t', hplan, -, hresult⟩
  · rw [heq]
    refine ⟨fun _ normalized hnormalized ↦ ?_, fun _ ↦ ⟨error, rfl⟩⟩
    rw [updatePlan_ok hmatch hnormalized] at hplan
    cases hplan
  · obtain ⟨hmatch', hnormalized⟩ := updatePlan_eq_ok hplan
    obtain rfl := Except.ok.inj (hmatch.symm.trans hmatch')
    rcases hresult with ⟨hkeys, -, heq⟩ | ⟨hkeys, -, error, heq⟩
    · rw [heq]
      refine ⟨fun ⟨error, h⟩ ↦ (by cases h), fun h ↦ absurd hkeys (h normalized hnormalized)⟩
    · rw [heq]
      refine ⟨fun _ normalized' hnormalized' ↦ ?_, fun _ ↦ ⟨error, rfl⟩⟩
      obtain rfl := Except.ok.inj (hnormalized.symm.trans hnormalized')
      exact hkeys

/-- **When a statement that touches rows fails**: exactly if its assignments cannot be made. -/
theorem executeStatement_error_iff {catalog : Catalog} (hcoherent : catalog.Coherent)
    {statement : Statement} (hmodifies : statement.Modifies) {options : TableRuntimeOptions}
    (hne : touchedRows catalog statement options ≠ []) :
    (∃ error, (executeStatementWithOptions catalog statement options).1 = .error error) ↔
      catalog.Refuses statement options := by
  obtain ⟨table, filter, hform⟩ := hmodifies
  obtain ⟨t, rowIds, ht, hmatch⟩ := exists_of_touchedRows_ne_nil hform hne
  rcases hform with rfl | ⟨assignments, rfl⟩
  · refine ⟨fun ⟨error, herror⟩ ↦ ?_, False.elim⟩
    rw [executeStatementWithOptions, Catalog.modifyTable_self _ ht] at herror
    rcases Table.deleteWithOptions_cases (hcoherent table t ht) filter options with
      ⟨_, hmatch', -⟩ | ⟨rowIds', t', -, -, -, heq⟩
    · rw [hmatch] at hmatch'
      cases hmatch'
    · rw [heq] at herror
      cases herror
  · rw [executeStatementWithOptions, Catalog.modifyTable_self _ ht]
    refine (exists_map_eq_error _ _).trans ?_
    refine (Table.updateWithOptions_error_iff (hcoherent table t ht) assignments hmatch).trans ?_
    constructor
    · intro h t' rowIds' normalized ht' hmatch' hnormalized
      obtain rfl := Option.some.inj (ht.symm.trans ht')
      obtain rfl := Except.ok.inj (hmatch.symm.trans hmatch')
      exact h normalized hnormalized
    · intro h normalized hnormalized
      exact h t rowIds normalized ht hmatch hnormalized

/-- **When a statement that is executed on the committed catalog fails**: it fails on the catalog,
or cannot be made durable; and then it leaves the catalog. -/
theorem executeShared_error_iff (shared : SharedDatabase) (statement : Statement)
    (persist : Option Error) :
    ((∃ error, (executeShared shared statement persist).1 = .error error) ∧
        (executeShared shared statement persist).2.database.catalog = shared.database.catalog) ↔
      (∃ error, (executeStatementWithOptions shared.database.catalog statement
          (tableRuntimeOptions shared.database.options)).1 = .error error) ∨
        shared.database.path.isSome ∧ persist.isSome := by
  rw [executeShared]
  generalize executeStatementWithOptions shared.database.catalog statement
    (tableRuntimeOptions shared.database.options) = executed
  obtain ⟨result, catalog⟩ := executed
  cases result with
  | error error => exact iff_of_true ⟨⟨error, rfl⟩, rfl⟩ (.inl ⟨error, rfl⟩)
  | ok result =>
    rcases appendOptionalLine_cases shared.database.path persist with
      ⟨hok, hnot⟩ | ⟨error, herror, hboth⟩
    · simp only [Database.persist, hok]
      refine iff_of_false ?_ ?_
      · rintro ⟨⟨error, h⟩, -⟩
        cases h
      · rintro (⟨error, h⟩ | hboth)
        · cases h
        · exact hnot hboth
    · simp only [Database.persist, herror]
      exact iff_of_true ⟨⟨error, rfl⟩, rfl⟩ (.inr hboth)

/-- Without a transaction, a statement that modifies rows is executed on the committed catalog. -/
theorem enterStatement_modifies {statement : Statement} (h : statement.Modifies)
    (shared : SharedDatabase) (nextTransactionId : Nat) (persist : Option Error) :
    enterStatement shared nextTransactionId none statement persist =
      (.returned statement (executeShared shared statement persist).1,
        (executeShared shared statement persist).2, nextTransactionId, none) := by
  obtain ⟨table, filter, rfl | ⟨assignments, rfl⟩⟩ := h <;> rfl

namespace ConnectionPool

variable {pool pool' : ConnectionPool}

/-- A row the statement would touch is locked by an open transaction of another connection. -/
def MeetsLock (pool : ConnectionPool) (c : Nat) (statement : Statement) : Prop :=
  ∃ p ∈ touchedRows pool.committed statement pool.options, ∃ c' state, c' ≠ c ∧
    pool.transactionOf c' = some state ∧
      pool.shared.rowLocks[rowLockKey p.1 p.2]? = some state.id

/-- **A lock binds the writer**: a statement that meets one fails and leaves the committed
catalog. -/
def HonoursLocks (pool : ConnectionPool) (c : Nat) (statement : Statement)
    (pool' : ConnectionPool) : Prop :=
  pool.MeetsLock c statement →
    (∃ error, pool'.phaseOf c = some (.returned statement (.error error))) ∧
      pool'.committed = pool.committed

/-- **When a write outside transactions honours the row locks**: it meets none, or would fail in
any case. -/
theorem honoursLocks_iff (h : machine.Reachable pool) {c : Nat} {statement : Statement}
    {persist : Option Error} (hphase : pool.phaseOf c = some (.called statement))
    (hmodifies : statement.Modifies) (hopen : pool.transactionOf c = none)
    (hstep : pool.step (.enter c persist) = some pool') :
    pool.HonoursLocks c statement pool' ↔
      ¬pool.MeetsLock c statement ∨ pool.committed.Refuses statement pool.options ∨
        pool.shared.database.path.isSome ∧ persist.isSome := by
  have hinv := inv_of_reachableVia h
  obtain ⟨hshared, -, hphase'⟩ := enter_called hphase hstep
  rw [hopen, enterStatement_modifies hmodifies] at hshared hphase'
  have houtcome : ((∃ error, pool'.phaseOf c = some (.returned statement (.error error))) ∧
      pool'.committed = pool.committed) ↔
      (∃ error, (executeStatementWithOptions pool.committed statement pool.options).1 =
          .error error) ∨ pool.shared.database.path.isSome ∧ persist.isSome := by
    rw [hphase', committed, hshared, ← executeShared_error_iff]
    simp only [Option.some.injEq, Phase.returned.injEq, true_and]
  rw [HonoursLocks, houtcome]
  by_cases hmeets : pool.MeetsLock c statement
  · obtain ⟨p, hp, -⟩ := id hmeets
    have hne : touchedRows pool.committed statement pool.options ≠ [] := List.ne_nil_of_mem hp
    rw [executeStatement_error_iff hinv.shared.coherent hmodifies hne]
    simp only [hmeets, not_true_eq_false, false_or, true_implies]
  · exact iff_of_true (fun hmeets' ↦ absurd hmeets' hmeets) (.inl hmeets)

end ConnectionPool

end Platform

namespace ConnectionPool

/-! ## Concrete runs -/

/-- The statement a connection is called with. -/
def calledStatement : Option Phase → Option Statement
  | some (.called statement) => some statement
  | _ => none

theorem eq_called_of_calledStatement {phase : Option Phase} {statement : Statement}
    (h : calledStatement phase = some statement) : phase = some (.called statement) := by
  unfold calledStatement at h
  split at h
  · exact congrArg (fun s ↦ some (Phase.called s)) (Option.some.inj h)
  · cases h

/-- The step executes a statement of a connection without a transaction. -/
def writesWith (pool : ConnectionPool) (c : Nat) (statement : Statement)
    (test : ConnectionPool → Bool) : Bool :=
  calledStatement (pool.phaseOf c) = some statement && (pool.transactionOf c).isNone &&
    (@step Platform.ascii pool (.enter c none)).any test

theorem exists_of_writesWith {pool : ConnectionPool} {c : Nat} {statement : Statement}
    {test : ConnectionPool → Bool} (h : writesWith pool c statement test = true) :
    pool.phaseOf c = some (.called statement) ∧ pool.transactionOf c = none ∧
      ∃ pool', @step Platform.ascii pool (.enter c none) = some pool' ∧ test pool' = true := by
  simp only [writesWith, Bool.and_eq_true, decide_eq_true_eq, Option.any_eq_true,
    Option.isNone_iff_eq_none] at h
  obtain ⟨⟨hcalled, hopen⟩, pool', hstep, htest⟩ := h
  exact ⟨eq_called_of_calledStatement hcalled, hopen, pool', hstep, htest⟩

/-- One connection has updated the row in its transaction, and another is about to update it. -/
def lockedUpdate : List PoolAction :=
  .get 0 :: .get 1 :: long 0 "CREATE TABLE t (a INT)" ++ short 0 "INSERT INTO t VALUES (1)"
    ++ short 0 "BEGIN" ++ long 0 "UPDATE t SET a = 2" ++ [.call 1 "UPDATE t SET a = 3" {}]

/-- The second update meets the lock of the first, and changes the committed row. -/
theorem lockedUpdate_writes : writesWith (afterActions lockedUpdate) 1
    (.update "t" [("a", .integer 3)] none) (fun pool' ↦
      ("t", 1) ∈ @touchedRows Platform.ascii (afterActions lockedUpdate).committed
        (.update "t" [("a", .integer 3)] none) (afterActions lockedUpdate).options ∧
      ((afterActions lockedUpdate).transactionOf 0).any (fun state ↦
        (afterActions lockedUpdate).shared.rowLocks[rowLockKey "t" 1]? = some state.id) ∧
      pool'.committed.version "t" 1 ≠ (afterActions lockedUpdate).committed.version "t" 1) =
        true := by decide +kernel

/-- **A write outside transactions passes by the locks**: it changes a row that is locked by an open
transaction of another connection. -/
theorem not_honoursLocks_of_enter : ¬∀ [Platform] (pool pool' : ConnectionPool) (c : Nat)
    (statement : Statement) (persist : Option Error), machine.Reachable pool →
      pool.phaseOf c = some (.called statement) → statement.Modifies →
        pool.transactionOf c = none → pool.step (.enter c persist) = some pool' →
          pool.HonoursLocks c statement pool' := by
  intro h
  have hreachable := reachableVia_afterActions lockedUpdate (Machine.stepsSatisfy_true _ _)
  obtain ⟨hphase, hopen, pool', hstep, htest⟩ := exists_of_writesWith lockedUpdate_writes
  rw [decide_eq_true_eq] at htest
  obtain ⟨htouched, hlocked, hne⟩ := htest
  obtain ⟨state, hstate, hkey⟩ := (Option.any_eq_true _ _).mp hlocked
  have hhonours := @h Platform.ascii _ pool' 1 _ none hreachable hphase
    ⟨"t", none, .inr ⟨_, rfl⟩⟩ hopen hstep
  obtain ⟨-, hcommitted⟩ := hhonours ⟨_, htouched, 0, state, by decide, hstate,
    of_decide_eq_true hkey⟩
  exact hne (congrArg (fun catalog ↦ Catalog.version catalog "t" 1) hcommitted)

/-- In that run, the second update would honour the lock exactly if it were refused. -/
theorem honoursLocks_lockedUpdate : ∃ pool',
    @HonoursLocks Platform.ascii (afterActions lockedUpdate) 1
        (.update "t" [("a", .integer 3)] none) pool' ↔
      ¬@MeetsLock Platform.ascii (afterActions lockedUpdate) 1
          (.update "t" [("a", .integer 3)] none) ∨
        @Catalog.Refuses Platform.ascii (afterActions lockedUpdate).committed
            (.update "t" [("a", .integer 3)] none) (afterActions lockedUpdate).options ∨
          (afterActions lockedUpdate).shared.database.path.isSome ∧
            (none : Option Error).isSome := by
  have hreachable := reachableVia_afterActions lockedUpdate (Machine.stepsSatisfy_true _ _)
  obtain ⟨hphase, hopen, pool', hstep, -⟩ := exists_of_writesWith lockedUpdate_writes
  exact ⟨pool', @honoursLocks_iff Platform.ascii _ _ hreachable 1 _ none hphase
    ⟨"t", none, .inr ⟨_, rfl⟩⟩ hopen hstep⟩

end ConnectionPool

end Fsql
