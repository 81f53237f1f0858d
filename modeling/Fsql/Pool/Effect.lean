import Fsql.Pool.Locking

/-!
# What a step can do

A step of a connection changes the shared state and the connection's transaction in one of eight
ways, and `Effect` lists them.  `enterStatement_effect` and `proceedStatement_effect` are the case
analysis of the step functions, done once; what the invariants need of an effect is collected in
`Effect.sound`.
-/

set_option autoImplicit false

namespace Fsql

section Platform

variable [Platform]

/-- **The effects of a step**, of a connection in a given phase, on the shared state, the number of
the next transaction and the connection's own transaction. -/
inductive Effect (phase : Option Phase) (shared : SharedDatabase) (n : Nat) :
    Option TransactionState → SharedDatabase → Nat → Option TransactionState → Prop
  /-- Nothing happens. -/
  | quiet (tx : Option TransactionState) : Effect phase shared n tx shared n tx
  /-- A transaction is opened on the committed catalog. -/
  | begin : Effect phase shared n none shared (n + 1) (some ⟨n, shared.database.catalog, ∅⟩)
  /-- The rows of a statement are locked, or some of them. -/
  | lock (state : TransactionState) (statement : Statement)
      (hphase : phase = some (.called statement)) :
    Effect phase shared n (some state) (lockStatementRows shared statement state).2.1 n
      (some (lockStatementRows shared statement state).2.2)
  /-- A statement is executed on the working catalog, its rows being locked. -/
  | write (state : TransactionState) (statement : Statement)
      (hphase : phase = some (.locked statement)) (hddl : statement.isDdl = false)
      (hcovered : Covered state statement (tableRuntimeOptions shared.database.options)) :
    Effect phase shared n (some state) shared n (some { state with
      catalog := (executeStatementWithOptions state.catalog statement
        (tableRuntimeOptions shared.database.options)).2 })
  /-- The transaction is given up, and its locks are released. -/
  | release (state : TransactionState) :
    Effect phase shared n (some state)
      { shared with rowLocks := releaseLocks shared.rowLocks state } n none
  /-- The transaction is committed, and its locks are released. -/
  | publish (state : TransactionState) (merged : Catalog)
      (hmerged : mergeCatalogs shared.database.catalog state.catalog state.lockedRows =
        .ok merged) :
    Effect phase shared n (some state)
      ⟨shared.database.replaceCatalog merged, releaseLocks shared.rowLocks state⟩ n none
  /-- The transaction cannot be merged: it is gone, and its locks stay. -/
  | leak (state : TransactionState) (error : Error)
      (hphase : phase = some (.called .commit))
      (herror : mergeCatalogs shared.database.catalog state.catalog state.lockedRows =
        .error error) :
    Effect phase shared n (some state) shared n none
  /-- A statement outside a transaction is executed on the committed catalog. -/
  | direct (statement : Statement)
      (hphase : phase = some (.called statement) ∨
        phase = some (.admitted statement) ∧ statement.isDdl = true) :
    Effect phase shared n none { shared with database := { shared.database with
      catalog := (executeStatementWithOptions shared.database.catalog statement
        (tableRuntimeOptions shared.database.options)).2 } } n none

/-- What a connection in a phase can rely on. -/
def PhaseOk (options : TableRuntimeOptions) (transaction : Option TransactionState) : Phase → Prop
  | .admitted statement => statement.isDdl = true ∧ transaction = none
  | .locked statement => statement.isDdl = false ∧
      ∀ state ∈ transaction, Covered state statement options
  | _ => True

variable {shared shared' : SharedDatabase} {n n' : Nat} {tx tx' : Option TransactionState}

/-! ## The step functions -/

omit [Platform] in
/-- Putting the catalog back leaves the database as it was. -/
theorem replaceCatalog_self (hs : shared.Inv) (catalog : Catalog) :
    ({ shared.database with catalog }.replaceCatalog shared.database.catalog) =
      shared.database := by
  rw [Database.replaceCatalog, ← hs.noTransaction]

theorem executeShared_effect (hs : shared.Inv) {phase : Option Phase} {statement : Statement}
    (hphase : phase = some (.called statement) ∨
      phase = some (.admitted statement) ∧ statement.isDdl = true) (persist : Option Error) :
    Effect phase shared n none (executeShared shared statement persist).2 n none := by
  rw [executeShared]
  cases hresult : (executeStatementWithOptions shared.database.catalog statement
      (tableRuntimeOptions shared.database.options)).1 with
  | error error =>
    simp only [hresult, replaceCatalog_self hs]
    exact .quiet none
  | ok result =>
    simp only [hresult]
    split
    · simp only [replaceCatalog_self hs]
      exact .quiet none
    · exact .direct statement hphase

theorem commitTransaction_effect (hs : shared.Inv) {phase : Option Phase}
    (hphase : phase = some (.called .commit)) (persist : Option Error) :
    Effect phase shared n tx (commitTransaction shared tx persist).2.1 n
      (commitTransaction shared tx persist).2.2 := by
  cases tx with
  | none => exact .quiet none
  | some state =>
    rw [commitTransaction]
    cases hmerged : mergeCatalogs shared.database.catalog state.catalog state.lockedRows with
    | error error => exact .leak state error hphase hmerged
    | ok merged =>
      simp only
      split
      · have hback : (shared.database.replaceCatalog merged).replaceCatalog
            shared.database.catalog = shared.database := by
          simp only [Database.replaceCatalog]
          rw [← hs.noTransaction]
        rw [hback]
        exact .release state
      · exact .publish state merged hmerged

/-- The first critical section of a statement that does not begin or end a transaction. -/
theorem enterStatement_eq {statement : Statement} (h : statement.isTransactionControl = false)
    (shared : SharedDatabase) (n : Nat) (tx : Option TransactionState) (persist : Option Error) :
    enterStatement shared n tx statement persist =
      if statement.isDdl then
        if tx.isSome then
          (.returned statement
            (.error (execution "ddl is not allowed inside an active transaction")), shared, n, tx)
        else if ¬shared.rowLocks.isEmpty then
          (.returned statement (.error (execution "ddl blocked by active dml transactions")),
            shared, n, tx)
        else (.admitted statement, shared, n, tx)
      else
        match tx with
        | some state =>
          match lockStatementRows shared statement state with
          | (.error error, shared, state) =>
            (.returned statement (.error error), shared, n, some state)
          | (.ok (), shared, state) => (.locked statement, shared, n, some state)
        | none =>
          let (result, shared) := executeShared shared statement persist
          (.returned statement result, shared, n, none) := by
  cases statement <;> first | rfl | cases h

/-- **The first critical section.** -/
theorem enterStatement_effect (hs : shared.Inv) (statement : Statement) (persist : Option Error)
    (hstate : ∀ state ∈ tx, state.Inv shared) {phase' : Phase}
    (h : enterStatement shared n tx statement persist = (phase', shared', n', tx')) :
    Effect (some (.called statement)) shared n tx shared' n' tx' ∧
      PhaseOk (tableRuntimeOptions shared.database.options) tx' phase' := by
  have hother (hcontrol : statement.isTransactionControl = false) :
      Effect (some (.called statement)) shared n tx shared' n' tx' ∧
        PhaseOk (tableRuntimeOptions shared.database.options) tx' phase' := by
    rw [enterStatement_eq hcontrol] at h
    split at h
    · rename_i hddl
      split at h
      · cases h
        exact ⟨.quiet _, trivial⟩
      · rename_i hnone
        split at h
        · cases h
          exact ⟨.quiet _, trivial⟩
        · cases h
          exact ⟨.quiet _, hddl, Option.not_isSome_iff_eq_none.mp hnone⟩
    · rename_i hddl
      cases tx with
      | none =>
        cases h
        exact ⟨executeShared_effect hs (.inl rfl) persist, trivial⟩
      | some state =>
        have heffect := @Effect.lock _ (some (.called statement)) shared n state statement rfl
        have hcovered := @covered_of_lockStatementRows _ _ _ (hstate state rfl) statement
        simp only at h
        generalize lockStatementRows shared statement state = locked at h heffect hcovered
        obtain ⟨result, shared₁, state₁⟩ := locked
        cases result with
        | error error =>
          cases h
          exact ⟨heffect, trivial⟩
        | ok _ =>
          cases h
          refine ⟨heffect, Bool.not_eq_true _ ▸ hddl, fun state' hstate' ↦ ?_⟩
          obtain rfl := Option.some.inj hstate'
          exact hcovered rfl
  cases statement with
  | begin =>
    simp only [enterStatement, beginTransaction] at h
    split at h
    · cases h
      exact ⟨.quiet _, trivial⟩
    · rename_i hnone
      cases h
      obtain rfl := Option.not_isSome_iff_eq_none.mp hnone
      refine ⟨?_, trivial⟩
      rw [Database.activeCatalog, hs.noTransaction]
      exact .begin
  | commit =>
    cases h
    exact ⟨commitTransaction_effect hs rfl persist, trivial⟩
  | rollback =>
    cases tx with
    | none =>
      cases h
      exact ⟨.quiet none, trivial⟩
    | some state =>
      cases h
      exact ⟨.release state, trivial⟩
  | _ => exact hother rfl

/-- **A statement that goes on to the second critical section** has had its rows locked. -/
theorem enterStatement_locked {statement statement' : Statement} {persist : Option Error}
    (h : (enterStatement shared n tx statement persist).1 = .locked statement') :
    statement' = statement ∧ ∃ state ∈ tx, (lockStatementRows shared statement state).1 = .ok () ∧
      (enterStatement shared n tx statement persist).2.2.2 =
        some (lockStatementRows shared statement state).2.2 := by
  have hother (hcontrol : statement.isTransactionControl = false) :
      statement' = statement ∧ ∃ state ∈ tx, (lockStatementRows shared statement state).1 = .ok () ∧
        (enterStatement shared n tx statement persist).2.2.2 =
          some (lockStatementRows shared statement state).2.2 := by
    rw [enterStatement_eq hcontrol] at h ⊢
    split at h
    · split at h
      · cases h
      · split at h <;> cases h
    · rcases tx with _ | state
      · cases h
      · rename_i hddl
        rw [if_neg hddl]
        dsimp only at h ⊢
        rcases hlocked : lockStatementRows shared statement state with
          ⟨error | _, shared₁, state₁⟩ <;> rw [hlocked] at h
        · cases h
        · obtain rfl := Phase.locked.inj h
          exact ⟨rfl, state, rfl, by rw [hlocked], by rw [hlocked]⟩
  cases statement with
  | begin =>
    simp only [enterStatement, beginTransaction] at h
    split at h <;> cases h
  | commit => cases h
  | rollback => cases h
  | _ => exact hother rfl

/-- **The second critical section.** -/
theorem proceedStatement_effect (hs : shared.Inv) {phase phase' : Phase} (persist : Option Error)
    (hphase : PhaseOk (tableRuntimeOptions shared.database.options) tx phase)
    (h : proceedStatement shared tx phase persist = some (phase', shared', tx')) :
    Effect (some phase) shared n tx shared' n tx' ∧
      PhaseOk (tableRuntimeOptions shared.database.options) tx' phase' := by
  unfold proceedStatement at h
  split at h
  · cases h
    exact ⟨executeShared_effect hs (.inr ⟨rfl, hphase.1⟩) persist, trivial⟩
  · rename_i statement state
    cases h
    exact ⟨.write state statement rfl hphase.1 (hphase.2 state rfl), trivial⟩
  · cases h

/-! ## What every effect preserves -/

/-- **What the invariants need of an effect.** -/
structure Sound (shared : SharedDatabase) (n : Nat) (tx : Option TransactionState)
    (shared' : SharedDatabase) (n' : Nat) (tx' : Option TransactionState) : Prop where
  options : shared'.database.options = shared.database.options
  le : n ≤ n'
  grows : shared.database.catalog.Grows shared'.database.catalog
  /-- The locks of the other transactions stay, and they get no new ones. -/
  frame (owner : Nat) : (∀ state ∈ tx, owner ≠ state.id) → ∀ key : String,
    shared'.rowLocks[key]? = some owner ↔ shared.rowLocks[key]? = some owner
  shared_inv : shared'.Inv
  inv : ∀ state' ∈ tx', state'.Inv shared'
  /-- An open transaction keeps its number; a new one gets the next. -/
  id : ∀ state' ∈ tx', (∃ state ∈ tx, state'.id = state.id) ∨ tx = none ∧ state'.id = n ∧ n < n'

omit [Platform] in
/-- Released locks are nobody else's. -/
theorem releaseLocks_frame (rowLocks : LockTable String Nat) (state : TransactionState)
    {owner : Nat} (hne : owner ≠ state.id) (key : String) :
    (releaseLocks rowLocks state)[key]? = some owner ↔ rowLocks[key]? = some owner :=
  LockTable.release_frame _ _ _ key owner hne

omit [Platform] in
/-- Releasing locks preserves the invariant of the shared state. -/
theorem SharedDatabase.Inv.release (hs : shared.Inv) (state : TransactionState) :
    SharedDatabase.Inv { shared with rowLocks := releaseLocks shared.rowLocks state } :=
  ⟨hs.coherent, hs.noTransaction, fun table rowId owner howner ↦
    hs.fresh table rowId owner (LockTable.getElem?_of_release howner)⟩

/-- What a merge that succeeds leaves. -/
theorem mergeCatalogs_spec {base staged merged : Catalog} {lockedRows : BTreeSet String}
    (h : MergeInput base staged lockedRows)
    (hok : mergeCatalogs base staged lockedRows = .ok merged) :
    merged.Coherent ∧
      (∀ name : String, staged.tables[name]? = none → merged.tables[name]? = base.tables[name]?) ∧
      ∀ (name : String) (t : Table), staged.tables[name]? = some t →
        ∃ target m, base.tables[name]? = some target ∧ merged.tables[name]? = some m ∧
          MergedFrom name target t lockedRows m := by
  by_cases hmergeable : Mergeable base staged lockedRows
  · obtain ⟨merged', hmerged, hspec⟩ := mergeCatalogs_ok h hmergeable
    obtain rfl := Except.ok.inj (hok.symm.trans hmerged)
    exact hspec
  · obtain ⟨error, herror⟩ := mergeCatalogs_error h hmergeable
    rw [hok] at herror
    cases herror

/-- A merge gives no row id back. -/
theorem mergeCatalogs_grows {base staged merged : Catalog} {lockedRows : BTreeSet String}
    (h : MergeInput base staged lockedRows)
    (hok : mergeCatalogs base staged lockedRows = .ok merged) :
    base.Grows merged := by
  obtain ⟨-, hkept, hnew⟩ := mergeCatalogs_spec h hok
  intro name target htarget
  cases hstaged : staged.tables[name]? with
  | none => exact ⟨target, (hkept name hstaged).trans htarget, le_refl _⟩
  | some t =>
    obtain ⟨target', m, htarget', hm, hfrom⟩ := hnew name t hstaged
    obtain rfl := Option.some.inj (htarget.symm.trans htarget')
    exact ⟨m, hm, hfrom.nextRowId ▸ le_refl _⟩

/-- **The rows of a merged catalog**: those the transaction has locked are staged, and the others
committed. -/
theorem version_mergeCatalogs {base staged merged : Catalog} {lockedRows : BTreeSet String}
    (h : MergeInput base staged lockedRows)
    (hok : mergeCatalogs base staged lockedRows = .ok merged)
    (hlocked : ∀ (table : String) (rowId : RowId), rowLockKey table rowId ∈ lockedRows →
      ∃ t, staged.tables[table]? = some t) (table : String) (rowId : RowId) :
    merged.version table rowId =
      if rowLockKey table rowId ∈ lockedRows then staged.version table rowId
      else base.version table rowId := by
  obtain ⟨-, hkept, hnew⟩ := mergeCatalogs_spec h hok
  rw [Catalog.version, Catalog.version, Catalog.version]
  cases hstaged : staged.tables[table]? with
  | none =>
    rw [hkept table hstaged, if_neg]
    intro hmem
    obtain ⟨t, ht⟩ := hlocked table rowId hmem
    rw [hstaged] at ht
    cases ht
  | some t =>
    obtain ⟨target, m, htarget, hm, hfrom⟩ := hnew table t hstaged
    rw [htarget, hm, Option.bind_some, Option.bind_some, Option.bind_some, hfrom.rows,
      getElem?_mergedRows]

/-- Executing a statement whose rows are locked preserves the invariant of the transaction. -/
theorem TransactionState.Inv.write {state : TransactionState} (h : state.Inv shared)
    (hs : shared.Inv) {statement : Statement} {options : TableRuntimeOptions}
    (hddl : statement.isDdl = false) (hcovered : Covered state statement options) :
    TransactionState.Inv shared { state with
      catalog := (executeStatementWithOptions state.catalog statement options).2 } := by
  have hchanges := @executeStatement_changes _ options state.catalog h.coherent statement
  refine ⟨executeStatement_coherent h.coherent statement, fun name t' ht' ↦ ?_, h.keys,
    fun table rowId hmem ↦ ?_, h.holds⟩
  · cases ht : state.catalog.tables[name]? with
    | none =>
      obtain ⟨htrue, -⟩ := hchanges.added name t' ht ht'
      rw [hddl] at htrue
      cases htrue
    | some t =>
      obtain ⟨t'', ht'', htable⟩ := hchanges.kept name t ht
      obtain rfl := Option.some.inj (ht'.symm.trans ht'')
      obtain ⟨target, htarget, hle⟩ := h.below name t ht
      refine ⟨target, htarget, ?_⟩
      -- an id used up now is that of a locked row, so it was used up before
      by_contra hlt
      have htouched := htable.new target.nextRowId hle (Nat.not_le.mp hlt)
      obtain ⟨target', htarget', hlt'⟩ := h.lt_of_mem hs (hcovered _ htouched)
      obtain rfl := Option.some.inj (htarget.symm.trans htarget')
      exact absurd hlt' (Nat.lt_irrefl _)
  · obtain ⟨t, ht⟩ := h.staged table rowId hmem
    obtain ⟨t', ht', -⟩ := hchanges.kept table t ht
    exact ⟨t', ht'⟩

/-- **Every effect is sound.** -/
theorem Effect.sound {phase : Option Phase} (h : Effect phase shared n tx shared' n' tx')
    (hs : shared.Inv) (hstate : ∀ state ∈ tx, state.Inv shared) :
    Sound shared n tx shared' n' tx' := by
  cases h with
  | quiet =>
    exact ⟨rfl, le_refl _, Catalog.Grows.refl _, fun _ _ _ ↦ Iff.rfl, hs, hstate,
      fun state hopen ↦ .inl ⟨state, hopen, rfl⟩⟩
  | begin =>
    refine ⟨rfl, Nat.le_succ n, Catalog.Grows.refl _, fun _ _ _ ↦ Iff.rfl, hs, ?_, ?_⟩
    · intro state hopen
      obtain rfl := Option.some.inj hopen
      refine ⟨hs.coherent, fun name t ht ↦ ⟨t, ht, le_refl _⟩, ?_, ?_, ?_⟩
      · exact fun key hkey ↦ absurd hkey Std.ExtTreeSet.not_mem_empty
      · exact fun table rowId hmem ↦ absurd hmem Std.ExtTreeSet.not_mem_empty
      · exact fun key hkey ↦ absurd hkey Std.ExtTreeSet.not_mem_empty
    · intro state hopen
      obtain rfl := Option.some.inj hopen
      exact .inr ⟨rfl, rfl, Nat.lt_succ_self n⟩
  | lock state statement =>
    have hlocking := locking_lockStatementRows hs (hstate state rfl) statement
    refine ⟨hlocking.options, le_refl _, hlocking.grows, fun owner hne key ↦ ?_,
      hlocking.shared_inv, ?_, ?_⟩
    · exact hlocking.frame key owner (hne state rfl)
    · intro state' hopen
      obtain rfl := Option.some.inj hopen
      exact hlocking.inv
    · intro state' hopen
      obtain rfl := Option.some.inj hopen
      exact .inl ⟨state, rfl, hlocking.id⟩
  | write state statement hphase hddl hcovered =>
    refine ⟨rfl, le_refl _, Catalog.Grows.refl _, fun _ _ _ ↦ Iff.rfl, hs, ?_, ?_⟩
    · intro state' hopen
      obtain rfl := Option.some.inj hopen
      exact (hstate state rfl).write hs hddl hcovered
    · intro state' hopen
      obtain rfl := Option.some.inj hopen
      exact .inl ⟨state, rfl, rfl⟩
  | release state =>
    exact ⟨rfl, le_refl _, Catalog.Grows.refl _, fun owner hne key ↦
      releaseLocks_frame _ state (hne state rfl) key, hs.release state, by simp, by simp⟩
  | publish state merged hmerged =>
    have hinput := (hstate state rfl).mergeInput hs
    have hgrows := mergeCatalogs_grows hinput hmerged
    refine ⟨rfl, le_refl _, hgrows, fun owner hne key ↦
      releaseLocks_frame _ state (hne state rfl) key, ?_, by simp, by simp⟩
    refine ⟨(mergeCatalogs_spec hinput hmerged).1, rfl, fun table rowId owner howner ↦ ?_⟩
    obtain ⟨t, ht, hlt⟩ := hs.fresh table rowId owner (LockTable.getElem?_of_release howner)
    obtain ⟨t', ht', hle⟩ := hgrows table t ht
    exact ⟨t', ht', Nat.lt_of_lt_of_le hlt hle⟩
  | leak state error hphase herror =>
    exact ⟨rfl, le_refl _, Catalog.Grows.refl _, fun _ _ _ ↦ Iff.rfl, hs, by simp, by simp⟩
  | direct statement hphase =>
    have hgrows := (@executeStatement_changes _ (tableRuntimeOptions shared.database.options) _
      hs.coherent statement).grows
    refine ⟨rfl, le_refl _, hgrows, fun _ _ _ ↦ Iff.rfl, ?_, by simp, by simp⟩
    refine ⟨executeStatement_coherent hs.coherent statement, hs.noTransaction,
      fun table rowId owner howner ↦ ?_⟩
    obtain ⟨t, ht, hlt⟩ := hs.fresh table rowId owner howner
    obtain ⟨t', ht', hle⟩ := hgrows table t ht
    exact ⟨t', ht', Nat.lt_of_lt_of_le hlt hle⟩

end Platform

end Fsql
