import Fsql.Pool.Effect

/-!
# The invariant of a pool

`ConnectionPool.step_cases` says of every step of the system that one connection had one of the
effects of `Effect`, and that the others stayed as they were.  From it and `Effect.sound` follows
the invariant of a pool (`ConnectionPool.inv_of_reachable`): the committed catalog is coherent, no
two open transactions have one number, and every transaction holds the locks it believes to hold.

The converse — every lock belongs to an open transaction that knows of it — needs that no merge
fails, because a transaction that cannot be merged ends without releasing its locks
(`ConnectionPool.accounted_of_reachable`).
-/

set_option autoImplicit false

namespace Fsql

/-- The connection that takes the step. -/
def PoolAction.connection : PoolAction → Nat
  | get c | drop c | call c _ _ | enter c _ | proceed c _ | finish c _ => c

namespace ConnectionPool

/-- The open transaction of a connection. -/
def transactionOf (pool : ConnectionPool) (c : Nat) : Option TransactionState :=
  pool.connections[c]?.bind (·.transaction)

/-- The phase of a connection. -/
def phaseOf (pool : ConnectionPool) (c : Nat) : Option Phase := pool.connections[c]?.map (·.phase)

/-- The options the tables are used with. -/
abbrev options (pool : ConnectionPool) : TableRuntimeOptions :=
  tableRuntimeOptions pool.shared.database.options

/-- The committed catalog. -/
abbrev committed (pool : ConnectionPool) : Catalog := pool.shared.database.catalog

theorem transactionOf_eq {pool : ConnectionPool} {c : Nat} {connection : Connection}
    (h : pool.connections[c]? = some connection) :
    pool.transactionOf c = connection.transaction := by
  rw [transactionOf, h, Option.bind_some]

theorem phaseOf_eq {pool : ConnectionPool} {c : Nat} {connection : Connection}
    (h : pool.connections[c]? = some connection) : pool.phaseOf c = some connection.phase := by
  rw [phaseOf, h, Option.map_some]

section Platform

variable [Platform] {pool pool' : ConnectionPool}

/-! ## Steps -/

/-- **What a step of a connection is**: an effect on the shared state and on the connection's own
transaction, and nothing else. -/
structure StepOf (pool : ConnectionPool) (c : Nat) (pool' : ConnectionPool) : Prop where
  effect : Effect (pool.phaseOf c) pool.shared pool.nextTransactionId (pool.transactionOf c)
    pool'.shared pool'.nextTransactionId (pool'.transactionOf c)
  /-- The other connections stay. -/
  others (c' : Nat) : c' ≠ c → pool'.connections[c']? = pool.connections[c']?
  /-- What the connection can rely on in its phase. -/
  phase (connection : Connection) : pool'.connections[c]? = some connection →
    PhaseOk pool.options connection.transaction connection.phase

/-- What the effect of a step needs to know of its connection. -/
structure Ready (pool : ConnectionPool) (c : Nat) : Prop where
  shared : pool.shared.Inv
  state : ∀ state ∈ pool.transactionOf c, state.Inv pool.shared
  phase (connection : Connection) : pool.connections[c]? = some connection →
    PhaseOk pool.options connection.transaction connection.phase

/-- A step that replaces the connection. -/
theorem stepOf_insert {c : Nat} {connection connection' : Connection} {shared : SharedDatabase}
    {n permits : Nat} (h : pool.connections[c]? = some connection)
    (heffect : Effect (some connection.phase) pool.shared pool.nextTransactionId
      connection.transaction shared n connection'.transaction)
    (hphase : PhaseOk pool.options connection'.transaction connection'.phase) :
    StepOf pool c { pool with
      shared, permits
      nextTransactionId := n
      connections := pool.connections.insert c connection' } := by
  have hnew : (pool.connections.insert c connection')[c]? = some connection' := by
    rw [BTree.getElem?_insert, if_pos rfl]
  refine ⟨?_, fun c' hne ↦ ?_, fun other hother ↦ ?_⟩
  · rw [transactionOf_eq h, phaseOf_eq h]
    have htx : transactionOf { pool with
        shared, permits
        nextTransactionId := n
        connections := pool.connections.insert c connection' } c = connection'.transaction :=
      transactionOf_eq hnew
    rw [htx]
    exact heffect
  · rw [BTree.getElem?_insert, if_neg (Ne.symm hne)]
  · obtain rfl := Option.some.inj (hnew.symm.trans hother)
    exact hphase

theorem get_stepOf {c : Nat} (h : pool.get c = some pool') : StepOf pool c pool' := by
  rw [get] at h
  split at h
  · cases h
  · rename_i hfree
    rw [not_or, Std.ExtTreeMap.mem_iff_isSome_getElem?, Option.not_isSome_iff_eq_none] at hfree
    cases h
    have hnew : (pool.connections.insert c {})[c]? = some {} := by
      rw [BTree.getElem?_insert, if_pos rfl]
    refine ⟨?_, fun c' hne ↦ ?_, fun connection hconnection ↦ ?_⟩
    · have hbefore : pool.transactionOf c = none := by rw [transactionOf, hfree.2]; rfl
      have hafter : transactionOf { pool with
          permits := pool.permits - 1
          connections := pool.connections.insert c {} } c = none := by
        rw [transactionOf_eq hnew]
      rw [hbefore, hafter]
      exact .quiet none
    · rw [BTree.getElem?_insert, if_neg (Ne.symm hne)]
    · obtain rfl := Option.some.inj (hnew.symm.trans hconnection)
      trivial

theorem drop_stepOf {c : Nat} (h : pool.drop c = some pool') : StepOf pool c pool' := by
  rw [drop] at h
  split at h
  · rename_i transaction statementCache cachePoisoned lastResult hconnection
    cases h
    have herased : (pool.connections.erase c)[c]? = none := by
      rw [BTree.getElem?_erase, if_pos rfl]
    refine ⟨?_, fun c' hne ↦ ?_, fun connection hnone ↦ ?_⟩
    · rw [transactionOf_eq hconnection]
      simp only [transactionOf, herased, Option.bind_none]
      cases transaction with
      | none => exact .quiet none
      | some state => exact .release state
    · rw [BTree.getElem?_erase, if_neg (Ne.symm hne)]
    · rw [herased] at hnone
      cases hnone
  · cases h

omit [Platform] in
theorem callConnection_transaction (connection : Connection) (sql : String) (log : LogOutcome) :
    (pool.callConnection connection sql log).transaction = connection.transaction := by
  rw [callConnection]
  split
  · rfl
  · simp only
    split
    · rfl
    · split <;> rfl

theorem callConnection_phase {connection : Connection} (hidle : connection.phase = .idle)
    (sql : String) (log : LogOutcome) (options : TableRuntimeOptions)
    (transaction : Option TransactionState) :
    PhaseOk options transaction (pool.callConnection connection sql log).phase := by
  have htrivial : PhaseOk options transaction connection.phase := by
    rw [hidle]
    trivial
  rw [callConnection]
  split
  · exact htrivial
  · simp only
    split
    · exact htrivial
    · split
      · exact htrivial
      · trivial

theorem call_stepOf {c : Nat} {sql : String} {log : LogOutcome}
    (h : pool.call c sql log = some pool') : StepOf pool c pool' := by
  rw [call] at h
  split at h
  · rename_i transaction statementCache cachePoisoned lastResult hconnection
    cases h
    refine stepOf_insert hconnection ?_ (callConnection_phase rfl sql log _ _)
    rw [callConnection_transaction]
    exact .quiet _
  · cases h

theorem enter_stepOf {c : Nat} {persist : Option Error} (hready : pool.Ready c)
    (h : pool.enter c persist = some pool') : StepOf pool c pool' := by
  rw [enter] at h
  split at h
  · rename_i connection hconnection
    split at h
    · rename_i statement hphase
      cases h
      have hstate := hready.state
      rw [transactionOf_eq hconnection] at hstate
      obtain ⟨heffect, hphase'⟩ := enterStatement_effect hready.shared statement persist hstate rfl
      exact stepOf_insert hconnection (hphase ▸ heffect) hphase'
    · cases h
  · cases h

theorem proceed_stepOf {c : Nat} {persist : Option Error} (hready : pool.Ready c)
    (h : pool.proceed c persist = some pool') : StepOf pool c pool' := by
  rw [proceed] at h
  split at h
  · rename_i connection hconnection
    split at h
    · rename_i phase shared transaction hproceed
      cases h
      obtain ⟨heffect, hphase⟩ := @proceedStatement_effect _ _ _ pool.nextTransactionId _ _
        hready.shared _ _ persist (hready.phase connection hconnection) hproceed
      exact stepOf_insert hconnection heffect hphase
    · cases h
  · cases h

theorem finish_stepOf {c : Nat} {log : LogOutcome} (h : pool.finish c log = some pool') :
    StepOf pool c pool' := by
  rw [finish] at h
  split at h
  · rename_i connection hconnection
    split at h
    · cases h
      exact stepOf_insert hconnection (.quiet _) trivial
    · cases h
  · cases h

/-- **Every step is an effect of its connection.** -/
theorem step_cases {action : PoolAction} (hready : pool.Ready action.connection)
    (h : pool.step action = some pool') : StepOf pool action.connection pool' := by
  cases action with
  | get c => exact get_stepOf h
  | drop c => exact drop_stepOf h
  | call c sql log => exact call_stepOf h
  | enter c persist => exact enter_stepOf hready h
  | proceed c persist => exact proceed_stepOf hready h
  | finish c log => exact finish_stepOf h

/-! ## The invariant -/

/-- **The invariant of a pool.** -/
structure Inv (pool : ConnectionPool) : Prop where
  shared : pool.shared.Inv
  states (c : Nat) (state : TransactionState) : pool.transactionOf c = some state →
    state.Inv pool.shared
  /-- Numbers of transactions are below the next one. -/
  id_lt (c : Nat) (state : TransactionState) : pool.transactionOf c = some state →
    state.id < pool.nextTransactionId
  /-- No two open transactions have one number. -/
  id_inj (c c' : Nat) (state state' : TransactionState) : pool.transactionOf c = some state →
    pool.transactionOf c' = some state' → state.id = state'.id → c = c'
  phases (c : Nat) (connection : Connection) : pool.connections[c]? = some connection →
    PhaseOk pool.options connection.transaction connection.phase

theorem Inv.ready (h : pool.Inv) (c : Nat) : pool.Ready c :=
  ⟨h.shared, fun state hopen ↦ h.states c state hopen, h.phases c⟩

/-- An open transaction of another connection has another number. -/
theorem Inv.id_ne (h : pool.Inv) {c c' : Nat} (hne : c' ≠ c) {state state' : TransactionState}
    (hopen : pool.transactionOf c = some state) (hopen' : pool.transactionOf c' = some state') :
    state'.id ≠ state.id :=
  fun heq ↦ hne (h.id_inj c' c state' state hopen' hopen heq)

/-- The effect of a step is sound. -/
theorem StepOf.sound {c : Nat} (hinv : pool.Inv) (h : StepOf pool c pool') :
    Sound pool.shared pool.nextTransactionId (pool.transactionOf c) pool'.shared
      pool'.nextTransactionId (pool'.transactionOf c) :=
  h.effect.sound hinv.shared (hinv.ready c).state

/-- The transactions of the other connections stay. -/
theorem StepOf.transactionOf_ne {c c' : Nat} (h : StepOf pool c pool') (hne : c' ≠ c) :
    pool'.transactionOf c' = pool.transactionOf c' := by
  rw [transactionOf, transactionOf, h.others c' hne]

/-- **A step preserves the invariant.** -/
theorem StepOf.inv {c : Nat} (hinv : pool.Inv) (h : StepOf pool c pool') : pool'.Inv := by
  have hsound := h.sound hinv
  -- the number of the connection's transaction is not that of another
  have hother {c' : Nat} (hne : c' ≠ c) {state' : TransactionState}
      (hopen' : pool'.transactionOf c' = some state') :
      (∀ state ∈ pool.transactionOf c, state'.id ≠ state.id) ∧
        state'.id < pool.nextTransactionId ∧ state'.Inv pool.shared := by
    rw [h.transactionOf_ne hne] at hopen'
    exact ⟨fun state hopen ↦ hinv.id_ne hne hopen hopen', hinv.id_lt c' state' hopen',
      hinv.states c' state' hopen'⟩
  have hid {c' : Nat} (hne : c' ≠ c) {state state' : TransactionState}
      (hopen : pool'.transactionOf c = some state) (hopen' : pool'.transactionOf c' = some state') :
      state.id ≠ state'.id := by
    intro heq
    obtain ⟨hdistinct, hlt, -⟩ := hother hne hopen'
    rcases hsound.id state hopen with ⟨before, hbefore, hsame⟩ | ⟨-, hnew, -⟩
    · exact hdistinct before hbefore (heq.symm.trans hsame)
    · omega
  refine ⟨hsound.shared_inv, fun c' state' hopen' ↦ ?_, fun c' state' hopen' ↦ ?_, ?_, ?_⟩
  · by_cases hne : c' = c
    · subst hne
      exact hsound.inv state' hopen'
    · obtain ⟨hdistinct, -, hstate⟩ := hother hne hopen'
      exact hstate.advance hsound.grows fun key hkey ↦
        (hsound.frame state'.id hdistinct key).mpr (hstate.holds key hkey)
  · by_cases hne : c' = c
    · subst hne
      rcases hsound.id state' hopen' with ⟨before, hbefore, hsame⟩ | ⟨-, hnew, hlt⟩
      · have := hinv.id_lt c' before hbefore
        have := hsound.le
        omega
      · omega
    · have := (hother hne hopen').2.1
      have := hsound.le
      omega
  · intro c₁ c₂ state₁ state₂ hopen₁ hopen₂ heq
    by_cases hne₁ : c₁ = c
    · subst hne₁
      by_contra hne
      exact hid (Ne.symm hne) hopen₁ hopen₂ heq
    · by_cases hne₂ : c₂ = c
      · subst hne₂
        exact absurd heq.symm (hid hne₁ hopen₂ hopen₁)
      · rw [h.transactionOf_ne hne₁] at hopen₁
        rw [h.transactionOf_ne hne₂] at hopen₂
        exact hinv.id_inj c₁ c₂ state₁ state₂ hopen₁ hopen₂ heq
  · intro c' connection hconnection
    have hoptions : pool'.options = pool.options := by
      rw [options, hsound.options]
    rw [hoptions]
    by_cases hne : c' = c
    · subst hne
      exact h.phase connection hconnection
    · rw [h.others c' hne] at hconnection
      exact hinv.phases c' connection hconnection

/-- The initial states satisfy the invariant. -/
theorem inv_of_init (h : machine.init pool) : pool.Inv := by
  obtain ⟨database, maxConnections, hcoherent, hnone, hpool⟩ := h
  rw [fromDatabase] at hpool
  split at hpool
  · cases hpool
  · cases hpool
    refine ⟨⟨hcoherent, hnone, by simp⟩, ?_, ?_, ?_, ?_⟩ <;> simp [transactionOf]

/-- **Every reachable state satisfies the invariant.** -/
theorem inv_of_reachableVia {C : ConnectionPool → PoolAction → Prop}
    (h : machine.ReachableVia C pool) : pool.Inv :=
  h.invariant (I := Inv) (fun _ hinit ↦ inv_of_init hinit)
    fun _ action _ _ hinv _ hstep ↦ (step_cases (hinv.ready action.connection) hstep).inv hinv

/-! ## Every lock belongs to an open transaction -/

/-- The locks after an effect are those of other transactions, or of the connection's own, which
knows of them — unless the effect is a failed merge. -/
theorem effect_locks {phase : Option Phase} {shared shared' : SharedDatabase} {n n' : Nat}
    {tx tx' : Option TransactionState} (h : Effect phase shared n tx shared' n' tx')
    (hs : shared.Inv) (hstate : ∀ state ∈ tx, state.Inv shared)
    (hmergeable : phase = some (.called .commit) → ∀ state ∈ tx,
      Mergeable shared.database.catalog state.catalog state.lockedRows)
    (hall : ∀ state ∈ tx, ∀ key : String, shared.rowLocks[key]? = some state.id →
      key ∈ state.lockedRows) {key : String} {owner : Nat}
    (howner : shared'.rowLocks[key]? = some owner) :
    (shared.rowLocks[key]? = some owner ∧ ∀ state ∈ tx, owner ≠ state.id) ∨
      ∃ state ∈ tx', state.id = owner ∧ key ∈ state.lockedRows := by
  -- with the locks unchanged, the transaction's own are those it had
  have hsame (hlocks : shared'.rowLocks = shared.rowLocks)
      (hkept : ∀ state ∈ tx, ∃ state' ∈ tx', state'.id = state.id ∧
        state'.lockedRows = state.lockedRows) :
      (shared.rowLocks[key]? = some owner ∧ ∀ state ∈ tx, owner ≠ state.id) ∨
        ∃ state ∈ tx', state.id = owner ∧ key ∈ state.lockedRows := by
    rw [hlocks] at howner
    by_cases hown : ∃ state ∈ tx, owner = state.id
    · obtain ⟨state, hopen, rfl⟩ := hown
      obtain ⟨state', hopen', hid, hlocked⟩ := hkept state hopen
      exact .inr ⟨state', hopen', hid, hlocked ▸ hall state hopen key howner⟩
    · exact .inl ⟨howner, fun state hopen heq ↦ hown ⟨state, hopen, heq⟩⟩
  -- after a release, nothing of the transaction is left
  have hreleased {state : TransactionState} (htx : tx = some state)
      (hlocks : shared'.rowLocks = releaseLocks shared.rowLocks state) :
      shared.rowLocks[key]? = some owner ∧ ∀ state ∈ tx, owner ≠ state.id := by
    rw [hlocks] at howner
    refine ⟨LockTable.getElem?_of_release howner, fun state' hopen heq ↦ ?_⟩
    subst htx heq
    obtain rfl := Option.some.inj hopen
    refine LockTable.getElem?_release_ne (fun key hkey ↦ ?_) key howner
    exact Std.ExtTreeSet.mem_toList.mpr (hall state rfl key hkey)
  cases h with
  | quiet => exact hsame rfl fun state hopen ↦ ⟨state, hopen, rfl, rfl⟩
  | begin => exact hsame rfl (by simp)
  | write state statement hphase hddl hcovered =>
    refine hsame rfl fun state' hopen ↦ ⟨_, rfl, ?_⟩
    obtain rfl := Option.some.inj hopen
    exact ⟨rfl, rfl⟩
  | direct statement hphase => exact hsame rfl (by simp)
  | release state => exact .inl (hreleased rfl rfl)
  | publish state merged hmerged => exact .inl (hreleased rfl rfl)
  | leak state error hphase herror =>
    obtain ⟨merged, hmerged, -⟩ := mergeCatalogs_ok ((hstate state rfl).mergeInput hs)
      (hmergeable hphase state rfl)
    rw [hmerged] at herror
    cases herror
  | lock state statement =>
    have hlocking := locking_lockStatementRows hs (hstate state rfl) statement
    by_cases hown : owner = state.id
    · subst hown
      exact .inr ⟨_, rfl, hlocking.id, hlocking.account (hall state rfl) key howner⟩
    · refine .inl ⟨(hlocking.frame key owner hown).mp howner, fun state' hopen ↦ ?_⟩
      obtain rfl := Option.some.inj hopen
      exact hown

/-- **Every lock is held by an open transaction that knows of it.** -/
def Accounted (pool : ConnectionPool) : Prop :=
  ∀ (key : String) (owner : Nat), pool.shared.rowLocks[key]? = some owner →
    ∃ c state, pool.transactionOf c = some state ∧ state.id = owner ∧ key ∈ state.lockedRows

/-- If the step is the `COMMIT` of a transaction, it can be merged. -/
def CommitMergeable (pool : ConnectionPool) (action : PoolAction) : Prop :=
  pool.phaseOf action.connection = some (.called .commit) →
    ∀ state ∈ pool.transactionOf action.connection,
      Mergeable pool.committed state.catalog state.lockedRows

/-- A transaction knows of all its locks. -/
theorem Accounted.mem (h : pool.Accounted) (hinv : pool.Inv) {c : Nat} {state : TransactionState}
    (hopen : pool.transactionOf c = some state) {key : String}
    (hkey : pool.shared.rowLocks[key]? = some state.id) : key ∈ state.lockedRows := by
  obtain ⟨c', state', hopen', hid, hmem⟩ := h key state.id hkey
  obtain rfl := hinv.id_inj c' c state' state hopen' hopen hid
  obtain rfl := Option.some.inj (hopen.symm.trans hopen')
  exact hmem

/-- A step whose merge does not fail leaves every lock with an open transaction. -/
theorem StepOf.accounted {action : PoolAction} (hinv : pool.Inv)
    (h : StepOf pool action.connection pool') (hmergeable : pool.CommitMergeable action)
    (haccounted : pool.Accounted) : pool'.Accounted := by
  intro key owner howner
  rcases effect_locks h.effect hinv.shared (hinv.ready _).state hmergeable
    (fun state hopen key ↦ haccounted.mem hinv hopen) howner with ⟨hold, hforeign⟩ | hown
  · obtain ⟨c, state, hopen, hid, hmem⟩ := haccounted key owner hold
    have hne : c ≠ action.connection := by
      rintro rfl
      exact hforeign state hopen hid.symm
    exact ⟨c, state, (h.transactionOf_ne hne).trans hopen, hid, hmem⟩
  · obtain ⟨state, hopen, hid, hmem⟩ := hown
    exact ⟨action.connection, state, hopen, hid, hmem⟩

/-- When all locks are accounted for, a transaction that ends leaves none. -/
theorem StepOf.not_locked {c : Nat} (hinv : pool.Inv) (h : StepOf pool c pool')
    (haccounted : pool'.Accounted) {state : TransactionState}
    (hopen : pool.transactionOf c = some state) (hclosed : pool'.transactionOf c = none)
    (key : String) : pool'.shared.rowLocks[key]? ≠ some state.id := by
  intro hkey
  obtain ⟨c', state', hopen', hid, -⟩ := haccounted key state.id hkey
  have hne : c' ≠ c := by
    rintro rfl
    rw [hclosed] at hopen'
    cases hopen'
  rw [h.transactionOf_ne hne] at hopen'
  exact hinv.id_ne hne hopen hopen' hid

/-! ## Commits -/

/-- What the first critical section of a statement does. -/
theorem enter_called {c : Nat} {persist : Option Error} {statement : Statement}
    (hphase : pool.phaseOf c = some (.called statement))
    (h : pool.step (.enter c persist) = some pool') :
    pool'.shared = (enterStatement pool.shared pool.nextTransactionId (pool.transactionOf c)
        statement persist).2.1 ∧
      pool'.transactionOf c = (enterStatement pool.shared pool.nextTransactionId
        (pool.transactionOf c) statement persist).2.2.2 ∧
      pool'.phaseOf c = some (enterStatement pool.shared pool.nextTransactionId
        (pool.transactionOf c) statement persist).1 := by
  obtain ⟨connection, hconnection, hconnectionPhase⟩ := Option.map_eq_some_iff.mp hphase
  rw [step, enter, hconnection] at h
  simp only [hconnectionPhase, Option.some.injEq] at h
  subst h
  rw [transactionOf_eq hconnection]
  have hnew (connection' : Connection) :
      (pool.connections.insert c connection')[c]? = some connection' := by
    rw [BTree.getElem?_insert, if_pos rfl]
  refine ⟨rfl, ?_, ?_⟩
  · rw [transactionOf, hnew, Option.bind_some]
  · rw [phaseOf, hnew, Option.map_some]

/-- What the first critical section of a `COMMIT` does. -/
theorem enter_commit {c : Nat} {persist : Option Error}
    (hphase : pool.phaseOf c = some (.called .commit))
    (h : pool.step (.enter c persist) = some pool') :
    pool'.shared = (commitTransaction pool.shared (pool.transactionOf c) persist).2.1 ∧
      pool'.transactionOf c = (commitTransaction pool.shared (pool.transactionOf c) persist).2.2 ∧
      pool'.phaseOf c = some (.returned .commit
        (commitTransaction pool.shared (pool.transactionOf c) persist).1) :=
  enter_called hphase h

/-- **A `COMMIT` that cannot be merged leaves locks behind.** -/
theorem not_accounted_of_not_mergeable (hinv : pool.Inv) {c : Nat} {persist : Option Error}
    {state : TransactionState} (hphase : pool.phaseOf c = some (.called .commit))
    (hopen : pool.transactionOf c = some state)
    (h : pool.step (.enter c persist) = some pool')
    (hmergeable : ¬Mergeable pool.committed state.catalog state.lockedRows) :
    ¬pool'.Accounted := by
  intro haccounted
  have hstate := hinv.states c state hopen
  obtain ⟨error, herror⟩ := mergeCatalogs_error (hstate.mergeInput hinv.shared) hmergeable
  have hstep : StepOf pool c pool' := @step_cases _ _ _ (.enter c persist) (hinv.ready c) h
  obtain ⟨hshared, hclosed, -⟩ := enter_commit hphase h
  simp only [hopen, commitTransaction, herror] at hshared hclosed
  -- a transaction without locks can be merged
  have hlocked : ∃ key, key ∈ state.lockedRows := by
    by_contra hnone
    rw [not_exists] at hnone
    refine hmergeable fun p hp target htarget ↦ ⟨fun key hkey ↦ ?_, ?_⟩
    · exact absurd (Std.ExtTreeSet.mem_toList.mp hkey) (hnone key)
    · have hrows : mergedRows p.1 target p.2 state.lockedRows = target.rows := by
        refine Std.ExtTreeMap.ext_getElem? fun rowId ↦ ?_
        rw [getElem?_mergedRows, if_neg (hnone _)]
      rw [hrows]
      exact (hinv.shared.coherent p.1 target htarget).keys
  obtain ⟨key, hkey⟩ := hlocked
  refine hstep.not_locked hinv haccounted hopen hclosed key ?_
  rw [hshared]
  exact hstate.holds key hkey

/-- **No lock outlives its transaction** in a run without failed merges: every lock belongs to an
open transaction, and one that ends leaves none behind.  The next `COMMIT` keeps it so exactly if
it can be merged. -/
theorem accounted_of_reachable (h : machine.ReachableVia CommitMergeable pool) :
    pool.Accounted ∧
      (∀ action pool', pool.CommitMergeable action → pool.step action = some pool' →
        ∀ state, pool.transactionOf action.connection = some state →
          pool'.transactionOf action.connection = none →
            ∀ key : String, pool'.shared.rowLocks[key]? ≠ some state.id) ∧
      ∀ c persist pool' state, pool.phaseOf c = some (.called .commit) →
        pool.transactionOf c = some state → pool.step (.enter c persist) = some pool' →
          (pool'.Accounted ↔ Mergeable pool.committed state.catalog state.lockedRows) := by
  have haccounted : pool.Accounted := by
    refine h.invariant (I := Accounted) (fun pool hinit ↦ ?_) ?_
    · obtain ⟨database, maxConnections, -, -, hpool⟩ := hinit
      rw [fromDatabase] at hpool
      split at hpool
      · cases hpool
      · cases hpool
        exact fun key owner howner ↦ by simp at howner
    · intro pool action pool' hreachable haccounted hmergeable hstep
      have hinv := inv_of_reachableVia hreachable
      exact (step_cases (hinv.ready _) hstep).accounted hinv hmergeable haccounted
  have hinv := inv_of_reachableVia h
  refine ⟨haccounted, fun action pool' hmergeable hstep state hopen hclosed key ↦ ?_, ?_⟩
  · have hstepOf := step_cases (hinv.ready _) hstep
    exact hstepOf.not_locked hinv (hstepOf.accounted hinv hmergeable haccounted) hopen hclosed key
  · intro c persist pool' state hphase hopen hstep
    constructor
    · intro haccounted'
      by_contra hmergeable
      exact not_accounted_of_not_mergeable hinv hphase hopen hstep hmergeable haccounted'
    · intro hmergeable
      have hstepOf : StepOf pool c pool' :=
        @step_cases _ _ _ (.enter c persist) (hinv.ready c) hstep
      refine @StepOf.accounted _ _ _ (.enter c persist) hinv hstepOf ?_ haccounted
      intro _ state' hopen'
      obtain rfl := Option.some.inj (hopen.symm.trans hopen')
      exact hmergeable

end Platform

/-! ## Concrete runs -/

/-- The phase in which a connection is about to commit. -/
def isCommit : Option Phase → Bool
  | some (.called .commit) => true
  | _ => false

theorem isCommit_iff (phase : Option Phase) :
    isCommit phase = true ↔ phase = some (.called .commit) := by
  constructor
  · intro h
    unfold isCommit at h
    split at h
    · rfl
    · cases h
  · rintro rfl
    rfl

instance decidableCommitMergeable (pool : ConnectionPool) (action : PoolAction) :
    Decidable (pool.CommitMergeable action) :=
  decidable_of_iff (isCommit (pool.phaseOf action.connection) = true →
      ∀ state ∈ pool.transactionOf action.connection,
        Mergeable pool.committed state.catalog state.lockedRows)
    (by rw [isCommit_iff, CommitMergeable])

/-- `ConnectionPool::memory`. -/
def memory (maxConnections : Nat) : ConnectionPool :=
  ⟨⟨⟨none, .empty, none, {}, ∅⟩, ∅⟩, maxConnections, maxConnections, 1, ∅⟩

theorem init_memory {maxConnections : Nat} (h : maxConnections ≠ 0) :
    (@machine Platform.ascii).init (memory maxConnections) :=
  ⟨_, _, Catalog.all_empty _, rfl, by rw [fromDatabase, if_neg h]; rfl⟩

/-- A call with one critical section. -/
def short (c : Nat) (sql : String) : List PoolAction :=
  [.call c sql {}, .enter c none, .finish c {}]

/-- A call with two critical sections. -/
def long (c : Nat) (sql : String) : List PoolAction :=
  [.call c sql {}, .enter c none, .proceed c none, .finish c {}]

/-- The state after the actions of a list have been taken in a pool of two connections. -/
def afterActions (actions : List PoolAction) : ConnectionPool :=
  ((@machine Platform.ascii).runFrom (memory 2) actions).getD (memory 2)

theorem reachableVia_afterActions {C : ConnectionPool → PoolAction → Prop}
    (actions : List PoolAction)
    (hC : (@machine Platform.ascii).StepsSatisfy C (memory 2) actions) :
    (@machine Platform.ascii).ReachableVia C (afterActions actions) := by
  have hinit : (@machine Platform.ascii).ReachableVia C (memory 2) :=
    .init (init_memory (by decide))
  rw [afterActions]
  cases hrun : (@machine Platform.ascii).runFrom (memory 2) actions with
  | none => exact hinit
  | some pool => exact Machine.reachableVia_of_runFrom hinit hC hrun

/-- After an insertion has been committed, and another is under way. -/
theorem accounted_afterActions :
    (afterActions (.get 0 :: long 0 "CREATE TABLE t (a INT PRIMARY KEY)"
    ++ short 0 "BEGIN" ++ long 0 "INSERT INTO t VALUES (1)" ++ short 0 "COMMIT"
    ++ short 0 "BEGIN" ++ long 0 "INSERT INTO t VALUES (2)")).Accounted :=
  (@accounted_of_reachable Platform.ascii _ (reachableVia_afterActions _ (by decide +kernel))).1

/-- Two transactions insert one primary key, the second after the first has committed. -/
def duplicateInsert : List PoolAction :=
  .get 0 :: .get 1 :: long 0 "CREATE TABLE t (a INT PRIMARY KEY)" ++ short 0 "BEGIN"
    ++ short 1 "BEGIN" ++ long 0 "INSERT INTO t VALUES (1)" ++ short 0 "COMMIT"
    ++ long 1 "INSERT INTO t VALUES (1)" ++ short 1 "COMMIT"

/-- **A lock can outlive its transaction**: the second of two transactions that insert one primary
key cannot be merged. -/
theorem not_accounted_of_reachable :
    ¬∀ [Platform] (pool : ConnectionPool), machine.Reachable pool → pool.Accounted := by
  intro h
  have hreachable : (@machine Platform.ascii).Reachable (afterActions duplicateInsert) :=
    reachableVia_afterActions _ (Machine.stepsSatisfy_true _ _)
  have haccounted := @h Platform.ascii _ hreachable
  -- the row lock is there, and no transaction is open
  have hstate : (afterActions duplicateInsert).shared.rowLocks["row:t:2"]? = some 2 ∧
      ∀ p ∈ (afterActions duplicateInsert).connections.toList,
        p.2.transaction.isNone = true := by decide +kernel
  obtain ⟨c, state, hopen, -, -⟩ := haccounted _ _ hstate.1
  obtain ⟨connection, hconnection, htransaction⟩ := Option.bind_eq_some_iff.mp hopen
  have hnone := hstate.2 (c, connection) ((DerivedIndex.mem_toList_iff _ _ _).mpr hconnection)
  rw [htransaction] at hnone
  cases hnone

end ConnectionPool

end Fsql
