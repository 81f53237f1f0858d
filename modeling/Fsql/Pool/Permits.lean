import Fsql.Pool.RowLocks

/-!
# Permits and a poisoned database

`get` and `try_get` take a permit under the mutex of the permits and then, still holding it, look at
the database, whose mutex may be poisoned: a thread has panicked while it had it locked.  The
destructor of a connection returns the permit under the mutex of the permits, after it has tried to
release the row locks.  `PoisonablePool.machine` has these steps, in all interleavings with the
statements of the connections.

A permit that has been taken is not given back when the database turns out to be poisoned.
`permits_conserved_iff` says that this is the only way to lose one: the permits and the connections
add up to the size of the pool exactly if no `get` or `try_get` has failed.
-/

set_option autoImplicit false

namespace Fsql

open Std (ExtTreeMap ExtTreeSet LawfulEqCmp)

/-- `PoolInner` with the states of its mutexes. -/
structure PoisonablePool where
  /-- What is guarded. -/
  pool : ConnectionPool
  /-- The mutex of the database is poisoned. -/
  poisoned : Bool := false
  /-- The connection that is being made by the thread that holds the mutex of the permits; that has
  taken a permit. -/
  taker : Option Nat := none
  /-- `Connection::released`: the connections whose destructor is running. -/
  released : BTreeSet Nat := ∅

/-- A step of one thread. -/
inductive PermitAction
  /-- `get` takes a permit. -/
  | get (connection : Nat)
  /-- `try_get` takes a permit, if there is one. -/
  | tryGet (connection : Nat)
  /-- `get` or `try_get` looks at the database and returns. -/
  | connect
  /-- The destructor of a connection releases its row locks. -/
  | drop (connection : Nat)
  /-- The destructor returns the permit. -/
  | giveBack (connection : Nat)
  /-- A thread panics that has the database locked. -/
  | poison
  /-- A step of a statement. -/
  | run (action : PoolAction)
  /-- A call that finds the database poisoned returns. -/
  | fail (connection : Nat)

namespace PoisonablePool

/-- What `lock_shared` reports. -/
def poisonedError : Error := execution "database lock poisoned"

/-- A permit is taken, and the mutex of the permits is kept. -/
def takePermit (s : PoisonablePool) (c : Nat) : PoisonablePool :=
  { s with pool := { s.pool with permits := s.pool.permits - 1 }, taker := some c }

/-- The first part of `ConnectionPool::get`, which waits while there is no permit. -/
def get (s : PoisonablePool) (c : Nat) : Option PoisonablePool :=
  if s.taker.isSome ∨ c ∈ s.pool.connections ∨ s.pool.permits = 0 then none
  else some (s.takePermit c)

/-- The first part of `ConnectionPool::try_get`, which returns when there is no permit. -/
def tryGet (s : PoisonablePool) (c : Nat) : Option PoisonablePool :=
  if s.taker.isSome ∨ c ∈ s.pool.connections then none
  else if s.pool.permits = 0 then some s
  else some (s.takePermit c)

/-- The second part of both, and what they return. -/
def connect (s : PoisonablePool) : Option (Result Unit × PoisonablePool) :=
  match s.taker with
  | none => none
  | some c =>
    if s.poisoned then some (.error poisonedError, { s with taker := none })
    else some (.ok (), { s with
      pool := { s.pool with connections := s.pool.connections.insert c {} }
      taker := none })

/-- The first part of `Drop for Connection`. -/
def drop (s : PoisonablePool) (c : Nat) : Option PoisonablePool :=
  match s.pool.connections[c]? with
  | some ⟨transaction, statementCache, cachePoisoned, .idle, lastResult⟩ =>
    if c ∈ s.released then none
    else some { s with
      pool := { s.pool with
        shared := { s.pool.shared with
          rowLocks := match transaction with
            | some state =>
              if s.poisoned then s.pool.shared.rowLocks
              else releaseLocks s.pool.shared.rowLocks state
            | none => s.pool.shared.rowLocks }
        connections := s.pool.connections.insert c
          ⟨none, statementCache, cachePoisoned, .idle, lastResult⟩ }
      released := s.released.insert c }
  | _ => none

/-- The second part of `Drop for Connection`. -/
def giveBack (s : PoisonablePool) (c : Nat) : Option PoisonablePool :=
  if s.taker.isSome ∨ c ∉ s.released then none
  else some { s with
    pool := { s.pool with
      permits := s.pool.permits + 1
      connections := s.pool.connections.erase c }
    released := s.released.erase c }

/-- The step of a statement does not lock the database: it executes a statement on the working
catalog of its transaction. -/
def withoutLock (pool : ConnectionPool) : PoolAction → Bool
  | .proceed c _ =>
    match pool.phaseOf c with
    | some (.locked _) => true
    | _ => false
  | _ => false

section Platform

variable [Platform]

/-- A step of a statement. -/
def run (s : PoisonablePool) (action : PoolAction) : Option PoisonablePool :=
  match action with
  | .get _ | .drop _ => none
  | action =>
    if action.connection ∈ s.released ∨ s.poisoned ∧ ¬withoutLock s.pool action then none
    else (s.pool.step action).map fun pool ↦ { s with pool }

end Platform

/-- A call that finds the database poisoned returns.  `COMMIT` and `ROLLBACK` have then taken the
transaction out of the connection. -/
def fail (s : PoisonablePool) (c : Nat) : Option PoisonablePool :=
  match s.pool.connections[c]? with
  | none => none
  | some connection =>
    if s.poisoned = false ∨ c ∈ s.released then none
    else
      match connection.phase with
      | .locked _ => none
      | phase => some { s with
        pool := { s.pool with
          connections := s.pool.connections.insert c { connection with
            transaction := match phase with
              | .called .commit | .called .rollback => none
              | _ => connection.transaction
            phase := .idle
            lastResult := some (.error (.error poisonedError)) } } }

section Platform

variable [Platform]

/-- One step of one thread. -/
def step (s : PoisonablePool) : PermitAction → Option PoisonablePool
  | .get c => s.get c
  | .tryGet c => s.tryGet c
  | .connect => s.connect.map Prod.snd
  | .drop c => s.drop c
  | .giveBack c => s.giveBack c
  | .poison => some { s with poisoned := true }
  | .run action => s.run action
  | .fail c => s.fail c

/-- **The runs of a pool whose database may become poisoned.** -/
def machine : Machine PoisonablePool PermitAction where
  init s := ConnectionPool.machine.init s.pool ∧ s = { pool := s.pool }
  step := step

end Platform

end PoisonablePool

/-! ## Steps of statements -/

namespace ConnectionPool

variable {pool pool' : ConnectionPool} {c : Nat}

/-- **A step of a statement** replaces its connection, and leaves the permits alone. -/
def Replaces (pool : ConnectionPool) (c : Nat) (pool' : ConnectionPool) : Prop :=
  c ∈ pool.connections ∧ ∃ connection shared n, pool' = { pool with
    shared
    nextTransactionId := n
    connections := pool.connections.insert c connection }

section Platform

variable [Platform]

omit [Platform] in
theorem call_replaces {sql : String} {log : LogOutcome} (h : pool.call c sql log = some pool') :
    pool.Replaces c pool' := by
  rw [call] at h
  split at h
  · rename_i hconnection
    obtain rfl := Option.some.inj h
    exact ⟨(BTree.mem_iff_exists _ _).mpr ⟨_, hconnection⟩, _, _, _, rfl⟩
  · cases h

theorem enter_replaces {persist : Option Error} (h : pool.enter c persist = some pool') :
    pool.Replaces c pool' := by
  rw [enter] at h
  split at h
  · rename_i connection hconnection
    split at h
    · obtain rfl := Option.some.inj h
      exact ⟨(BTree.mem_iff_exists _ _).mpr ⟨_, hconnection⟩, _, _, _, rfl⟩
    · cases h
  · cases h

theorem proceed_replaces {persist : Option Error} (h : pool.proceed c persist = some pool') :
    pool.Replaces c pool' := by
  rw [proceed] at h
  split at h
  · rename_i connection hconnection
    split at h
    · obtain rfl := Option.some.inj h
      exact ⟨(BTree.mem_iff_exists _ _).mpr ⟨_, hconnection⟩, _, _, _, rfl⟩
    · cases h
  · cases h

omit [Platform] in
theorem finish_replaces {log : LogOutcome} (h : pool.finish c log = some pool') :
    pool.Replaces c pool' := by
  rw [finish] at h
  split at h
  · rename_i connection hconnection
    split at h
    · obtain rfl := Option.some.inj h
      exact ⟨(BTree.mem_iff_exists _ _).mpr ⟨_, hconnection⟩, _, _, _, rfl⟩
    · cases h
  · cases h

theorem step_replaces {action : PoolAction} (hget : ∀ c, action = .get c → False)
    (hdrop : ∀ c, action = .drop c → False) (h : pool.step action = some pool') :
    ∃ c, pool.Replaces c pool' := by
  cases action with
  | get c => exact (hget c rfl).elim
  | drop c => exact (hdrop c rfl).elim
  | call c sql log => exact ⟨c, call_replaces h⟩
  | enter c persist => exact ⟨c, enter_replaces h⟩
  | proceed c persist => exact ⟨c, proceed_replaces h⟩
  | finish c log => exact ⟨c, finish_replaces h⟩

end Platform

end ConnectionPool

namespace PoisonablePool

/-! ## Without poison -/

/-- **`get` is one step of the pool** if the database is not poisoned. -/
theorem connect_get {s s' : PoisonablePool} {c : Nat} (h : s.get c = some s')
    (hpoisoned : s.poisoned = false) :
    ∃ pool, s.pool.get c = some pool ∧
      s'.connect = some (.ok (), { s with pool, taker := none }) := by
  rw [get] at h
  split at h
  · cases h
  · rename_i hfree
    obtain rfl := Option.some.inj h
    rw [not_or, not_or] at hfree
    refine ⟨_, if_neg (not_or.mpr ⟨hfree.2.2, hfree.2.1⟩), ?_⟩
    simp [connect, takePermit, hpoisoned]

/-- **The destructor is one step of the pool** if the database is not poisoned. -/
theorem giveBack_drop {s s' : PoisonablePool} {c : Nat} (h : s.drop c = some s')
    (hpoisoned : s.poisoned = false) (htaker : s.taker = none) :
    ∃ pool, s.pool.drop c = some pool ∧ s'.giveBack c = some { s with pool } := by
  rw [drop] at h
  split at h
  · rename_i transaction statementCache cachePoisoned lastResult hconnection
    split at h
    · cases h
    · rename_i hlive
      obtain rfl := Option.some.inj h
      have hconnections (connection : Connection) :
          (s.pool.connections.insert c connection).erase c = s.pool.connections.erase c := by
        refine ExtTreeMap.ext_getElem? fun a ↦ ?_
        rw [BTree.getElem?_erase, BTree.getElem?_erase, BTree.getElem?_insert]
        split
        · rfl
        · rfl
      have hreleased : (s.released.insert c).erase c = s.released := by
        refine ExtTreeSet.ext_mem fun a ↦ ?_
        rw [ExtTreeSet.mem_erase, BTree.mem_insert_set, Ne, LawfulEqCmp.compare_eq_iff_eq]
        refine ⟨fun ⟨hne, hmem⟩ ↦ hmem.resolve_left hne, fun hmem ↦ ⟨?_, .inr hmem⟩⟩
        rintro rfl
        exact hlive hmem
      refine ⟨_, by rw [ConnectionPool.drop, hconnection], ?_⟩
      have hmem : c ∈ s.released.insert c := (BTree.mem_insert_set _ _ _).mpr (.inl rfl)
      rw [giveBack, if_neg (by simp [htaker, hmem])]
      simp only [hconnections, hreleased, hpoisoned]
      rcases transaction with _ | state
      · rfl
      · rfl
  · cases h

/-! ## Accounting -/

/-- **The permits are conserved**: those that are left and those of the connections are all. -/
def Conserved (s : PoisonablePool) : Prop :=
  s.pool.permits + s.pool.connections.size = s.pool.maxConnections

/-- A `get` or `try_get` looks at a poisoned database. -/
def meetsPoison (s : PoisonablePool) : PermitAction → Bool
  | .connect => s.poisoned
  | _ => false

/-- **Every permit is accounted for**: it is left, or has a connection, or is in the hands of the
thread that makes one, or has been lost in one of the failures. -/
structure Accounted (s : PoisonablePool) (failures : Nat) : Prop where
  /-- The connection that is being made does not exist. -/
  taker (c : Nat) : s.taker = some c → c ∉ s.pool.connections
  /-- A connection exists until its destructor has ended. -/
  released (c : Nat) : c ∈ s.released → c ∈ s.pool.connections
  total : s.pool.permits + s.pool.connections.size + (if s.taker.isSome then 1 else 0) + failures =
    s.pool.maxConnections

namespace Accounted

variable {s s' : PoisonablePool} {failures : Nat}

/-- A step that replaces a connection. -/
theorem replace (h : s.Accounted failures) {c : Nat} (hc : c ∈ s.pool.connections)
    {connection : Connection} {shared : SharedDatabase} {n : Nat} :
    Accounted { s with pool := { s.pool with
      shared
      nextTransactionId := n
      connections := s.pool.connections.insert c connection } } failures := by
  have hmem (a : Nat) : a ∈ s.pool.connections.insert c connection ↔ a ∈ s.pool.connections := by
    rw [ExtTreeMap.mem_insert, LawfulEqCmp.compare_eq_iff_eq]
    refine ⟨?_, .inr⟩
    rintro (rfl | ha)
    · exact hc
    · exact ha
  refine ⟨fun a ha ↦ ?_, fun a ha ↦ ?_, ?_⟩
  · exact fun hmem' ↦ h.taker a ha ((hmem a).mp hmem')
  · exact (hmem a).mpr (h.released a ha)
  · show s.pool.permits + (s.pool.connections.insert c connection).size + _ + _ = _
    rw [BTree.size_insert_of_mem hc]
    exact h.total

theorem takePermit (h : s.Accounted failures) {c : Nat} (htaker : s.taker = none)
    (hc : c ∉ s.pool.connections) (hpermits : s.pool.permits ≠ 0) :
    (s.takePermit c).Accounted failures := by
  refine ⟨fun a ha ↦ ?_, h.released, ?_⟩
  · obtain rfl := Option.some.inj ha
    exact hc
  · have htotal := h.total
    rw [htaker] at htotal
    show s.pool.permits - 1 + s.pool.connections.size + 1 + failures = s.pool.maxConnections
    simp only [Option.isSome_none, Bool.false_eq_true, if_false] at htotal
    omega

theorem connect (h : s.Accounted failures) {result : Result Unit}
    (hconnect : s.connect = some (result, s')) :
    s'.Accounted (if s.meetsPoison .connect then failures + 1 else failures) := by
  rcases htaker : s.taker with _ | c
  · rw [PoisonablePool.connect, htaker] at hconnect
    cases hconnect
  · have htotal := h.total
    rw [htaker, Option.isSome_some, if_pos rfl] at htotal
    by_cases hpoisoned : s.poisoned = true
    · have heq : s.connect = some (.error poisonedError, { s with taker := none }) := by
        rw [PoisonablePool.connect, htaker]
        exact if_pos hpoisoned
      obtain ⟨-, rfl⟩ := Prod.mk.inj (Option.some.inj (heq.symm.trans hconnect))
      rw [meetsPoison, if_pos hpoisoned]
      refine ⟨fun a ha ↦ (by cases ha), h.released, ?_⟩
      show s.pool.permits + s.pool.connections.size + 0 + (failures + 1) = s.pool.maxConnections
      omega
    · have heq : s.connect = some (.ok (), { s with
          pool := { s.pool with connections := s.pool.connections.insert c {} }
          taker := none }) := by
        rw [PoisonablePool.connect, htaker]
        exact if_neg hpoisoned
      obtain ⟨-, rfl⟩ := Prod.mk.inj (Option.some.inj (heq.symm.trans hconnect))
      rw [meetsPoison, if_neg hpoisoned]
      refine ⟨fun a ha ↦ (by cases ha), fun a ha ↦ ?_, ?_⟩
      · exact ExtTreeMap.mem_insert.mpr (.inr (h.released a ha))
      · show s.pool.permits + (s.pool.connections.insert c {}).size + 0 + failures =
          s.pool.maxConnections
        rw [BTree.size_insert_of_not_mem (h.taker c htaker)]
        omega

theorem drop (h : s.Accounted failures) {c : Nat} (hdrop : s.drop c = some s') :
    s'.Accounted failures := by
  rw [PoisonablePool.drop] at hdrop
  split at hdrop
  · rename_i transaction statementCache cachePoisoned lastResult hconnection
    split at hdrop
    · cases hdrop
    · obtain rfl := Option.some.inj hdrop
      have hc : c ∈ s.pool.connections := (BTree.mem_iff_exists _ _).mpr ⟨_, hconnection⟩
      obtain ⟨htaker, hreleased, htotal⟩ := h.replace hc
      refine ⟨htaker, fun a ha ↦ ?_, htotal⟩
      rcases (BTree.mem_insert_set _ _ _).mp ha with rfl | ha
      · exact ExtTreeMap.mem_insert.mpr (.inl (LawfulEqCmp.compare_eq_iff_eq.mpr rfl))
      · exact hreleased a ha
  · cases hdrop

theorem giveBack (h : s.Accounted failures) {c : Nat} (hgive : s.giveBack c = some s') :
    s'.Accounted failures := by
  rw [PoisonablePool.giveBack] at hgive
  split at hgive
  · cases hgive
  · rename_i hfree
    obtain rfl := Option.some.inj hgive
    rw [not_or, Bool.not_eq_true, Option.isSome_eq_false_iff, Option.isNone_iff_eq_none,
      not_not] at hfree
    have hc : c ∈ s.pool.connections := h.released c hfree.2
    refine ⟨fun a ha ↦ ?_, fun a ha ↦ ?_, ?_⟩
    · exact fun hmem ↦ h.taker a ha (ExtTreeMap.mem_erase.mp hmem).2
    · obtain ⟨hne, ha⟩ := ExtTreeSet.mem_erase.mp ha
      exact ExtTreeMap.mem_erase.mpr ⟨hne, h.released a ha⟩
    · have htotal := h.total
      have hsize := BTree.size_erase_of_mem hc
      show s.pool.permits + 1 + (s.pool.connections.erase c).size + _ + failures =
        s.pool.maxConnections
      rw [hfree.1] at htotal ⊢
      omega

theorem fail (h : s.Accounted failures) {c : Nat} (hfail : s.fail c = some s') :
    s'.Accounted failures := by
  rw [PoisonablePool.fail] at hfail
  split at hfail
  · cases hfail
  · rename_i connection hconnection
    have hc : c ∈ s.pool.connections := (BTree.mem_iff_exists _ _).mpr ⟨_, hconnection⟩
    split at hfail
    · cases hfail
    · split at hfail
      · cases hfail
      · obtain rfl := Option.some.inj hfail
        exact h.replace hc

section Platform

variable [Platform]

theorem run (h : s.Accounted failures) {action : PoolAction} (hrun : s.run action = some s') :
    s'.Accounted failures := by
  unfold PoisonablePool.run at hrun
  split at hrun
  · cases hrun
  · cases hrun
  · rename_i hget hdrop
    split at hrun
    · cases hrun
    · obtain ⟨pool, hstep, rfl⟩ := Option.map_eq_some_iff.mp hrun
      obtain ⟨c, hc, connection, shared, n, rfl⟩ :=
        ConnectionPool.step_replaces hget hdrop hstep
      exact h.replace hc

/-- **One more step.** -/
theorem step (h : s.Accounted failures) {action : PermitAction}
    (hstep : s.step action = some s') :
    s'.Accounted (if s.meetsPoison action then failures + 1 else failures) := by
  cases action with
  | get c =>
    rw [PoisonablePool.step, PoisonablePool.get] at hstep
    split at hstep
    · cases hstep
    · rename_i hfree
      obtain rfl := Option.some.inj hstep
      rw [not_or, not_or, Option.not_isSome_iff_eq_none] at hfree
      exact h.takePermit hfree.1 hfree.2.1 hfree.2.2
  | tryGet c =>
    rw [PoisonablePool.step, PoisonablePool.tryGet] at hstep
    split at hstep
    · cases hstep
    · rename_i hfree
      rw [not_or, Option.not_isSome_iff_eq_none] at hfree
      split at hstep
      · obtain rfl := Option.some.inj hstep
        exact h
      · rename_i hpermits
        obtain rfl := Option.some.inj hstep
        exact h.takePermit hfree.1 hfree.2 hpermits
  | connect =>
    obtain ⟨⟨result, s₁⟩, hconnect, rfl⟩ := Option.map_eq_some_iff.mp hstep
    exact h.connect hconnect
  | drop c => exact h.drop hstep
  | giveBack c => exact h.giveBack hstep
  | poison =>
    obtain rfl := Option.some.inj hstep
    exact ⟨h.taker, h.released, h.total⟩
  | run action => exact h.run hstep
  | fail c => exact h.fail hstep

end Platform

end Accounted

section Platform

variable [Platform]

/-- The runs, with the number of `get` and `try_get` that have met a poisoned database. -/
def counted : Machine (PoisonablePool × Nat) PermitAction :=
  machine.withHistory (fun _ ↦ 0) fun s failures action _ ↦
    if s.meetsPoison action then failures + 1 else failures

/-- At the beginning all permits are left. -/
theorem accounted_init {pool : ConnectionPool} (h : ConnectionPool.machine.init pool) :
    Accounted { pool } 0 := by
  obtain ⟨database, maxConnections, -, -, hpool⟩ := h
  rw [ConnectionPool.fromDatabase] at hpool
  split at hpool
  · cases hpool
  · obtain rfl := Except.ok.inj hpool
    refine ⟨fun c hc ↦ (by cases hc), fun c hc ↦ absurd hc ExtTreeSet.not_mem_empty, ?_⟩
    show maxConnections + (∅ : BTreeMap Nat Connection).size + 0 + 0 = maxConnections
    rw [ExtTreeMap.size_empty]
    rfl

/-- **Every permit is accounted for in every state of a run.** -/
theorem accounted_of_run {s : PoisonablePool} {failures : Nat}
    (h : counted.Reachable (s, failures)) : s.Accounted failures := by
  refine h.invariant (I := fun state ↦ Accounted state.1 state.2) ?_ ?_
  · rintro ⟨s, failures⟩ ⟨⟨hinit, hs⟩, hfailures⟩
    exact hs ▸ hfailures ▸ accounted_init hinit
  · rintro ⟨s, failures⟩ action ⟨s', failures'⟩ - haccounted - hstep
    obtain ⟨hstep, rfl⟩ := Machine.withHistory_step_eq_some.mp hstep
    exact haccounted.step hstep

omit [Platform] in
/-- No failure, no permit lost. -/
theorem Accounted.conserved_iff {s : PoisonablePool} {failures : Nat} (h : s.Accounted failures)
    (htaker : s.taker = none) : s.Conserved ↔ failures = 0 := by
  have htotal := h.total
  rw [htaker] at htotal
  simp only [Option.isSome_none, Bool.false_eq_true, if_false] at htotal
  rw [Conserved]
  omega

/-- **When permits are conserved**: in a run in which no `get` or `try_get` meets a poisoned
database, in all states in which no thread is making a connection; and in such a state of any run
exactly if none has met one so far. -/
theorem permits_conserved_iff :
    (∀ s : PoisonablePool,
      machine.ReachableVia (fun s action ↦ s.meetsPoison action = false) s →
        s.taker = none → s.Conserved) ∧
    ∀ (s : PoisonablePool) (failures : Nat), counted.Reachable (s, failures) →
      s.taker = none → (s.Conserved ↔ failures = 0) := by
  refine ⟨fun s h htaker ↦ ?_, fun s failures h htaker ↦
    (accounted_of_run h).conserved_iff htaker⟩
  have haccounted : s.Accounted 0 := by
    refine h.invariant (I := fun s ↦ Accounted s 0) ?_ ?_
    · rintro s ⟨hinit, hs⟩
      exact hs ▸ accounted_init hinit
    · intro s action s' _ haccounted hc hstep
      have hnext := haccounted.step hstep
      rwa [hc] at hnext
  exact (haccounted.conserved_iff htaker).mpr rfl

end Platform

/-- The state that a pool of one connection gets into. -/
def afterPermits (actions : List PermitAction) : PoisonablePool :=
  (@machine Platform.ascii).after { pool := ConnectionPool.memory 1 } actions

theorem reachableVia_afterPermits {C : PoisonablePool → PermitAction → Prop}
    (actions : List PermitAction)
    (hC : (@machine Platform.ascii).StepsSatisfy C { pool := ConnectionPool.memory 1 } actions) :
    (@machine Platform.ascii).ReachableVia C (afterPermits actions) :=
  Machine.reachableVia_after (.init ⟨ConnectionPool.init_memory (by decide), rfl⟩) hC

/-- A connection is checked out before the database is poisoned, and dropped afterwards. -/
theorem conserved_afterPermits :
    (afterPermits [.get 0, .connect, .poison, .drop 0, .giveBack 0]).Conserved :=
  (@permits_conserved_iff Platform.ascii).1 _
    (reachableVia_afterPermits _ (by decide +kernel)) (by decide +kernel)

/-- **A connection that cannot be made costs a permit**, here the only one. -/
theorem not_permits_conserved : ¬∀ [Platform] (s : PoisonablePool), machine.Reachable s →
    s.taker = none → s.Conserved := by
  intro h
  have hconserved := @h Platform.ascii _ (reachableVia_afterPermits [.poison, .get 0, .connect]
    (Machine.stepsSatisfy_true _ _)) (by decide +kernel)
  have hsum : (afterPermits [.poison, .get 0, .connect]).pool.permits +
      (afterPermits [.poison, .get 0, .connect]).pool.connections.size = 0 := by decide +kernel
  have hmax : (afterPermits [.poison, .get 0, .connect]).pool.maxConnections = 1 := by
    decide +kernel
  rw [Conserved, hsum, hmax] at hconserved
  cases hconserved

end PoisonablePool

end Fsql
