import Fsql.Pool.Fulltext
import Fsql.Pool.LockKeys
import Fsql.Relational
import Mathlib.Logic.Function.Basic

/-!
# The relational pool

What the connections of a pool can see of each other: the committed relations, and for each open
transaction the relations it works on (`RelationalPool`).  There are no row ids, no lock keys and no
merge here.  A statement outside a transaction is executed on the committed relations, at once; a
transaction starts from the committed relations and sees nothing but its own statements.

`RelationalPool.Step` is what may become of a statement.  What depends on rows and their keys is
left open where it is seen: a statement that changes rows may be refused while other transactions
are open, and a `COMMIT` over relations that have been replaced since `BEGIN` may fail, or publish
something else than what its transaction has seen.  Where nothing has been committed since `BEGIN`,
it publishes just that.
-/

set_option autoImplicit false

namespace Fsql

/-- What is seen of a pool. -/
inductive PoolEvent
  /-- A statement has been performed for a connection, or refused; `persist` is what becomes of the
  write of the database file. -/
  | performed (c : Nat) (statement : Statement) (persist : Option Error)
    (result : Result QueryResult)
  /-- A connection has been dropped. -/
  | dropped (c : Nat)

/-- The number of rows in an answer. -/
def PoolEvent.length : PoolEvent → Nat
  | .performed _ _ _ (.ok result) => result.rows.length
  | .performed _ _ _ (.error _) | .dropped _ => 0

/-- An open transaction as its connection sees it. -/
structure Session where
  /-- The relations it works on. -/
  relations : Relations
  /-- The version of the committed relations it has started from. -/
  base : Nat

/-- **A pool as its connections see it.** -/
structure RelationalPool where
  /-- The database file. -/
  path : Option String
  /-- The options of the database. -/
  options : DatabaseOptions
  /-- The committed relations. -/
  committed : Relations
  /-- How often the committed relations have been replaced. -/
  version : Nat
  /-- The open transactions of the connections. -/
  sessions : Nat → Option Session
  /-- A transaction could not be merged, and its locks stay. -/
  stuck : Bool

namespace RelationalPool

/-- A pool on a database without open transactions. -/
def start (db : RelationalDatabase) : RelationalPool :=
  ⟨db.path, db.options, db.committed, 0, fun _ ↦ none, false⟩

/-- The transaction of a connection is replaced. -/
def put (pool : RelationalPool) (c : Nat) (session : Option Session) : RelationalPool :=
  { pool with sessions := Function.update pool.sessions c session }

@[simp] theorem sessions_put_self (pool : RelationalPool) (c : Nat) (session : Option Session) :
    (pool.put c session).sessions c = session := by
  show Function.update pool.sessions c session c = session
  rw [Function.update_self]

theorem sessions_put_of_ne (pool : RelationalPool) {c c' : Nat} (session : Option Session)
    (hne : c' ≠ c) : (pool.put c session).sessions c' = pool.sessions c' := by
  show Function.update pool.sessions c session c' = pool.sessions c'
  rw [Function.update_of_ne hne]

/-- The name of a table is that of another one with a colon and more behind it, so that the keys of
its rows are taken for those of the other one. -/
def Clashes (pool : RelationalPool) : Prop :=
  ∃ name ∈ pool.committed, ∃ other ∈ pool.committed, Extends name other

/-- Somebody else may hold locks. -/
def Contended (pool : RelationalPool) (c : Nat) : Prop :=
  pool.stuck = true ∨ ∃ c', c' ≠ c ∧ (pool.sessions c').isSome = true

section Platform

variable [Platform]

/-- A statement on the committed relations: one that fails, or cannot be made durable, does
nothing. -/
def direct (pool : RelationalPool) (statement : Statement) (persist : Option Error) :
    Result QueryResult × RelationalPool :=
  match pool.committed.execute statement (tableRuntimeOptions pool.options) with
  | (.error error, _) => (.error error, pool)
  | (.ok result, relations) =>
    match appendOptionalLine pool.path persist with
    | .error error => (.error error, pool)
    | .ok () =>
      (.ok result,
        { pool with
          committed := relations
          version := if statement.mutatesCatalog then pool.version + 1 else pool.version })

/-- **What may become of a statement**, and what the connections see then. -/
inductive Step (pool : RelationalPool) : PoolEvent → RelationalPool → Prop
  /-- A transaction starts from the committed relations. -/
  | begin {c : Nat} {persist : Option Error} (h : pool.sessions c = none) :
    Step pool (.performed c .begin persist (.ok (.ofMessage "transaction started")))
      (pool.put c (some ⟨pool.committed, pool.version⟩))
  /-- There is a transaction already. -/
  | active {c : Nat} {persist : Option Error} (h : (pool.sessions c).isSome = true) :
    Step pool (.performed c .begin persist (.error (execution "transaction already active"))) pool
  /-- There is no transaction to end. -/
  | inactive {c : Nat} {persist : Option Error} {statement : Statement}
      (h : pool.sessions c = none) (hstatement : statement = .commit ∨ statement = .rollback) :
    Step pool (.performed c statement persist (.error (execution "no active transaction"))) pool
  /-- A transaction is given up. -/
  | rollback {c : Nat} {persist : Option Error} (h : (pool.sessions c).isSome = true) :
    Step pool (.performed c .rollback persist (.ok (.ofMessage "transaction rolled back")))
      (pool.put c none)
  /-- A transaction is published: what it has seen, if nothing has been committed in between. -/
  | publish {c : Nat} {persist : Option Error} {session : Session} {merged : Relations}
      (h : pool.sessions c = some session)
      (hmerged : session.base = pool.version → merged = session.relations)
      (hwrite : appendOptionalLine pool.path persist = .ok ()) :
    Step pool (.performed c .commit persist (.ok (.ofMessage "transaction committed")))
      { pool.put c none with committed := merged, version := pool.version + 1 }
  /-- A transaction cannot be made durable, and is gone. -/
  | unwritten {c : Nat} {persist : Option Error} {error : Error}
      (h : (pool.sessions c).isSome = true)
      (hwrite : appendOptionalLine pool.path persist = .error error) :
    Step pool (.performed c .commit persist (.error error)) (pool.put c none)
  /-- A transaction cannot be merged with what has been committed in between, and is gone. -/
  | unmerged {c : Nat} {persist : Option Error} {error : Error} {session : Session}
      (h : pool.sessions c = some session) (hbase : session.base = pool.version → pool.Clashes) :
    Step pool (.performed c .commit persist (.error error)) { pool.put c none with stuck := true }
  /-- A statement outside a transaction. -/
  | direct {c : Nat} {persist : Option Error} {statement : Statement} (h : pool.sessions c = none)
      (hcontrol : statement.isTransactionControl = false) :
    Step pool (.performed c statement persist (pool.direct statement persist).1)
      (pool.direct statement persist).2
  /-- A change of the schema waits for nobody. -/
  | blocked {c : Nat} {persist : Option Error} {statement : Statement}
      (h : pool.sessions c = none) (hddl : statement.isDdl = true) (hcontended : pool.Contended c) :
    Step pool
      (.performed c statement persist (.error (execution "ddl blocked by active dml transactions")))
      pool
  /-- The schema is not changed in transactions. -/
  | refused {c : Nat} {persist : Option Error} {statement : Statement}
      (h : (pool.sessions c).isSome = true) (hddl : statement.isDdl = true) :
    Step pool
      (.performed c statement persist
        (.error (execution "ddl is not allowed inside an active transaction"))) pool
  /-- A statement of a transaction is executed on the relations the transaction works on. -/
  | own {c : Nat} {persist : Option Error} {statement : Statement} {session : Session}
      (h : pool.sessions c = some session) (hcontrol : statement.isTransactionControl = false)
      (hddl : statement.isDdl = false) :
    Step pool
      (.performed c statement persist
        (session.relations.execute statement (tableRuntimeOptions pool.options)).1)
      (pool.put c (some { session with relations :=
        (session.relations.execute statement (tableRuntimeOptions pool.options)).2 }))
  /-- A row is locked by somebody else. -/
  | conflict {c : Nat} {persist : Option Error} {statement : Statement}
      (h : (pool.sessions c).isSome = true) (hdml : statement.isDml = true)
      (hcontended : pool.Contended c) (key : String) :
    Step pool
      (.performed c statement persist (.error (execution s!"row lock conflict on {key}"))) pool
  /-- The key of an insertion cannot be locked, since it is not finite; the insertion would fail as
  well. -/
  | unkeyed {c : Nat} {persist : Option Error} {session : Session} {table : String}
      {columns : Option (List String)} {values : List Value} {error error' : Error}
      (h : pool.sessions c = some session)
      (hinfinite : ∃ value ∈ values, value.isFinite = false)
      (hfails : (session.relations.execute (.insert table columns values)
        (tableRuntimeOptions pool.options)).1 = .error error') :
    Step pool (.performed c (.insert table columns values) persist (.error error)) pool
  /-- A connection is dropped, and its transaction is given up. -/
  | dropped {c : Nat} : Step pool (.dropped c) (pool.put c none)

end Platform

end RelationalPool

end Fsql
