import Fsql.Pool.Sessions
import Fsql.Sql.Clauses

/-!
# A pool with one connection

A database commits its working copy as it is.  A pool locks rows, draws row ids that are not given
back, and merges row by row.  Whoever has the only connection of a pool sees nothing of that:
`ConnectionPool.answers_solo` — a call on it is answered as a call of a database is.

Both are the relational database.  For a database that is `Database.simulates_relational`.  For a
pool it follows from `ConnectionPool.Says`, since everything that the relational pool leaves open
depends on other connections, on a table name with a colon, or on a value that is no literal
(`RelationalPool.Solo.performed`).

Row ids have no bound here; a database that starts empty runs out of them after `2 ^ 64` insertions.
-/

set_option autoImplicit false

namespace Fsql

open Std

/-- **What a client may send that does not care which of the two it has**: no `EXPLAIN`, no change
of the schema in a transaction, and no table with a colon in its name. -/
def Statement.Portable (inTransaction : Bool) : Statement → Prop
  | .explain _ => False
  | .createTable name _ => inTransaction = false ∧ ':' ∉ name.toList
  | .createIndex .. => inTransaction = false
  | _ => True

instance (inTransaction : Bool) :
    ∀ statement, Decidable (Statement.Portable inTransaction statement)
  | .explain _ => isFalse id
  | .createTable name _ => inferInstanceAs (Decidable (inTransaction = false ∧ ':' ∉ name.toList))
  | .createIndex .. => inferInstanceAs (Decidable (inTransaction = false))
  | .insert .. | .select .. | .update .. | .delete .. | .begin | .commit | .rollback
  | .parsedOnly .. => isTrue trivial

/-- **What may be sent**: a text of such a statement, or one that is refused. -/
def Sendable (inTransaction : Bool) : Parse Statement → Prop
  | .ok statement => statement.Portable inTransaction
  | .error fault => fault ≠ .panic

instance (inTransaction : Bool) : ∀ parsed, Decidable (Sendable inTransaction parsed)
  | .ok statement => inferInstanceAs (Decidable (statement.Portable inTransaction))
  | .error fault => inferInstanceAs (Decidable (fault ≠ .panic))

section Platform

variable [Platform]

/-! ## The relational pool of one connection -/

namespace RelationalDatabase

variable {db : RelationalDatabase}

/-- A statement that does not begin or end a transaction is executed on the relations. -/
theorem executeParsed_eq {inTransaction : Bool} {statement : Statement}
    (hcontrol : statement.isTransactionControl = false)
    (hportable : statement.Portable inTransaction) (outcome : Option Error) :
    db.executeParsed statement outcome = db.executeStatement statement outcome := by
  cases statement with
  | begin | commit | rollback => cases hcontrol
  | explain => cases hportable
  | _ => rfl

/-- What is sent may be sent. -/
def Takes (db : RelationalDatabase) (action : String × Outcome) : Prop :=
  Sendable db.working.isSome (parseSqlWithDialect action.1 db.options.sqlDialect)

/-- With the simple tokenizer, every index is built with it. -/
theorem callKeepsTokens (h : db.options = {}) (action : String × Outcome) :
    db.CallKeepsTokens action := by
  intro statement _ _
  cases statement with
  | createIndex name table column fulltext =>
    rcases fulltext with _ | _
    · intro r _ _ _ _ entry _ row _
      rw [h]
      exact ⟨List.Subset.refl _, List.Subset.refl _⟩
    · trivial
  | _ => trivial

end RelationalDatabase

namespace Database

/-- `Database::memory`. -/
def memory : Database := ⟨none, .empty, none, {}, ∅⟩

example : tryMemoryWithOptions {} = .ok memory := rfl

/-- What is sent may be sent. -/
def Takes (db : Database) (action : String × Outcome) : Prop :=
  Sendable db.transaction.isSome (parseSqlWithDialect action.1 db.options.sqlDialect)

instance (db : Database) (action : String × Outcome) : Decidable (db.Takes action) :=
  inferInstanceAs (Decidable (Sendable _ _))

/-- A database implements a relational one with the default options. -/
structure ImplementsInMemory (db : Database) (model : RelationalDatabase) : Prop where
  implements : db.Implements model
  options_eq : model.options = {}

theorem takes_relational {db : Database} {model : RelationalDatabase} {action : String × Outcome}
    (h : db.ImplementsInMemory model) (htakes : db.Takes action) : model.Takes action := by
  obtain ⟨rfl, -, -⟩ := h.implements
  have hopen : db.relational.working.isSome = db.transaction.isSome := Option.isSome_map
  rw [RelationalDatabase.Takes, hopen]
  exact htakes

theorem simulates_inMemory :
    Service.Simulates service RelationalDatabase.service RelationalDatabase.Takes
      ImplementsInMemory := by
  intro db model action h _
  have hkeeps := model.callKeepsTokens h.options_eq action
  obtain ⟨hanswer, hnext⟩ := simulates_relational h.implements hkeeps
  exact ⟨hanswer, hnext, (model.options_execute action.1 action.2).trans h.options_eq⟩

end Database

namespace RelationalPool

/-- **Nobody else uses a pool**, and it says what a database in memory says. -/
structure Solo (pool : RelationalPool) (c : Nat) (db : RelationalDatabase) : Prop where
  memory : pool.path = none ∧ db.path = none
  options_eq : pool.options = db.options
  committed_eq : pool.committed = db.committed
  /-- The open transaction is that of the connection. -/
  working_eq : (pool.sessions c).map (·.relations) = db.working
  /-- Nothing has been committed since it has begun. -/
  base_eq (session : Session) : pool.sessions c = some session → session.base = pool.version
  others (c' : Nat) : c' ≠ c → pool.sessions c' = none
  /-- No merge has failed. -/
  unstuck : pool.stuck = false
  /-- No key of a row is one of another table. -/
  named (relations : Relations) : relations = db.committed ∨ db.working = some relations →
    ∀ name ∈ relations, ':' ∉ name.toList

namespace Solo

variable {pool pool' : RelationalPool} {db : RelationalDatabase} {c : Nat}

omit [Platform] in
theorem working_none (h : pool.Solo c db) (hsession : pool.sessions c = none) :
    db.working = none := by
  rw [← h.working_eq, hsession]
  rfl

omit [Platform] in
theorem working_some (h : pool.Solo c db) {session : Session}
    (hsession : pool.sessions c = some session) : db.working = some session.relations := by
  rw [← h.working_eq, hsession]
  rfl

omit [Platform] in
/-- Nobody holds a lock. -/
theorem not_contended (h : pool.Solo c db) : ¬pool.Contended c := by
  rintro (hstuck | ⟨c', hne, hopen⟩)
  · rw [h.unstuck] at hstuck
    cases hstuck
  · rw [h.others c' hne] at hopen
    cases hopen

omit [Platform] in
theorem not_clashes (h : pool.Solo c db) : ¬pool.Clashes := by
  rintro ⟨name, hname, other, -, hextends⟩
  rw [h.committed_eq] at hname
  refine h.named _ (.inl rfl) name hname (hextends.subset ?_)
  simp

omit [Platform] in
/-- **The connection's own transaction is replaced.** -/
theorem put (h : pool.Solo c db) (session : Option Session)
    (hbase : ∀ s ∈ session, s.base = pool.version)
    (hnamed : ∀ s ∈ session, ∀ name ∈ s.relations, ':' ∉ name.toList) :
    (pool.put c session).Solo c { db with working := session.map (·.relations) } := by
  refine ⟨h.memory, h.options_eq, h.committed_eq, ?_, ?_, fun c' hne ↦ ?_, h.unstuck, ?_⟩
  · rw [pool.sessions_put_self]
  · rw [pool.sessions_put_self]
    exact hbase
  · rw [pool.sessions_put_of_ne session hne]
    exact h.others c' hne
  · rintro relations (rfl | hworking)
    · exact h.named _ (.inl rfl)
    · obtain ⟨s, hs, rfl⟩ := Option.map_eq_some_iff.mp hworking
      exact hnamed s hs

omit [Platform] in
/-- **New relations are committed**, by a connection without a transaction. -/
theorem commit (h : pool.Solo c db) (hnone : pool.sessions c = none) {relations : Relations}
    (hnamed : ∀ name ∈ relations, ':' ∉ name.toList) (version : Nat) :
    Solo { pool with committed := relations, version } c { db with committed := relations } := by
  refine ⟨h.memory, h.options_eq, rfl, h.working_eq, fun session hsession ↦ ?_, h.others, h.unstuck,
    ?_⟩
  · cases hnone.symm.trans hsession
  · rintro relations' (rfl | hworking)
    · exact hnamed
    · cases (h.working_none hnone).symm.trans hworking

/-- The relations a statement leaves behind have such names, too. -/
theorem named_execute (h : pool.Solo c db) {relations : Relations}
    (hrelations : relations = db.committed ∨ db.working = some relations) {statement : Statement}
    {inTransaction : Bool} (hportable : statement.Portable inTransaction)
    (options : TableRuntimeOptions) :
    ∀ name ∈ (relations.execute statement options).2, ':' ∉ name.toList := by
  intro name hname
  rcases Relations.mem_execute hname with hmem | ⟨columns, rfl⟩
  · exact h.named relations hrelations name hmem
  · exact hportable.2

omit [Platform] in
/-- What is in memory is not written. -/
theorem written (h : pool.Solo c db) (persist : Option Error) :
    appendOptionalLine pool.path persist = .ok () ∧
      appendOptionalLine db.path persist = .ok () := by
  rw [h.memory.1, h.memory.2]
  exact ⟨rfl, rfl⟩

/-- A statement outside a transaction. -/
theorem direct (h : pool.Solo c db) {statement : Statement}
    (hcontrol : statement.isTransactionControl = false)
    (hportable : statement.Portable db.working.isSome) (hnone : pool.sessions c = none)
    (persist : Option Error) :
    (pool.direct statement persist).1 = (db.executeParsed statement persist).1 ∧
      (pool.direct statement persist).2.Solo c (db.executeParsed statement persist).2 := by
  have hworking := h.working_none hnone
  have hcurrent : db.current = db.committed := by
    rw [RelationalDatabase.current, hworking]
    rfl
  have hclosed : ¬db.working.isSome = true := by simp [hworking]
  have hexecute : pool.committed.execute statement (tableRuntimeOptions pool.options) =
      db.committed.execute statement (tableRuntimeOptions db.options) := by
    rw [h.committed_eq, h.options_eq]
  have hnamed := h.named_execute (.inl rfl) hportable (tableRuntimeOptions db.options)
  have hstays := @Relations.execute_of_not_mutates _ (tableRuntimeOptions db.options) db.committed
    statement
  rw [RelationalDatabase.executeParsed_eq hcontrol hportable, RelationalDatabase.executeStatement,
    RelationalPool.direct, hcurrent, hexecute, (h.written persist).1, (h.written persist).2]
  generalize db.committed.execute statement (tableRuntimeOptions db.options) = executed
    at hnamed hstays ⊢
  obtain ⟨error | result, relations⟩ := executed
  · exact ⟨rfl, h⟩
  · dsimp only at hnamed hstays ⊢
    rw [if_neg hclosed]
    rcases hmutates : statement.mutatesCatalog with _ | _
    · obtain rfl := hstays hmutates
      exact ⟨rfl, h.commit hnone hnamed pool.version⟩
    · exact ⟨rfl, h.commit hnone hnamed (pool.version + 1)⟩

/-- A statement of the transaction. -/
theorem own (h : pool.Solo c db) {statement : Statement}
    (hcontrol : statement.isTransactionControl = false) (hddl : statement.isDdl = false)
    (hportable : statement.Portable db.working.isSome) {session : Session}
    (hsession : pool.sessions c = some session) (persist : Option Error) :
    (session.relations.execute statement (tableRuntimeOptions pool.options)).1 =
        (db.executeParsed statement persist).1 ∧
      (pool.put c (some { session with relations :=
        (session.relations.execute statement (tableRuntimeOptions pool.options)).2 })).Solo c
        (db.executeParsed statement persist).2 := by
  have hworking := h.working_some hsession
  have hbase := h.base_eq session hsession
  have hcurrent : db.current = session.relations := by
    rw [RelationalDatabase.current, hworking]
    rfl
  have hopen : db.working.isSome = true := by simp [hworking]
  have hnamed := h.named_execute (.inr hworking) hportable (tableRuntimeOptions db.options)
  have hfailed (error : Error) := @Relations.execute_error _ (tableRuntimeOptions db.options)
    session.relations statement error hddl
  rw [RelationalDatabase.executeParsed_eq hcontrol hportable, RelationalDatabase.executeStatement,
    hcurrent, h.options_eq]
  generalize session.relations.execute statement (tableRuntimeOptions db.options) = executed
    at hnamed hfailed ⊢
  obtain ⟨error | result, relations⟩ := executed
  · obtain rfl : relations = session.relations := hfailed error rfl
    have hput := h.put (some { session with relations := session.relations })
      (fun s hs ↦ Option.some.inj hs ▸ hbase) (fun s hs ↦ Option.some.inj hs ▸ hnamed)
    rw [Option.map_some, ← hworking] at hput
    exact ⟨rfl, hput⟩
  · dsimp only at hnamed ⊢
    rw [if_pos hopen]
    exact ⟨rfl, h.put (some { session with relations })
      (fun s hs ↦ Option.some.inj hs ▸ hbase) (fun s hs ↦ Option.some.inj hs ▸ hnamed)⟩

/-- **A statement is performed as in a database.** -/
theorem performed (h : pool.Solo c db) {statement : Statement} {persist : Option Error}
    {result : Result QueryResult} (hportable : statement.Portable db.working.isSome)
    (hfinite : ∀ table columns values, statement = .insert table columns values →
      ∀ value ∈ values, value.isFinite = true)
    (hstep : pool.Step (.performed c statement persist result) pool') :
    result = (db.executeParsed statement persist).1 ∧
      pool'.Solo c (db.executeParsed statement persist).2 := by
  cases hstep with
  | begin hnone =>
    rw [RelationalDatabase.executeParsed, h.working_none hnone]
    refine ⟨rfl, ?_⟩
    have hput := h.put (some ⟨pool.committed, pool.version⟩)
      (fun s hs ↦ Option.some.inj hs ▸ rfl)
      (fun s hs ↦ Option.some.inj hs ▸ h.named _ (.inl h.committed_eq))
    rw [Option.map_some, h.committed_eq] at hput
    exact h.committed_eq ▸ hput
  | active hsome =>
    obtain ⟨session, hsession⟩ := Option.isSome_iff_exists.mp hsome
    rw [RelationalDatabase.executeParsed, h.working_some hsession]
    exact ⟨rfl, h⟩
  | inactive hnone hstatement =>
    rcases hstatement with rfl | rfl <;>
      rw [RelationalDatabase.executeParsed, h.working_none hnone] <;> exact ⟨rfl, h⟩
  | rollback hsome =>
    obtain ⟨session, hsession⟩ := Option.isSome_iff_exists.mp hsome
    rw [RelationalDatabase.executeParsed, h.working_some hsession]
    exact ⟨rfl, h.put none (fun _ hs ↦ by cases hs) (fun _ hs ↦ by cases hs)⟩
  | publish hsession hmerged hwrite =>
    rename_i session merged
    obtain rfl := hmerged (h.base_eq session hsession)
    have hworking := h.working_some hsession
    have hput := h.put none (fun _ hs ↦ by cases hs) (fun _ hs ↦ by cases hs)
    have hpublished := hput.commit (pool.sessions_put_self c none) (h.named _ (.inr hworking))
      (pool.version + 1)
    rw [RelationalDatabase.executeParsed, hworking, (h.written persist).2]
    exact ⟨rfl, hpublished⟩
  | unwritten hsome hwrite =>
    rw [h.memory.1] at hwrite
    cases hwrite
  | unmerged hsession hbase => exact absurd (hbase (h.base_eq _ hsession)) h.not_clashes
  | direct hnone hcontrol => exact h.direct hcontrol hportable hnone persist
  | blocked hnone hddl hcontended => exact absurd hcontended h.not_contended
  | refused hsome hddl =>
    obtain ⟨session, hsession⟩ := Option.isSome_iff_exists.mp hsome
    rw [h.working_some hsession] at hportable
    cases statement with
    | createTable => cases hportable.1
    | createIndex => cases hportable
    | _ => cases hddl
  | own hsession hcontrol hddl => exact h.own hcontrol hddl hportable hsession persist
  | conflict hsome hdml hcontended => exact absurd hcontended h.not_contended
  | unkeyed hsession hinfinite hfails =>
    obtain ⟨value, hmem, hnot⟩ := hinfinite
    rw [hfinite _ _ _ rfl value hmem] at hnot
    cases hnot

end Solo

end RelationalPool

/-! ## Calls -/

namespace ConnectionPool

/-- The critical sections of a statement, one after the other. -/
def perform (pool : ConnectionPool) (c : Nat) (persist : Option Error) :
    Option ConnectionPool := do
  let pool ← pool.enter c persist
  match pool.phaseOf c with
  | some (.returned ..) => some pool
  | _ => pool.proceed c persist

/-- `Connection::execute`, while no other connection is at work. -/
def execute (pool : ConnectionPool) (c : Nat) (sql : String) (outcome : Outcome) :
    Option ConnectionPool := do
  let pool ← pool.call c sql outcome.log
  match pool.phaseOf c with
  | some (.called _) => do
    let pool ← pool.perform c outcome.persist
    pool.finish c outcome.log
  | _ => some pool

/-- What the last call of a connection has returned. -/
def lastResult (pool : ConnectionPool) (c : Nat) : Option (Parse QueryResult) :=
  pool.connections[c]?.bind (·.lastResult)

/-- A connection answers calls, if it is checked out and in no call. -/
def service (c : Nat) : Service ConnectionPool (String × Outcome) (Option (Parse QueryResult)) :=
  fun pool action ↦
    match pool.execute c action.1 action.2 with
    | some pool => (pool.lastResult c, pool)
    | none => (none, pool)

variable {pool pool' : ConnectionPool} {c : Nat}

omit [Platform] in
theorem phaseOf_insert (shared : SharedDatabase) (permits maxConnections n : Nat)
    (connections : BTreeMap Nat Connection) (connection : Connection) :
    phaseOf ⟨shared, permits, maxConnections, n, connections.insert c connection⟩ c =
      some connection.phase :=
  phaseOf_eq (by rw [BTree.getElem?_insert, if_pos rfl])

/-- **A call is a run of the pool.** -/
theorem runFrom_of_execute {sql : String} {outcome : Outcome}
    (h : pool.execute c sql outcome = some pool') :
    ∃ actions, machine.runFrom pool actions = some pool' := by
  have hone (action : PoolAction) (p : ConnectionPool) (actions : List PoolAction) :
      machine.runFrom p (action :: actions) =
        (p.step action).bind fun p' ↦ machine.runFrom p' actions := rfl
  obtain ⟨pool₁, hcall, h⟩ := Option.bind_eq_some_iff.mp h
  have hcall : pool.step (.call c sql outcome.log) = some pool₁ := hcall
  split at h
  · obtain ⟨pool₂, hperform, hfinish⟩ := Option.bind_eq_some_iff.mp h
    have hfinish : pool₂.step (.finish c outcome.log) = some pool' := hfinish
    obtain ⟨pool₃, henter, hproceed⟩ := Option.bind_eq_some_iff.mp hperform
    have henter : pool₁.step (.enter c outcome.persist) = some pool₃ := henter
    split at hproceed
    · obtain rfl := Option.some.inj hproceed
      refine ⟨[.call c sql outcome.log, .enter c outcome.persist, .finish c outcome.log], ?_⟩
      rw [hone, hcall, Option.bind_some, hone, henter, Option.bind_some, hone, hfinish]
      rfl
    · have hproceed : pool₃.step (.proceed c outcome.persist) = some pool₂ := hproceed
      refine ⟨[.call c sql outcome.log, .enter c outcome.persist, .proceed c outcome.persist,
        .finish c outcome.log], ?_⟩
      rw [hone, hcall, Option.bind_some, hone, henter, Option.bind_some, hone, hproceed,
        Option.bind_some, hone, hfinish]
      rfl
  · obtain rfl := Option.some.inj h
    refine ⟨[.call c sql outcome.log], ?_⟩
    rw [hone, hcall]
    rfl

/-- **Where a statement goes on behind its first critical section**: it has returned, or it goes
through the second one. -/
theorem enterStatement_proceeds (shared : SharedDatabase) (n : Nat) (tx : Option TransactionState)
    (statement : Statement) (persist : Option Error) :
    (∃ result, (enterStatement shared n tx statement persist).1 = .returned statement result) ∨
      (∀ statement' result,
        (enterStatement shared n tx statement persist).1 ≠ .returned statement' result) ∧
      ∃ result shared' tx', proceedStatement (enterStatement shared n tx statement persist).2.1
        (enterStatement shared n tx statement persist).2.2.2
        (enterStatement shared n tx statement persist).1 persist =
          some (.returned statement result, shared', tx') := by
  rcases hcontrol : statement.isTransactionControl with _ | _
  · rw [enterStatement_eq hcontrol]
    split
    · rcases tx with _ | state
      · rw [if_neg (by simp)]
        split
        · exact .inl ⟨_, rfl⟩
        · exact .inr ⟨fun _ _ h ↦ (by cases h), _, _, _, rfl⟩
      · exact .inl ⟨_, rfl⟩
    · rcases tx with _ | state
      · exact .inl ⟨_, rfl⟩
      · dsimp only
        rcases lockStatementRows shared statement state with ⟨error | _, shared', state'⟩
        · exact .inl ⟨_, rfl⟩
        · exact .inr ⟨fun _ _ h ↦ (by cases h), _, _, _, rfl⟩
  · cases statement <;> first | exact .inl ⟨_, rfl⟩ | cases hcontrol

/-- **The pool is used by one connection only**, which is in no call. -/
structure Alone (pool : ConnectionPool) (c : Nat) (db : RelationalDatabase) : Prop where
  /-- The pool says what the database says. -/
  agrees : ∃ model, pool.Says model ∧ model.Solo c db
  options_eq : db.options = {}
  /-- The connection is ready for a call. -/
  connection : ∃ connection, pool.connections[c]? = some connection ∧ connection.phase = .idle ∧
    connection.cachePoisoned = false ∧ CacheOk db.options.sqlDialect connection.statementCache

/-- **A statement is performed as in a database.** -/
theorem perform_solo {model : RelationalPool} {db : RelationalDatabase} {connection : Connection}
    {statement : Statement} (hsaid : pool.Says model) (hsolo : model.Solo c db)
    (hconnection : pool.connections[c]? = some connection)
    (hphase : connection.phase = .called statement)
    (hportable : statement.Portable db.working.isSome)
    (hfinite : ∀ table columns values, statement = .insert table columns values →
      ∀ value ∈ values, value.isFinite = true) (persist : Option Error) :
    ∃ (pool' : ConnectionPool) (connection' : Connection) (model' : RelationalPool),
      pool.perform c persist = some pool' ∧
      pool'.connections[c]? = some { connection' with
        phase := .returned statement (db.executeParsed statement persist).1
        statementCache := connection.statementCache
        cachePoisoned := connection.cachePoisoned } ∧
      pool'.Says model' ∧ model'.Solo c (db.executeParsed statement persist).2 := by
  have hentered : pool.enter c persist = some { pool with
      shared := (enterStatement pool.shared pool.nextTransactionId connection.transaction statement
        persist).2.1
      nextTransactionId := (enterStatement pool.shared pool.nextTransactionId
        connection.transaction statement persist).2.2.1
      connections := pool.connections.insert c { connection with
        phase := (enterStatement pool.shared pool.nextTransactionId connection.transaction
          statement persist).1
        transaction := (enterStatement pool.shared pool.nextTransactionId connection.transaction
          statement persist).2.2.2 } } := by
    rw [enter, hconnection]
    simp only [hphase]
  have hproceeds := enterStatement_proceeds pool.shared pool.nextTransactionId
    connection.transaction statement persist
  generalize enterStatement pool.shared pool.nextTransactionId connection.transaction statement
    persist = entered at hentered hproceeds
  obtain ⟨phase, shared, n, tx⟩ := entered
  have hnew {connections : BTreeMap Nat Connection} (connection' : Connection) :
      (connections.insert c connection')[c]? = some connection' := by
    rw [BTree.getElem?_insert, if_pos rfl]
  -- what is seen of a step that returns is what the database does
  have hreturns {p p' : ConnectionPool} {action : PoolAction} {connection' : Connection}
      {result : Result QueryResult}
      (haction : action = .enter c persist ∨ action = .proceed c persist) (hsaid : p.Says model)
      (hstep : p.step action = some p') (hentry : p'.connections[c]? = some connection')
      (hphase' : connection'.phase = .returned statement result) :
      result = (db.executeParsed statement persist).1 ∧
        ∃ model', p'.Says model' ∧ model'.Solo c (db.executeParsed statement persist).2 := by
    have hreturned : p'.phaseOf c = some (.returned statement result) :=
      (phaseOf_eq hentry).trans (congrArg some hphase')
    have hsee := @Says.see_returned p p' c persist action statement result haction hreturned
    rcases hsaid.step hstep with ⟨hnone, -⟩ | ⟨event, model', hevent, hmodel, hsaid'⟩
    · rw [hsee] at hnone
      cases hnone
    · obtain rfl := Option.some.inj (hsee.symm.trans hevent)
      obtain ⟨hresult, hsolo'⟩ := hsolo.performed hportable hfinite hmodel
      exact ⟨hresult, model', hsaid', hsolo'⟩
  rcases hproceeds with ⟨result, hreturned⟩ | ⟨hnot, result, shared', tx', hproceed⟩
  · dsimp only at hreturned
    subst hreturned
    obtain ⟨rfl, model', hsaid', hsolo'⟩ := hreturns (.inl rfl) hsaid hentered
      (hnew _) rfl
    refine ⟨_, { connection with transaction := tx }, model', ?_, hnew _, hsaid', hsolo'⟩
    rw [perform, hentered]
    simp only [Option.bind_eq_bind, Option.bind_some, phaseOf_insert]
  · dsimp only at hnot hproceed
    set entered : ConnectionPool := { pool with
      shared, nextTransactionId := n
      connections := pool.connections.insert c { connection with phase, transaction := tx } }
      with hdef
    have hentry : entered.connections[c]? = some { connection with phase, transaction := tx } :=
      hnew _
    have hsaid' : entered.Says model := by
      rcases @Says.step _ pool entered model (.enter c persist) hsaid hentered with
        ⟨-, hsaid'⟩ | ⟨event, model', hevent, -⟩
      · exact hsaid'
      · exfalso
        rw [see, phaseOf_eq hentry] at hevent
        split at hevent
        · rename_i heq
          exact hnot _ _ (Option.some.inj heq)
        · cases hevent
    have hproceeded : entered.proceed c persist = some { entered with
        shared := shared'
        connections := entered.connections.insert c { connection with
          phase := .returned statement result, transaction := tx' } } := by
      rw [proceed, hentry]
      dsimp only
      rw [show entered.shared = shared from rfl, hproceed]
    obtain ⟨rfl, model', hsaid'', hsolo'⟩ := hreturns (.inr rfl) hsaid' hproceeded
      (hnew _) rfl
    refine ⟨_, { connection with transaction := tx' }, model', ?_, hnew _, hsaid'', hsolo'⟩
    rw [perform, hentered]
    simp only [Option.bind_eq_bind, Option.bind_some, phaseOf_eq hentry]
    split
    · rename_i heq
      exact absurd (Option.some.inj heq) (hnot _ _)
    · exact hproceeded

/-- **A call is answered as by a database.** -/
theorem Alone.execute {db : RelationalDatabase} (h : pool.Alone c db) {sql : String}
    {outcome : Outcome} (htakes : db.Takes (sql, outcome)) :
    ∃ pool', pool.execute c sql outcome = some pool' ∧
      pool'.lastResult c = some (db.execute sql outcome).1 ∧
        pool'.Alone c (db.execute sql outcome).2 := by
  obtain ⟨⟨model, hsaid, hsolo⟩, hoptions, ⟨tx, cache, poisoned, phase, last⟩, hconnection, rfl,
    rfl, hcache⟩ := h
  have hnew {connections : BTreeMap Nat Connection} (connection' : Connection) :
      (connections.insert c connection')[c]? = some connection' := by
    rw [BTree.getElem?_insert, if_pos rfl]
  have hsettings : pool.shared.database.options = db.options :=
    hsaid.options_eq.trans hsolo.options_eq
  have hcall (connection : Connection)
      (h : pool.callConnection ⟨tx, cache, false, .idle, last⟩ sql outcome.log = connection) :
      pool.call c sql outcome.log =
        some { pool with connections := pool.connections.insert c connection } := by
    rw [call, hconnection, ← h]
  have hsilent {connection : Connection}
      (h : pool.call c sql outcome.log =
        some { pool with connections := pool.connections.insert c connection }) :=
    @Says.silent _ pool _ model c (.call c sql outcome.log) hsaid h
      (.inr (.inl ⟨sql, outcome.log, rfl⟩))
  obtain ⟨hparse, hcache'⟩ := parseWithCache_eq hcache db.options.cacheCapacity sql
  rw [RelationalDatabase.Takes, ← hparse] at htakes
  rcases hcached : parseWithCache cache db.options.cacheCapacity sql db.options.sqlDialect with
    ⟨fault | statement, cache'⟩ <;> rw [hcached] at hparse hcache' htakes
  · have hcalled := hcall ⟨tx, cache', decide (fault = .panic), .idle, some (.error fault)⟩ <| by
      rw [callConnection, if_neg Bool.false_ne_true]
      simp only [hsettings, hcached]
    have hexecute : db.execute sql outcome = (.error fault, db) := by
      rw [RelationalDatabase.execute, ← hparse]
    rw [hexecute]
    refine ⟨_, ?_, ?_, ⟨⟨model, hsilent hcalled, hsolo⟩, hoptions, _, hnew _, rfl,
      decide_eq_false htakes, hcache'⟩⟩
    · rw [ConnectionPool.execute, hcalled]
      simp only [Option.bind_eq_bind, Option.bind_some, phaseOf_insert]
    · rw [lastResult, hnew]
      rfl
  · obtain ⟨hbefore, -⟩ := RelationalDatabase.log_eq_ok hoptions statement outcome.log
    have hlog : pool.shared.database.logBefore statement outcome.log = .ok () := by
      rw [← hbefore, RelationalDatabase.logBefore, Database.logBefore, hsettings]
    have hcalled := hcall ⟨tx, cache', false, .called statement, last⟩ <| by
      rw [callConnection, if_neg Bool.false_ne_true]
      simp only [hsettings, hcached, hlog]
    obtain ⟨pool₂, connection₂, model', hperform, hreturned, hsaid', hsolo'⟩ :=
      perform_solo (hsilent hcalled) hsolo (hnew _) rfl htakes (fun table columns values hinsert ↦
        isFinite_of_parseSqlWithDialect (hinsert ▸ hparse.symm)) outcome.persist
    have hoptions' := (db.options_executeParsed statement outcome.persist).trans hoptions
    rw [RelationalDatabase.execute_eq hoptions hparse.symm]
    generalize db.executeParsed statement outcome.persist = executed at hreturned hsolo' hoptions' ⊢
    obtain ⟨result, db'⟩ := executed
    have hlog' : pool₂.shared.database.logAfter statement outcome.log = .ok () := by
      rw [← (RelationalDatabase.log_eq_ok hoptions' statement outcome.log).2,
        RelationalDatabase.logAfter, Database.logAfter, hsaid'.options_eq, hsolo'.options_eq]
    have hfinal : pool₂.finalResult statement result outcome.log = result := by
      rcases result with error | result
      · rfl
      · simp only [finalResult, hlog']
        rfl
    have hfinish : pool₂.finish c outcome.log = some { pool₂ with
        connections := pool₂.connections.insert c { connection₂ with
          phase := .idle
          statementCache := cache'
          cachePoisoned := false
          lastResult := some (result.mapError .error) } } := by
      rw [finish, hreturned]
      dsimp only
      rw [hfinal]
    have hsaid'' := @Says.silent _ pool₂ _ model' c (.finish c outcome.log) hsaid' hfinish
      (.inr (.inr ⟨outcome.log, rfl⟩))
    refine ⟨_, ?_, ?_, ⟨⟨model', hsaid'', hsolo'⟩, hoptions', _, hnew _, rfl, rfl, ?_⟩⟩
    · rw [ConnectionPool.execute, hcalled]
      simp only [Option.bind_eq_bind, Option.bind_some, phaseOf_insert, hperform, hfinish]
    · rw [lastResult, hnew]
      rfl
    · rw [show db'.options = db.options from hoptions'.trans hoptions.symm]
      exact hcache'

/-- **A connection that is alone is the relational database.** -/
theorem simulates_relational :
    Service.Simulates (service c) (Service.map RelationalDatabase.service some)
      RelationalDatabase.Takes (Alone · c ·) := by
  intro pool db action halone htakes
  obtain ⟨pool', hexecute, hresult, halone'⟩ := halone.execute htakes
  have hservice : service c pool action = (pool'.lastResult c, pool') := by
    rw [service, hexecute]
  rw [hservice, Service.map_apply]
  exact ⟨hresult, halone'⟩

/-- The first connection that is checked out is alone. -/
theorem alone_get {maxConnections : Nat} {fresh : ConnectionPool}
    (hfresh : fromDatabase .memory maxConnections = .ok fresh) (hget : fresh.get c = some pool) :
    pool.Alone c (.empty none {}) := by
  have himplements := Database.implements_empty none {}
  have hstart : fresh.Says (.start (.empty none {})) :=
    says_start rfl rfl ⟨⟨_, maxConnections, himplements, hfresh⟩, ?_⟩
  · have hsaid := @Says.silent _ fresh pool _ c (.get c) hstart hget (.inl rfl)
    refine ⟨⟨_, hsaid, ⟨rfl, rfl⟩, rfl, rfl, rfl, ?_, fun _ _ ↦ rfl, rfl, ?_⟩, rfl, ?_⟩
    · rintro session ⟨⟩
    · rintro relations (rfl | hworking) name hname
      · cases ExtTreeMap.not_mem_empty hname
      · cases hworking
    · rw [get] at hget
      split at hget
      · cases hget
      · obtain rfl := Option.some.inj hget
        refine ⟨{}, ?_, rfl, rfl, cacheOk_empty _⟩
        show (fresh.connections.insert c {})[c]? = _
        rw [BTree.getElem?_insert, if_pos rfl]
  · rw [fromDatabase] at hfresh
    split at hfresh
    · cases hfresh
    · obtain rfl := Except.ok.inj hfresh
      exact Catalog.all_empty _

/-- **A pool with one connection answers as a database**: what is sent to the only connection that
is ever taken from a pool in memory, and to a database in memory, is answered alike. -/
theorem answers_solo {maxConnections : Nat} {fresh : ConnectionPool}
    (hfresh : fromDatabase .memory maxConnections = .ok fresh) (hget : fresh.get c = some pool)
    {calls : List (String × Outcome)} (h : Database.service.Along Database.Takes .memory calls) :
    (service c).answers pool calls = (Database.service.answers .memory calls).map some := by
  have himplements : Database.memory.ImplementsInMemory (.empty none {}) :=
    ⟨Database.implements_empty none {}, rfl⟩
  have halong := Database.simulates_inMemory.along Database.takes_relational himplements h
  calc (service c).answers pool calls
    _ = (Service.map RelationalDatabase.service some).answers (.empty none {}) calls :=
      (simulates_relational.run (alone_get hfresh hget) (Service.along_map some halong)).1
    _ = (RelationalDatabase.service.answers (.empty none {}) calls).map some :=
      Service.answers_map _ _ _ _
    _ = (Database.service.answers .memory calls).map some :=
      congrArg _ (Database.simulates_inMemory.run himplements halong).1.symm

end ConnectionPool

end Platform

namespace ConnectionPool

/-- A row id is drawn twice by a pool and once by a database. -/
def soloCalls : List (String × Outcome) :=
  ["CREATE TABLE t (a INT)", "BEGIN", "INSERT INTO t VALUES (1)", "ROLLBACK", "BEGIN",
    "INSERT INTO t VALUES (2)", "INSERT INTO u VALUES (3)", "UPDATE t SET a = 4", "COMMIT",
    "SELECT * FROM t"].map (·, {})

theorem answers_soloCalls : ∃ fresh pool, @fromDatabase .memory 2 = .ok fresh ∧
    fresh.get 0 = some pool ∧
    (@service Platform.ascii 0).answers pool soloCalls =
      ((@Database.service Platform.ascii).answers .memory soloCalls).map some :=
  have ⟨pool, hget⟩ : ∃ pool, (memory 2).get 0 = some pool := ⟨_, rfl⟩
  ⟨memory 2, pool, rfl, hget,
    @answers_solo Platform.ascii pool 0 2 (memory 2) rfl hget _ (by decide +kernel)⟩

end ConnectionPool

end Fsql
