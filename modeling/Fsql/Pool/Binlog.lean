import Fsql.Pool.Invariant
import Fsql.Replay

/-!
# The binlog of a pool

Executing a statement outside a transaction and appending its record to the binlog are two steps,
and between them the shared state is unlocked.  `ConnectionPool.binlogged` records beside a run the
binlog and the statements that have been carried out and are not yet in it.

`ConnectionPool.replaysTo_of_reachableVia` — as long as the records are appended in the order in
which the statements were carried out, the binlog replays to the committed catalog.
`ConnectionPool.not_replaysTo` — two updates of a row can be logged in the other order.
-/

set_option autoImplicit false

namespace Fsql

/-- **What is recorded of the binlog.** -/
structure BinlogHistory where
  /-- The texts in its records. -/
  log : List String
  /-- The text each connection was last called with. -/
  text : Nat → String
  /-- The connections whose statement has been carried out and has no record yet, in the order in
  which the statements were carried out. -/
  pending : List Nat

/-- The statement of a call. -/
def Phase.statement : Phase → Option Statement
  | .idle => none
  | .called statement | .admitted statement | .locked statement | .returned statement _ =>
    some statement

/-- A statement has been carried out that is to be logged. -/
def Phase.carriedOut : Phase → Bool
  | .returned statement (.ok _) => statement.mutatesCatalog || statement.isTransactionControl
  | _ => false

namespace ConnectionPool

/-- The connection has carried out a statement that is to be logged. -/
def carriedOut (pool : ConnectionPool) (c : Nat) : Bool := (pool.phaseOf c).any Phase.carriedOut

/-- The history after a step. -/
def nextBinlog (pool : ConnectionPool) (history : BinlogHistory) (action : PoolAction)
    (pool' : ConnectionPool) : BinlogHistory :=
  match action with
  | .call c sql _ => { history with text := Function.update history.text c sql }
  | .enter c _ | .proceed c _ =>
    if pool'.carriedOut c then { history with pending := history.pending ++ [c] } else history
  | .finish c log =>
    if pool.carriedOut c then
      { history with
        log := if pool.shared.database.options.binlogPath.isSome && log.binlog.isNone then
            history.log ++ [escape (history.text c)]
          else history.log
        pending := history.pending.erase c }
    else history
  | _ => history

section Platform

variable [Platform]

/-- **The runs of a pool** on an empty database. -/
def fresh (options : DatabaseOptions) : Machine ConnectionPool PoolAction where
  init pool := ∃ database maxConnections, (Database.fresh options).init database ∧
    fromDatabase database maxConnections = .ok pool
  step := step

/-- **The pool with its binlog.** -/
def binlogged (options : DatabaseOptions) : Machine (ConnectionPool × BinlogHistory) PoolAction :=
  (fresh options).withHistory (fun _ ↦ ⟨[], fun _ ↦ "", []⟩) nextBinlog

/-- The phase in which a connection is about to open a transaction. -/
def isBegin : Option Phase → Bool
  | some (.called .begin) => true
  | _ => false

/-- No transaction is opened. -/
def AutoCommit (pool : ConnectionPool) (action : PoolAction) : Prop :=
  match action with
  | .enter c _ => isBegin (pool.phaseOf c) = false
  | _ => True

/-- A record is appended, and it is that of the statement that was carried out first. -/
def InOrder (pool : ConnectionPool) (history : BinlogHistory) (action : PoolAction) : Prop :=
  match action with
  | .finish c log => pool.carriedOut c = true →
      log.binlog.isNone = true ∧ history.pending.head? = some c
  | _ => True

instance decidableAutoCommit (pool : ConnectionPool) (action : PoolAction) :
    Decidable (pool.AutoCommit action) :=
  match action with
  | .enter c _ => inferInstanceAs (Decidable (isBegin (pool.phaseOf c) = false))
  | .get _ | .drop _ | .call .. | .proceed .. | .finish .. => inferInstanceAs (Decidable True)

instance decidableInOrder (pool : ConnectionPool) (history : BinlogHistory) (action : PoolAction) :
    Decidable (pool.InOrder history action) :=
  match action with
  | .finish c _ => inferInstanceAs (Decidable (pool.carriedOut c = true → _ ∧ _))
  | .get _ | .drop _ | .call .. | .enter .. | .proceed .. => inferInstanceAs (Decidable True)

/-- All calls have returned. -/
def Quiescent (pool : ConnectionPool) : Prop :=
  ∀ p ∈ pool.connections.toList, p.2.phase.statement.isNone = true

instance decidableQuiescent (pool : ConnectionPool) : Decidable pool.Quiescent := by
  unfold Quiescent
  infer_instance

/-- **The binlog replays to the committed rows**: its texts can be executed on an empty database, in
order, and lead to tables with the same rows. -/
def ReplaysTo (options : DatabaseOptions) (log : List String) (catalog : Catalog) : Prop :=
  ∀ texts db₀, log = texts.map escape → (Database.fresh options).init db₀ →
    ∃ replica, db₀.replay texts = some replica ∧ ∀ name : String,
      replica.catalog.tables[name]?.map (·.rows) = catalog.tables[name]?.map (·.rows)

/-! ## One statement -/

/-- A statement outside a transaction fails and changes nothing, or is executed on the committed
catalog. -/
theorem executeShared_cases {shared : SharedDatabase} (h : shared.database.transaction = none)
    (statement : Statement) (persist : Option Error) :
    (∃ error, executeShared shared statement persist = (.error error, shared)) ∨
    ∃ result, (executeStatementWithOptions shared.database.catalog statement
        (tableRuntimeOptions shared.database.options)).1 = .ok result ∧
      executeShared shared statement persist = (.ok result, { shared with
        database := { shared.database with
          catalog := (executeStatementWithOptions shared.database.catalog statement
            (tableRuntimeOptions shared.database.options)).2 } }) := by
  have hback (catalog : Catalog) : { shared with
      database := { shared.database with catalog }.replaceCatalog shared.database.catalog } =
        shared := by
    rw [Database.replaceCatalog, ← h]
  rw [executeShared]
  dsimp only
  rcases hexecuted : executeStatementWithOptions shared.database.catalog statement
    (tableRuntimeOptions shared.database.options) with ⟨error | result, catalog⟩
  · exact .inl ⟨error, by rw [hback]⟩
  · dsimp only
    simp only [Database.persist]
    rcases appendOptionalLine shared.database.path persist with error | _
    · exact .inl ⟨error, by rw [hback]⟩
    · exact .inr ⟨result, rfl, rfl⟩

/-- What a text does that is executed on its own: the statement it parses to is executed on the
committed catalog. -/
theorem execute_mutating {options : DatabaseOptions} {db : Database} {sql : String}
    {statement : Statement} {result : QueryResult} (hdb : db.Parses options)
    (hnone : db.transaction = none)
    (hparse : parseSqlWithDialect sql options.sqlDialect = .ok statement)
    (hmutates : statement.mutatesCatalog = true)
    (hexecuted : (executeStatementWithOptions db.catalog statement
      (tableRuntimeOptions options)).1 = .ok result) :
    ∃ db', db.execute sql {} = (.ok result, db') ∧ db'.Parses options ∧ db'.transaction = none ∧
      db'.catalog = (executeStatementWithOptions db.catalog statement
        (tableRuntimeOptions options)).2 := by
  obtain ⟨hstatement, hparsed⟩ := hdb.parseStatement sql
  rw [hparse] at hstatement
  have hcatalog : (db.parseStatement sql).2.executeParsed statement none =
      (.ok result, { (db.parseStatement sql).2 with
        catalog := (executeStatementWithOptions db.catalog statement
          (tableRuntimeOptions options)).2 }) := by
    have hstep : (db.parseStatement sql).2.executeCatalogStatement statement none =
        (.ok result, { (db.parseStatement sql).2 with
          catalog := (executeStatementWithOptions db.catalog statement
            (tableRuntimeOptions options)).2 }) := by
      have hsame : (db.parseStatement sql).2.catalog = db.catalog := rfl
      have hnone' : (db.parseStatement sql).2.transaction = none := hnone
      rw [Database.executeCatalogStatement, hnone', hparsed.options_eq, hsame]
      dsimp only
      rw [if_pos hmutates, hexecuted]
      simp only [Database.persist, appendOptionalLine_none, hnone', hparsed.options_eq]
    cases statement <;> first | exact hstep | cases hmutates
  refine ⟨_, ?_, hparsed.executeParsed statement none, ?_, ?_⟩
  · rw [(Database.execute_ok hstatement).1, hcatalog]
    rfl
  · rw [hcatalog]
    exact hnone
  · rw [hcatalog]

/-! ## The invariant -/

/-- **The invariant of a pool and its binlog**: with the records that are outstanding, the binlog
replays to the committed catalog. -/
structure Binlogged (options : DatabaseOptions) (db₀ : Database) (pool : ConnectionPool)
    (history : BinlogHistory) : Prop where
  /-- The options are the ones the database was opened with. -/
  options_eq : pool.shared.database.options = options
  /-- The database has no transaction of its own. -/
  inner : pool.shared.database.transaction = none
  /-- No connection has one. -/
  noTransaction (c : Nat) : pool.transactionOf c = none
  /-- A cached statement is the one its text parses to. -/
  cacheOk (c : Nat) (connection : Connection) : pool.connections[c]? = some connection →
    CacheOk options.sqlDialect connection.statementCache
  /-- The statement of a call is the one its text parses to. -/
  text (c : Nat) (connection : Connection) (statement : Statement) :
    pool.connections[c]? = some connection → connection.phase.statement = some statement →
      parseSqlWithDialect (history.text c) options.sqlDialect = .ok statement
  /-- The records that are outstanding. -/
  pending (c : Nat) : c ∈ history.pending ↔ pool.carriedOut c = true
  /-- No call has two of them. -/
  nodup : history.pending.Nodup
  /-- The replay. -/
  replay : ∃ texts replica,
    history.log ++ history.pending.map (fun c ↦ escape (history.text c)) = texts.map escape ∧
      db₀.replay texts = some replica ∧ replica.Parses options ∧ replica.transaction = none ∧
        replica.catalog = pool.committed

namespace Binlogged

variable {options : DatabaseOptions} {db₀ : Database} {pool pool' : ConnectionPool}
  {history : BinlogHistory}

omit [Platform] in
theorem carriedOut_eq {c : Nat} {connection : Connection}
    (h : pool.connections[c]? = some connection) :
    pool.carriedOut c = connection.phase.carriedOut := by
  rw [carriedOut, phaseOf_eq h, Option.any_some]

/-- **A connection goes on**, and the others stay. -/
theorem replace (h : Binlogged options db₀ pool history) {c n permits : Nat}
    {shared : SharedDatabase} {connection : Connection} {history' : BinlogHistory}
    (hoptions : shared.database.options = options) (hinner : shared.database.transaction = none)
    (hnone : connection.transaction = none)
    (hcache : CacheOk options.sqlDialect connection.statementCache)
    (htext : ∀ statement, connection.phase.statement = some statement →
      parseSqlWithDialect (history'.text c) options.sqlDialect = .ok statement)
    (htexts : ∀ c', c' ≠ c → history'.text c' = history.text c')
    (hself : c ∈ history'.pending ↔ connection.phase.carriedOut = true)
    (hothers : ∀ c', c' ≠ c → (c' ∈ history'.pending ↔ c' ∈ history.pending))
    (hnodup : history'.pending.Nodup)
    (hreplay : ∃ texts replica,
      history'.log ++ history'.pending.map (fun c ↦ escape (history'.text c)) = texts.map escape ∧
        db₀.replay texts = some replica ∧ replica.Parses options ∧ replica.transaction = none ∧
          replica.catalog = shared.database.catalog) :
    Binlogged options db₀ { pool with
      shared, permits
      nextTransactionId := n
      connections := pool.connections.insert c connection } history' := by
  have hget (c' : Nat) : (pool.connections.insert c connection)[c']? =
      if c = c' then some connection else pool.connections[c']? := BTree.getElem?_insert _ _ _ _
  have hcarried (c' : Nat) (hne : c' ≠ c) : carriedOut { pool with
      shared, permits
      nextTransactionId := n
      connections := pool.connections.insert c connection } c' = pool.carriedOut c' := by
    rw [carriedOut, phaseOf, hget, if_neg (Ne.symm hne), ← phaseOf, ← carriedOut]
  refine ⟨hoptions, hinner, fun c' ↦ ?_, fun c' connection' hc' ↦ ?_,
    fun c' connection' statement hc' hstatement ↦ ?_, fun c' ↦ ?_, hnodup, hreplay⟩
  · by_cases hne : c = c'
    · rw [transactionOf, hget, if_pos hne, Option.bind_some, hnone]
    · rw [transactionOf, hget, if_neg hne]
      exact h.noTransaction c'
  · rw [hget] at hc'
    split at hc'
    · obtain rfl := Option.some.inj hc'
      exact hcache
    · exact h.cacheOk c' connection' hc'
  · rw [hget] at hc'
    split at hc'
    · rename_i heq
      subst heq
      obtain rfl := Option.some.inj hc'
      exact htext statement hstatement
    · rename_i hne
      rw [htexts c' (Ne.symm hne)]
      exact h.text c' connection' statement hc' hstatement
  · by_cases hne : c' = c
    · subst hne
      rw [hself, carriedOut_eq (by rw [hget, if_pos rfl])]
    · rw [hothers c' hne, hcarried c' hne, h.pending c']

/-- **A statement is executed on the committed catalog**, and its record is outstanding if it
succeeds. -/
theorem execute (h : Binlogged options db₀ pool history) {c : Nat} {connection : Connection}
    {statement : Statement} (hc : pool.connections[c]? = some connection)
    (hstatement : connection.phase.statement = some statement)
    (hbusy : connection.phase.carriedOut = false) (persist : Option Error) :
    let (result, shared) := executeShared pool.shared statement persist
    let pool' := { pool with
      shared
      connections := pool.connections.insert c
        { connection with phase := .returned statement result } }
    Binlogged options db₀ pool' (if pool'.carriedOut c then
      { history with pending := history.pending ++ [c] } else history) := by
  have hnone : connection.transaction = none := by
    rw [← transactionOf_eq hc]
    exact h.noTransaction c
  have hfree : c ∉ history.pending := by
    rw [h.pending c, carriedOut_eq hc, hbusy]
    exact Bool.false_ne_true
  have hparse := h.text c connection statement hc hstatement
  have hnew (connection' : Connection) :
      (pool.connections.insert c connection')[c]? = some connection' := by
    rw [BTree.getElem?_insert, if_pos rfl]
  rcases executeShared_cases h.inner statement persist with ⟨error, heq⟩ | ⟨result, hexecuted, heq⟩
  · rw [heq]
    dsimp only
    rw [if_neg (by rw [carriedOut_eq (hnew _)]; exact Bool.false_ne_true)]
    refine h.replace h.options_eq h.inner hnone (h.cacheOk c connection hc) ?_ (fun _ _ ↦ rfl)
      ⟨fun hmem ↦ absurd hmem hfree, fun hout ↦ by cases hout⟩ (fun _ _ ↦ Iff.rfl) h.nodup h.replay
    intro statement' hstatement'
    obtain rfl := Option.some.inj hstatement'
    exact hparse
  · rw [heq]
    dsimp only
    have hcontrol : statement.isTransactionControl = false := by
      cases statement <;> first | rfl | cases hexecuted
    have htext : ∀ statement', (Phase.returned statement (.ok result)).statement = some statement' →
        parseSqlWithDialect (history.text c) options.sqlDialect = .ok statement' := by
      intro statement' hstatement'
      obtain rfl := Option.some.inj hstatement'
      exact hparse
    rw [carriedOut_eq (hnew _), Phase.carriedOut, hcontrol, Bool.or_false]
    rcases hmutates : statement.mutatesCatalog
    · -- what only reads leaves the catalog alone
      have hsame := @executeStatement_of_not_mutates _ _ hmutates pool.shared.database.catalog
        (tableRuntimeOptions pool.shared.database.options)
      rw [if_neg Bool.false_ne_true, hsame]
      refine h.replace h.options_eq h.inner hnone (h.cacheOk c connection hc) htext (fun _ _ ↦ rfl)
        ⟨fun hmem ↦ absurd hmem hfree, fun hout ↦ ?_⟩ (fun _ _ ↦ Iff.rfl) h.nodup h.replay
      rw [Phase.carriedOut, hmutates, hcontrol] at hout
      cases hout
    · -- the replica executes the text once more
      rw [if_pos rfl]
      obtain ⟨texts, replica, hlog, hreplay, hreplica, hreplicaNone, hcatalog⟩ := h.replay
      rw [committed] at hcatalog
      rw [← hcatalog, h.options_eq] at hexecuted
      obtain ⟨replica', hexecute, hreplica', hnone', hcatalog'⟩ :=
        execute_mutating hreplica hreplicaNone hparse hmutates hexecuted
      refine h.replace h.options_eq h.inner hnone (h.cacheOk c connection hc) htext (fun _ _ ↦ rfl)
        ⟨fun _ ↦ ?_, fun _ ↦ List.mem_concat_self⟩ (fun c' hne ↦ ?_) ?_
        ⟨texts ++ [history.text c], replica', ?_, Database.replay_concat hreplay hexecute,
          hreplica',
          hnone', by rw [hcatalog', hcatalog, h.options_eq]⟩
      · rw [Phase.carriedOut, hmutates, Bool.true_or]
      · rw [List.mem_append, List.mem_singleton]
        exact or_iff_left hne
      · rw [List.nodup_append]
        refine ⟨h.nodup, List.nodup_singleton c, fun c' hmem c'' hmem' ↦ ?_⟩
        rw [List.mem_singleton] at hmem'
        rintro rfl
        exact hfree (hmem' ▸ hmem)
      · rw [List.map_append, ← List.append_assoc, hlog, List.map_append]
        rfl

/-- A connection that is not there, or is not back from its statement, has no record outstanding. -/
theorem not_pending (h : Binlogged options db₀ pool history) {c : Nat}
    (hidle : pool.carriedOut c = false) : c ∉ history.pending := by
  rw [h.pending c, hidle]
  exact Bool.false_ne_true

theorem get (h : Binlogged options db₀ pool history) {c : Nat} (hget : pool.get c = some pool') :
    Binlogged options db₀ pool' history := by
  rw [ConnectionPool.get] at hget
  split at hget
  · cases hget
  · rename_i hfree
    rw [not_or, Std.ExtTreeMap.mem_iff_isSome_getElem?, Option.not_isSome_iff_eq_none] at hfree
    cases hget
    have hidle : pool.carriedOut c = false := by rw [carriedOut, phaseOf, hfree.2]; rfl
    exact h.replace h.options_eq h.inner rfl (cacheOk_empty _) (fun _ hnone ↦ by cases hnone)
      (fun _ _ ↦ rfl) ⟨fun hmem ↦ absurd hmem (h.not_pending hidle), fun hout ↦ by cases hout⟩
      (fun _ _ ↦ Iff.rfl) h.nodup h.replay

theorem drop (h : Binlogged options db₀ pool history) {c : Nat} (hdrop : pool.drop c = some pool') :
    Binlogged options db₀ pool' history := by
  rw [ConnectionPool.drop] at hdrop
  split at hdrop
  · rename_i transaction statementCache cachePoisoned lastResult hc
    have hnone := h.noTransaction c
    rw [transactionOf_eq hc] at hnone
    dsimp only at hnone
    subst hnone
    cases hdrop
    have hget (c' : Nat) : (pool.connections.erase c)[c']? =
        if c = c' then none else pool.connections[c']? := BTree.getElem?_erase _ _ _
    refine ⟨h.options_eq, h.inner, fun c' ↦ ?_, fun c' connection' hc' ↦ ?_,
      fun c' connection' statement hc' hstatement ↦ ?_, fun c' ↦ ?_, h.nodup, h.replay⟩
    · rw [transactionOf, hget]
      split
      · rfl
      · exact h.noTransaction c'
    · rw [hget] at hc'
      split at hc'
      · cases hc'
      · exact h.cacheOk c' connection' hc'
    · rw [hget] at hc'
      split at hc'
      · cases hc'
      · exact h.text c' connection' statement hc' hstatement
    · rw [h.pending c', carriedOut, carriedOut, phaseOf, phaseOf, hget]
      by_cases hcc' : c = c'
      · subst hcc'
        rw [if_pos rfl, hc]
        exact Iff.rfl
      · rw [if_neg hcc']
  · cases hdrop

theorem call (h : Binlogged options db₀ pool history) {c : Nat} {sql : String} {log : LogOutcome}
    (hcall : pool.call c sql log = some pool') :
    Binlogged options db₀ pool' { history with text := Function.update history.text c sql } := by
  rw [ConnectionPool.call] at hcall
  split at hcall
  · rename_i transaction statementCache cachePoisoned lastResult hc
    cases hcall
    have hidle : c ∉ history.pending := h.not_pending (carriedOut_eq hc)
    have htexts (c' : Nat) (hne : c' ≠ c) : Function.update history.text c sql c' =
      history.text c' :=
      Function.update_of_ne hne _ _
    have hpending : history.pending.map (fun c' ↦ escape (Function.update history.text c sql c')) =
        history.pending.map fun c' ↦ escape (history.text c') :=
      List.map_congr_left fun c' hmem ↦ by rw [htexts c' fun heq ↦ hidle (heq ▸ hmem)]
    -- whatever becomes of the text, no statement has been carried out
    have hreplace (connection : Connection)
        (hcache : CacheOk options.sqlDialect connection.statementCache)
        (hnone : connection.transaction = none)
        (hphase : ∀ statement, connection.phase.statement = some statement →
          parseSqlWithDialect sql options.sqlDialect = .ok statement)
        (hout : connection.phase.carriedOut = false) :
        Binlogged options db₀ { pool with connections := pool.connections.insert c connection }
          { history with text := Function.update history.text c sql } := by
      refine h.replace h.options_eq h.inner hnone hcache (fun statement hstatement ↦ ?_) htexts
        ⟨fun hmem ↦ absurd hmem hidle, fun hyes ↦ ?_⟩ (fun _ _ ↦ Iff.rfl) h.nodup ?_
      · dsimp only
        rw [Function.update_self]
        exact hphase statement hstatement
      · rw [hout] at hyes
        cases hyes
      · rw [hpending]
        exact h.replay
    have hnone := h.noTransaction c
    rw [transactionOf_eq hc] at hnone
    have hcached := h.cacheOk c _ hc
    obtain ⟨hparse, hcache⟩ := parseWithCache_eq hcached options.cacheCapacity sql
    rw [callConnection]
    split
    · exact hreplace _ hcached hnone (fun _ hidle ↦ by cases hidle) rfl
    · dsimp only
      rw [h.options_eq]
      rcases hparsed : parseWithCache statementCache options.cacheCapacity sql options.sqlDialect
        with ⟨fault | statement, cache⟩
      · rw [hparsed] at hcache
        exact hreplace _ hcache hnone (fun _ hidle ↦ by cases hidle) rfl
      · rw [hparsed] at hparse hcache
        dsimp only
        split
        · exact hreplace _ hcache hnone (fun _ hidle ↦ by cases hidle) rfl
        · refine hreplace _ hcache hnone (fun statement' hstatement ↦ ?_) rfl
          obtain rfl := Option.some.inj hstatement
          exact hparse.symm
  · cases hcall

theorem enter (h : Binlogged options db₀ pool history) {c : Nat} {persist : Option Error}
    (hauto : isBegin (pool.phaseOf c) = false) (henter : pool.enter c persist = some pool') :
    Binlogged options db₀ pool' (pool.nextBinlog history (.enter c persist) pool') := by
  rw [ConnectionPool.enter] at henter
  split at henter
  · rename_i connection hc
    split at henter
    · rename_i statement hphase
      have hnone := h.noTransaction c
      rw [transactionOf_eq hc] at hnone
      have hstatement : connection.phase.statement = some statement := by rw [hphase]; rfl
      have hbusy : connection.phase.carriedOut = false := by rw [hphase]; rfl
      have hidle : c ∉ history.pending := h.not_pending (by rw [carriedOut_eq hc, hbusy])
      have hparse := h.text c connection statement hc hstatement
      have hnew (connection' : Connection) :
          (pool.connections.insert c connection')[c]? = some connection' := by
        rw [BTree.getElem?_insert, if_pos rfl]
      -- a statement that changes nothing
      have hquiet (phase : Phase) (hsame : phase.statement = some statement)
          (hout : phase.carriedOut = false) (pool' : ConnectionPool)
          (hpool' : pool' = { pool with
            connections := pool.connections.insert c
              { connection with
                phase
                transaction := none } }) :
          Binlogged options db₀ pool' (pool.nextBinlog history (.enter c persist) pool') := by
        subst hpool'
        rw [nextBinlog, if_neg (by rw [carriedOut_eq (hnew _), hout]; exact Bool.false_ne_true)]
        refine h.replace h.options_eq h.inner rfl (h.cacheOk c connection hc)
          (fun statement' hstatement' ↦ ?_) (fun _ _ ↦ rfl)
          ⟨fun hmem ↦ absurd hmem hidle, fun hyes ↦ ?_⟩ (fun _ _ ↦ Iff.rfl) h.nodup h.replay
        · obtain rfl := Option.some.inj (hsame.symm.trans hstatement')
          exact hparse
        · rw [hout] at hyes
          cases hyes
      rw [hnone] at henter
      rcases hcontrol : statement.isTransactionControl
      · rw [enterStatement_eq hcontrol] at henter
        by_cases hddl : statement.isDdl = true
        · rw [if_pos hddl, if_neg (by simp)] at henter
          by_cases hlocks : ¬pool.shared.rowLocks.isEmpty = true
          · rw [if_pos hlocks] at henter
            exact hquiet _ rfl rfl pool' (Option.some.inj henter).symm
          · rw [if_neg hlocks] at henter
            exact hquiet _ rfl rfl pool' (Option.some.inj henter).symm
        · have hexecute := h.execute hc hstatement hbusy persist
          rcases hshared : executeShared pool.shared statement persist with ⟨result, shared⟩
          rw [hshared] at hexecute
          simp only [if_neg hddl, hshared, Option.some.injEq] at henter
          subst henter
          rw [nextBinlog]
          simpa only [hnone] using hexecute
      · cases statement with
        | begin =>
          rw [phaseOf_eq hc, hphase] at hauto
          cases hauto
        | commit => exact hquiet _ rfl rfl pool' (Option.some.inj henter).symm
        | rollback => exact hquiet _ rfl rfl pool' (Option.some.inj henter).symm
        | _ => cases hcontrol
    · cases henter
  · cases henter

theorem proceed (h : Binlogged options db₀ pool history) {c : Nat} {persist : Option Error}
    (hproceed : pool.proceed c persist = some pool') :
    Binlogged options db₀ pool' (pool.nextBinlog history (.proceed c persist) pool') := by
  rw [ConnectionPool.proceed] at hproceed
  split at hproceed
  · rename_i connection hc
    have hnone := h.noTransaction c
    rw [transactionOf_eq hc] at hnone
    rw [hnone] at hproceed
    rcases hphase : connection.phase with _ | _ | statement | _ | _ <;>
      rw [hphase] at hproceed
    · cases hproceed
    · cases hproceed
    · have hexecute := h.execute hc (by rw [hphase]; rfl) (by rw [hphase]; rfl) persist
      rcases hshared : executeShared pool.shared statement persist with ⟨result, shared⟩
      rw [hshared] at hexecute
      simp only [proceedStatement, hshared, Option.some.injEq] at hproceed
      subst hproceed
      rw [nextBinlog]
      simpa only [hnone] using hexecute
    · cases hproceed
    · cases hproceed
  · cases hproceed

theorem finish (h : Binlogged options db₀ pool history) {c : Nat} {log : LogOutcome}
    (hbinlog : options.binlogPath.isSome = true)
    (horder : pool.carriedOut c = true → log.binlog.isNone = true ∧ history.pending.head? = some c)
    (hfinish : pool.finish c log = some pool') :
    Binlogged options db₀ pool' (pool.nextBinlog history (.finish c log) pool') := by
  rw [ConnectionPool.finish] at hfinish
  split at hfinish
  · rename_i connection hc
    split at hfinish
    · rename_i statement result hphase
      obtain rfl := Option.some.inj hfinish
      have hnone := h.noTransaction c
      rw [transactionOf_eq hc] at hnone
      rw [nextBinlog]
      split
      · rename_i hout
        obtain ⟨hlog, hhead⟩ := horder hout
        obtain ⟨rest, hpending⟩ : ∃ rest, history.pending = c :: rest :=
          List.head?_eq_some_iff.mp hhead
        have hnodup := h.nodup
        rw [hpending, List.nodup_cons] at hnodup
        have herase : history.pending.erase c = rest := by
          rw [hpending, List.erase_cons_head]
        rw [h.options_eq, if_pos (by rw [hbinlog, hlog]; rfl), herase]
        refine h.replace h.options_eq h.inner hnone (h.cacheOk c connection hc)
          (fun _ hidle ↦ by cases hidle) (fun _ _ ↦ rfl)
          ⟨fun hmem ↦ absurd hmem hnodup.1, fun hyes ↦ by cases hyes⟩ (fun c' hne ↦ ?_) hnodup.2 ?_
        · rw [hpending, List.mem_cons]
          exact (or_iff_right hne).symm
        · have hreplay := h.replay
          rw [hpending, List.map_cons] at hreplay
          rw [List.append_assoc, List.singleton_append]
          exact hreplay
      · rename_i hout
        refine h.replace h.options_eq h.inner hnone (h.cacheOk c connection hc)
          (fun _ hidle ↦ by cases hidle) (fun _ _ ↦ rfl) ⟨fun hmem ↦ ?_, fun hyes ↦ by cases hyes⟩
          (fun _ _ ↦ Iff.rfl) h.nodup h.replay
        exact absurd ((h.pending c).mp hmem) hout
    · cases hfinish
  · cases hfinish

/-- **One more step.** -/
theorem step (h : Binlogged options db₀ pool history) {action : PoolAction}
    (hbinlog : options.binlogPath.isSome = true)
    (hauto : pool.AutoCommit action) (horder : pool.InOrder history action)
    (hstep : pool.step action = some pool') :
    Binlogged options db₀ pool' (pool.nextBinlog history action pool') := by
  cases action with
  | get c => exact h.get hstep
  | drop c => exact h.drop hstep
  | call c sql log => exact h.call hstep
  | enter c persist => exact h.enter hauto hstep
  | proceed c persist => exact h.proceed hstep
  | finish c log => exact h.finish hbinlog horder hstep

end Binlogged

variable {options : DatabaseOptions} {pool : ConnectionPool} {history : BinlogHistory}

theorem binlogged_of_reachableVia {db₀ : Database} (hbinlog : options.binlogPath.isSome = true)
    (h₀ : (Database.fresh options).init db₀)
    (h : (binlogged options).ReachableVia
      (fun p a ↦ AutoCommit p.1 a ∧ InOrder p.1 p.2 a) (pool, history)) :
    Binlogged options db₀ pool history := by
  refine h.invariant (I := fun p ↦ Binlogged options db₀ p.1 p.2) ?_ ?_
  · rintro ⟨pool, history⟩ ⟨⟨database, maxConnections, ⟨-, path, rfl⟩, hpool⟩, hhistory⟩
    obtain ⟨-, path₀, rfl⟩ := h₀
    rw [fromDatabase] at hpool
    split at hpool
    · cases hpool
    · obtain rfl := Except.ok.inj hpool
      dsimp only at hhistory
      subst hhistory
      refine ⟨rfl, rfl, fun c ↦ ?_, fun c connection hc ↦ ?_, fun c connection _ hc ↦ ?_,
        fun c ↦ ?_,
        List.nodup_nil, [], _, rfl, rfl, ⟨rfl, cacheOk_empty _⟩, rfl, rfl⟩
      · simp [transactionOf]
      · simp at hc
      · simp at hc
      · simp [carriedOut, phaseOf]
  · rintro ⟨pool, history⟩ action ⟨pool', history'⟩ - hinv ⟨hauto, horder⟩ hstep
    obtain ⟨hpoolStep, hhistory⟩ := Machine.withHistory_step_eq_some.mp hstep
    dsimp only at hpoolStep hhistory hinv hauto horder
    subst hhistory
    exact hinv.step hbinlog hauto horder hpoolStep

/-- **The binlog agrees with the order of the commits** in every run without transactions in which
the records are appended in that order: once all calls have returned, it replays to the committed
rows. -/
theorem replaysTo_of_reachableVia (hbinlog : options.binlogPath.isSome = true)
    (h : (binlogged options).ReachableVia
      (fun p a ↦ AutoCommit p.1 a ∧ InOrder p.1 p.2 a) (pool, history))
    (hquiescent : pool.Quiescent) : ReplaysTo options history.log pool.committed := by
  intro texts db₀ hlog h₀
  have hinv := binlogged_of_reachableVia hbinlog h₀ h
  have hpending : history.pending = [] := by
    rw [List.eq_nil_iff_forall_not_mem]
    intro c hmem
    obtain ⟨phase, hphase, hout⟩ := (Option.any_eq_true _ _).mp ((hinv.pending c).mp hmem)
    obtain ⟨connection, hc, rfl⟩ := Option.map_eq_some_iff.mp hphase
    have hidle := hquiescent (c, connection) ((DerivedIndex.mem_toList_iff _ _ _).mpr hc)
    rcases hconnection : connection.phase with _ | _ | _ | _ | _ <;> rw [hconnection] at hidle hout
    · cases hout
    all_goals cases hidle
  obtain ⟨texts', replica, hrecords, hreplay, -, -, hcatalog⟩ := hinv.replay
  rw [hpending, List.map_nil, List.append_nil, hlog,
    List.map_inj_right fun _ _ h ↦ escape_injective h] at hrecords
  subst hrecords
  exact ⟨replica, hreplay, fun name ↦ by rw [hcatalog]⟩

end Platform

/-! ## Concrete runs -/

/-- A pool of two connections with a binlog. -/
def binlogMemory : ConnectionPool :=
  ⟨⟨⟨none, .empty, none, Database.binlogOptions, ∅⟩, ∅⟩, 2, 2, 1, ∅⟩

/-- The pool and its binlog after the actions of a list. -/
def binloggedAfter (actions : List PoolAction) : ConnectionPool × BinlogHistory :=
  ((@binlogged Platform.ascii Database.binlogOptions).runFrom
    (binlogMemory, ⟨[], fun _ ↦ "", []⟩) actions).getD (binlogMemory, ⟨[], fun _ ↦ "", []⟩)

theorem reachableVia_binloggedAfter {C : ConnectionPool × BinlogHistory → PoolAction → Prop}
    (actions : List PoolAction)
    (hC : (@binlogged Platform.ascii Database.binlogOptions).StepsSatisfy C
      (binlogMemory, ⟨[], fun _ ↦ "", []⟩) actions) :
    (@binlogged Platform.ascii Database.binlogOptions).ReachableVia C
      ((binloggedAfter actions).1, (binloggedAfter actions).2) := by
  have hinit : (@binlogged Platform.ascii Database.binlogOptions).ReachableVia C
      (binlogMemory, ⟨[], fun _ ↦ "", []⟩) :=
    .init ⟨⟨_, 2, ⟨by decide, none, rfl⟩, rfl⟩, rfl⟩
  rw [binloggedAfter]
  rcases hrun : (@binlogged Platform.ascii Database.binlogOptions).runFrom
    (binlogMemory, ⟨[], fun _ ↦ "", []⟩) actions with _ | p
  · exact hinit
  · exact Machine.reachableVia_of_runFrom hinit hC hrun

/-- Two connections update a row; the records are appended in a given order. -/
def twoUpdates (first second : Nat) : List PoolAction :=
  .get 0 :: .get 1 :: long 0 "CREATE TABLE t (a INT)" ++ short 0 "INSERT INTO t VALUES (0)"
    ++ [.call 0 "UPDATE t SET a = 1" {}, .call 1 "UPDATE t SET a = 2" {}, .enter 0 none,
      .enter 1 none, .finish first {}, .finish second {}]

theorem twoUpdates_inOrder : (@binlogged Platform.ascii Database.binlogOptions).StepsSatisfy
    (fun p a ↦ AutoCommit p.1 a ∧ InOrder p.1 p.2 a) (binlogMemory, ⟨[], fun _ ↦ "", []⟩)
    (twoUpdates 0 1) := by decide +kernel

/-- In the order of the updates, the binlog replays to what they have left. -/
theorem replaysTo_twoUpdates :
    (binloggedAfter (twoUpdates 0 1)).2.log = ["CREATE TABLE t (a INT)",
      "INSERT INTO t VALUES (0)", "UPDATE t SET a = 1", "UPDATE t SET a = 2"] ∧
    @ReplaysTo Platform.ascii Database.binlogOptions (binloggedAfter (twoUpdates 0 1)).2.log
      (binloggedAfter (twoUpdates 0 1)).1.committed := by
  have hreachable := reachableVia_binloggedAfter _ twoUpdates_inOrder
  have hstate : (binloggedAfter (twoUpdates 0 1)).2.log = ["CREATE TABLE t (a INT)",
      "INSERT INTO t VALUES (0)", "UPDATE t SET a = 1", "UPDATE t SET a = 2"] ∧
      (binloggedAfter (twoUpdates 0 1)).1.Quiescent := by decide +kernel
  exact ⟨hstate.1, @replaysTo_of_reachableVia Platform.ascii _ _ _ rfl hreachable hstate.2⟩

theorem twoUpdates_autoCommit : (@binlogged Platform.ascii Database.binlogOptions).StepsSatisfy
    (fun p a ↦ AutoCommit p.1 a) (binlogMemory, ⟨[], fun _ ↦ "", []⟩) (twoUpdates 1 0) := by
  decide +kernel

/-- **Two updates can be logged in the other order**, and the binlog replays to the row that was
overwritten. -/
theorem not_replaysTo : ¬∀ [Platform] (options : DatabaseOptions) (pool : ConnectionPool)
    (history : BinlogHistory), options.binlogPath.isSome = true →
      (binlogged options).ReachableVia (fun p a ↦ AutoCommit p.1 a) (pool, history) →
        pool.Quiescent → ReplaysTo options history.log pool.committed := by
  intro h
  have hreachable := reachableVia_binloggedAfter _ twoUpdates_autoCommit
  have hstate : (binloggedAfter (twoUpdates 1 0)).2.log = ["CREATE TABLE t (a INT)",
      "INSERT INTO t VALUES (0)", "UPDATE t SET a = 2", "UPDATE t SET a = 1"].map escape ∧
      (binloggedAfter (twoUpdates 1 0)).1.Quiescent ∧
      ∀ replica ∈ @Database.replay Platform.ascii ⟨none, .empty, none, Database.binlogOptions, ∅⟩
          ["CREATE TABLE t (a INT)", "INSERT INTO t VALUES (0)", "UPDATE t SET a = 2",
            "UPDATE t SET a = 1"],
        replica.catalog.version "t" 1 ≠
          (binloggedAfter (twoUpdates 1 0)).1.committed.version "t" 1 := by decide +kernel
  have hinit : (@Database.fresh Platform.ascii Database.binlogOptions).init
      ⟨none, .empty, none, Database.binlogOptions, ∅⟩ := ⟨by decide, none, rfl⟩
  obtain ⟨replica, hreplay, hrows⟩ :=
    @h Platform.ascii _ _ _ rfl hreachable hstate.2.1 _ _ hstate.1 hinit
  have hversion (catalog : Catalog) : catalog.version "t" 1 =
      (catalog.tables["t"]?.map (·.rows)).bind (·[1]?) := by
    rw [Catalog.version, Option.bind_map]
    rfl
  refine hstate.2.2 replica hreplay ?_
  rw [hversion, hversion, hrows "t"]

end ConnectionPool

end Fsql
