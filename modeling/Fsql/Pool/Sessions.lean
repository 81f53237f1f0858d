import Fsql.Pool.Admission
import Fsql.Pool.InsertKeys
import Fsql.Pool.RelationalPool
import Fsql.Pool.Staging

/-!
# The pool refines the relational pool

What the connections of a pool see of each other is what the relational pool allows, in every
interleaving of their critical sections: a statement takes effect in the section it is executed in,
and the sections before and after that one cannot be seen (`ConnectionPool.see`).

`ConnectionPool.Says` relates the two.  The invariant that carries it is that of a transaction
(`TransactionState.Shows`): it shows the relations of its session, and as long as nobody has
committed since `BEGIN`, it agrees with the committed catalog but in the rows it has locked. 
`Says.frame` is what the other connections notice of a step; one lemma for each thing that a
critical section can do is the step itself.

The simple tokenizer is to be the configured one, since a merge rebuilds the full-text indexes with
it.
-/

set_option autoImplicit false

namespace Fsql

section Platform

variable [Platform]

/-- **A transaction shows the relations of its session.** -/
structure TransactionState.Shows (committed : Catalog) (version : Nat) (state : TransactionState)
    (session : Session) : Prop where
  /-- The working catalog says what the session says. -/
  relations_eq : state.catalog.relations = session.relations
  /-- The derived maps are those of the rows. -/
  exact : state.catalog.All (Table.FulltextCoherent .simple)
  /-- It has started from something that has been committed. -/
  base_le : session.base ≤ version
  /-- If that is still there, the working catalog differs from it where rows are locked. -/
  agrees : session.base = version → committed.AgreesBut state.lockedRows state.catalog

/-- What the others commit without a change cannot be noticed. -/
theorem TransactionState.Shows.advance {committed committed' : Catalog} {version version' : Nat}
    {state : TransactionState} {session : Session} (h : state.Shows committed version session)
    (hversion : version < version' ∨ version' = version ∧ committed.AgreesBut ∅ committed') :
    state.Shows committed' version' session := by
  have hle := h.base_le
  rcases hversion with hlt | ⟨rfl, hagrees⟩
  · exact ⟨h.relations_eq, h.exact, by omega, fun heq ↦ by omega⟩
  · exact ⟨h.relations_eq, h.exact, hle, fun heq ↦ hagrees.symm.of_empty.trans (h.agrees heq)⟩

namespace ConnectionPool

/-- **What is seen of a step**: a statement is performed when its result is there. -/
def see (_ : ConnectionPool) (action : PoolAction) (pool' : ConnectionPool) : Option PoolEvent :=
  match action with
  | .drop c => some (.dropped c)
  | .enter c persist | .proceed c persist =>
    match pool'.phaseOf c with
    | some (.returned statement result) => some (.performed c statement persist result)
    | _ => none
  | .get _ | .call .. | .finish .. => none

/-- **A pool says what the relational pool says.** -/
structure Says (pool : ConnectionPool) (model : RelationalPool) : Prop where
  inv : pool.Inv
  tokenizer : pool.shared.database.options.fulltextTokenizer = .simple
  path_eq : pool.shared.database.path = model.path
  options_eq : pool.shared.database.options = model.options
  /-- The committed catalog says the committed relations. -/
  committed_eq : pool.committed.relations = model.committed
  exact : pool.committed.All (Table.FulltextCoherent .simple)
  /-- The open transactions are the sessions. -/
  sessions (c : Nat) : Option.Rel (TransactionState.Shows pool.committed model.version)
    (pool.transactionOf c) (model.sessions c)
  /-- What waits for its second critical section does not begin or end a transaction. -/
  control (c : Nat) (statement : Statement) : pool.phaseOf c = some (.locked statement) →
    statement.isTransactionControl = false
  /-- All locks are those of open transactions, unless a merge has failed. -/
  accounted : model.stuck = false → pool.Accounted

variable {pool pool' : ConnectionPool} {model model' : RelationalPool} {c : Nat}

namespace Says

omit [Platform] in
theorem rel_none {α β : Type} {R : α → β → Prop} {b : Option β} (h : Option.Rel R none b) :
    b = none := by
  rcases h
  rfl

omit [Platform] in
theorem rel_some {α β : Type} {R : α → β → Prop} {a : α} {b : Option β}
    (h : Option.Rel R (some a) b) : ∃ b', b = some b' ∧ R a b' := by
  rcases h with ⟨h⟩
  exact ⟨_, rfl, h⟩

/-- The session of a connection is open if its transaction is. -/
theorem session_none (h : pool.Says model) (hnone : pool.transactionOf c = none) :
    model.sessions c = none :=
  rel_none (hnone ▸ h.sessions c)

theorem session_some (h : pool.Says model) {state : TransactionState}
    (hopen : pool.transactionOf c = some state) :
    ∃ session, model.sessions c = some session ∧
      state.Shows pool.committed model.version session :=
  rel_some (hopen ▸ h.sessions c)

/-- A table is seen by its name. -/
theorem mem_committed (h : pool.Says model) {name : String} (hname : name ∈ pool.committed.tables) :
    name ∈ model.committed := by
  rw [← h.committed_eq]
  exact (pool.committed.mem_relations name).mpr hname

/-- **What a step of a connection leaves to the others.** -/
theorem frame (h : pool.Says model) (hstep : StepOf pool c pool')
    (hsettings : model'.path = model.path ∧ model'.options = model.options)
    (hdatabase : pool'.shared.database = { pool.shared.database with catalog := pool'.committed })
    (hcommitted : pool'.committed.relations = model'.committed)
    (hexact : pool'.committed.All (Table.FulltextCoherent .simple))
    (hothers : ∀ c', c' ≠ c → model'.sessions c' = model.sessions c')
    (hversion : model.version < model'.version ∨
      model'.version = model.version ∧ pool.committed.AgreesBut ∅ pool'.committed)
    (hown : Option.Rel (TransactionState.Shows pool'.committed model'.version)
      (pool'.transactionOf c) (model'.sessions c))
    (hcontrol : ∀ statement, pool'.phaseOf c = some (.locked statement) →
      statement.isTransactionControl = false)
    (haccounted : model'.stuck = false → pool'.Accounted) : pool'.Says model' := by
  have hoptions : pool'.shared.database.options = pool.shared.database.options := by rw [hdatabase]
  have hpath : pool'.shared.database.path = pool.shared.database.path := by rw [hdatabase]
  refine ⟨hstep.inv h.inv, hoptions ▸ h.tokenizer, ?_, ?_, hcommitted, hexact, fun c' ↦ ?_,
    fun c' statement hphase ↦ ?_, haccounted⟩
  · rw [hpath, h.path_eq, hsettings.1]
  · rw [hoptions, h.options_eq, hsettings.2]
  · by_cases hne : c' = c
    · exact hne ▸ hown
    · rw [hstep.transactionOf_ne hne, hothers c' hne]
      rcases hopen : pool.transactionOf c' with _ | state
      · rw [h.session_none hopen]
        exact .none
      · obtain ⟨session, hsession, hshows⟩ := h.session_some hopen
        rw [hsession]
        exact .some (hshows.advance hversion)
  · by_cases hne : c' = c
    · exact hcontrol statement (hne ▸ hphase)
    · rw [phaseOf, hstep.others c' hne, ← phaseOf] at hphase
      exact h.control c' statement hphase

/-- A step that is no `COMMIT` leaves no lock without a transaction. -/
theorem accounted_step (h : pool.Says model) {action : PoolAction}
    (hstep : pool.step action = some pool')
    (hmergeable : pool.CommitMergeable action) (hstuck : model.stuck = false) :
    pool'.Accounted :=
  (step_cases (h.inv.ready _) hstep).accounted h.inv hmergeable (h.accounted hstuck)

/-- **A step that cannot be seen.** -/
theorem quiet (h : pool.Says model) {action : PoolAction} (hstep : pool.step action = some pool')
    (hnot : pool.phaseOf action.connection = some (.called .commit) →
      pool.transactionOf action.connection = none)
    (hshared : pool'.shared = pool.shared)
    (htx : pool'.transactionOf action.connection = pool.transactionOf action.connection)
    (hcontrol : ∀ statement, pool'.phaseOf action.connection = some (.locked statement) →
      statement.isTransactionControl = false) : pool'.Says model := by
  have hcommitted : pool'.committed = pool.committed := congrArg (·.database.catalog) hshared
  refine h.frame (step_cases (h.inv.ready _) hstep) ⟨rfl, rfl⟩ ?_ ?_ ?_ (fun _ _ ↦ rfl)
    (.inr ⟨rfl, ?_⟩) ?_ hcontrol fun hstuck ↦ h.accounted_step hstep ?_ hstuck
  · rw [hcommitted, hshared]
  · rw [hcommitted]
    exact h.committed_eq
  · rw [hcommitted]
    exact h.exact
  · rw [hcommitted]
    exact .refl ∅ _
  · rw [hcommitted, htx]
    exact h.sessions _
  · intro hphase state hopen
    rw [hnot hphase] at hopen
    cases hopen

end Says

/-! ## What is seen of a step -/

/-- **A step is one of the relational pool**, or cannot be seen. -/
def Refines (pool : ConnectionPool) (model : RelationalPool) (action : PoolAction)
    (pool' : ConnectionPool) : Prop :=
  pool.see action pool' = none ∧ pool'.Says model ∨
    ∃ event model', pool.see action pool' = some event ∧ model.Step event model' ∧
      pool'.Says model'

namespace Says

variable {persist : Option Error} {action : PoolAction} {statement : Statement}
  {result : Result QueryResult}

omit [Platform] in
/-- A statement is seen when its result is there. -/
theorem see_returned (haction : action = .enter c persist ∨ action = .proceed c persist)
    (hphase : pool'.phaseOf c = some (.returned statement result)) :
    pool.see action pool' = some (.performed c statement persist result) := by
  rcases haction with rfl | rfl <;> rw [see, hphase]

/-- **A statement is performed** in a step. -/
theorem performed (h : pool.Says model)
    (haction : action = .enter c persist ∨ action = .proceed c persist)
    (hstep : pool.step action = some pool')
    (hphase : pool'.phaseOf c = some (.returned statement result))
    (hmodel : model.Step (.performed c statement persist result) model')
    (hsettings : model'.path = model.path ∧ model'.options = model.options)
    (hdatabase : pool'.shared.database = { pool.shared.database with catalog := pool'.committed })
    (hcommitted : pool'.committed.relations = model'.committed)
    (hexact : pool'.committed.All (Table.FulltextCoherent .simple))
    (hothers : ∀ c', c' ≠ c → model'.sessions c' = model.sessions c')
    (hversion : model.version < model'.version ∨
      model'.version = model.version ∧ pool.committed.AgreesBut ∅ pool'.committed)
    (hown : Option.Rel (TransactionState.Shows pool'.committed model'.version)
      (pool'.transactionOf c) (model'.sessions c))
    (haccounted : model'.stuck = false → pool'.Accounted) : pool.Refines model action pool' := by
  have hconnection : action.connection = c := by rcases haction with rfl | rfl <;> rfl
  have hstepOf := step_cases (h.inv.ready _) hstep
  rw [hconnection] at hstepOf
  refine .inr ⟨_, model', see_returned haction hphase, hmodel, ?_⟩
  refine h.frame hstepOf hsettings hdatabase hcommitted hexact hothers hversion hown ?_ haccounted
  intro statement' hlocked
  cases hphase.symm.trans hlocked

/-- **A statement that publishes nothing** concerns its own connection only. -/
theorem unpublished (h : pool.Says model)
    (haction : action = .enter c persist ∨ action = .proceed c persist)
    (hstep : pool.step action = some pool')
    (hphase : pool'.phaseOf c = some (.returned statement result)) {session : Option Session}
    {stuck : Bool}
    (hmodel : model.Step (.performed c statement persist result)
      { model.put c session with stuck })
    (hdatabase : pool'.shared.database = { pool.shared.database with catalog := pool'.committed })
    (hreserved : pool.committed.OnlyReserved pool'.committed)
    (hown : Option.Rel (TransactionState.Shows pool.committed model.version)
      (pool'.transactionOf c) session)
    (haccounted : stuck = false → pool'.Accounted) : pool.Refines model action pool' := by
  have hagrees : pool.committed.AgreesBut ∅ pool'.committed := hreserved.agrees
  refine h.performed haction hstep hphase hmodel ⟨rfl, rfl⟩ hdatabase
    (hagrees.relations_eq.trans h.committed_eq) (hreserved.all h.exact)
    (fun c' hne ↦ model.sessions_put_of_ne session hne) (.inr ⟨rfl, hagrees⟩) ?_ haccounted
  show Option.Rel _ (pool'.transactionOf c) ((model.put c session).sessions c)
  rw [model.sessions_put_self]
  generalize pool'.transactionOf c = tx at hown ⊢
  rcases hown with ⟨hshows⟩ | _
  · exact .some (hshows.advance (.inr ⟨rfl, hagrees⟩))
  · exact .none

/-- A statement is refused. -/
theorem refused (h : pool.Says model)
    (haction : action = .enter c persist ∨ action = .proceed c persist)
    (hstep : pool.step action = some pool')
    (hphase : pool'.phaseOf c = some (.returned statement result))
    (hmodel : model.Step (.performed c statement persist result) model)
    (hnot : pool.phaseOf c = some (.called .commit) → pool.transactionOf c = none)
    (hshared : pool'.shared = pool.shared) (htx : pool'.transactionOf c = pool.transactionOf c) :
    pool.Refines model action pool' := by
  have hconnection : action.connection = c := by rcases haction with rfl | rfl <;> rfl
  refine .inr ⟨_, model, see_returned haction hphase, hmodel, ?_⟩
  refine h.quiet hstep (hconnection ▸ hnot) hshared (hconnection ▸ htx) fun statement' hlocked ↦ ?_
  rw [hconnection] at hlocked
  cases hphase.symm.trans hlocked

/-- `BEGIN`. -/
theorem begin (h : pool.Says model) (hphase : pool.phaseOf c = some (.called .begin))
    (hstep : pool.step (.enter c persist) = some pool') :
    pool.Refines model (.enter c persist) pool' := by
  obtain ⟨hshared, htx, hphase'⟩ := enter_called hphase hstep
  have hnot : pool.phaseOf c ≠ some (.called .commit) := fun hcommit ↦ by
    cases hphase.symm.trans hcommit
  rcases hopen : pool.transactionOf c with _ | state <;> rw [hopen] at hshared htx hphase'
  · have hcommitted : pool'.committed = pool.committed := congrArg (·.database.catalog) hshared
    have hactive : pool.shared.database.activeCatalog = pool.committed := by
      rw [Database.activeCatalog, h.inv.shared.noTransaction]
      rfl
    refine h.unpublished (.inl rfl) hstep hphase' (.begin (h.session_none hopen)) ?_
      (.inl hcommitted) ?_
      fun hstuck ↦ h.accounted_step hstep (fun hcommit ↦ absurd hcommit hnot) hstuck
    · rw [hcommitted, hshared]
      rfl
    · rw [htx]
      refine .some ⟨?_, ?_, le_refl _, fun _ ↦ ?_⟩
      · show pool.shared.database.activeCatalog.relations = model.committed
        rw [hactive, h.committed_eq]
      · show pool.shared.database.activeCatalog.All _
        rw [hactive]
        exact h.exact
      · show pool.committed.AgreesBut ∅ pool.shared.database.activeCatalog
        rw [hactive]
        exact .refl ∅ _
  · obtain ⟨session, hsession, -⟩ := h.session_some hopen
    refine h.refused (.inl rfl) hstep hphase' (.active ?_) (fun hcommit ↦ absurd hcommit hnot)
      hshared (htx.trans hopen.symm)
    rw [hsession]
    rfl

/-- `ROLLBACK`. -/
theorem rollback (h : pool.Says model) (hphase : pool.phaseOf c = some (.called .rollback))
    (hstep : pool.step (.enter c persist) = some pool') :
    pool.Refines model (.enter c persist) pool' := by
  obtain ⟨hshared, htx, hphase'⟩ := enter_called hphase hstep
  have hnot : pool.phaseOf c ≠ some (.called .commit) := fun hcommit ↦ by
    cases hphase.symm.trans hcommit
  rcases hopen : pool.transactionOf c with _ | state <;> rw [hopen] at hshared htx hphase'
  · exact h.refused (.inl rfl) hstep hphase' (.inactive (h.session_none hopen) (.inr rfl))
      (fun _ ↦ hopen) hshared (htx.trans hopen.symm)
  · obtain ⟨session, hsession, -⟩ := h.session_some hopen
    have hcommitted : pool'.committed = pool.committed := congrArg (·.database.catalog) hshared
    refine h.unpublished (.inl rfl) hstep hphase' (.rollback ?_) ?_ (.inl hcommitted) ?_
      fun hstuck ↦ h.accounted_step hstep (fun hcommit ↦ absurd hcommit hnot) hstuck
    · rw [hsession]
      rfl
    · rw [hcommitted, hshared]
      rfl
    · rw [htx]
      exact .none

/-- **`COMMIT`.** -/
theorem commit (h : pool.Says model) (hphase : pool.phaseOf c = some (.called .commit))
    (hstep : pool.step (.enter c persist) = some pool') :
    pool.Refines model (.enter c persist) pool' := by
  obtain ⟨hshared, htx, hphase'⟩ := enter_commit hphase hstep
  rcases hopen : pool.transactionOf c with _ | state <;> rw [hopen] at hshared htx hphase'
  · exact h.refused (.inl rfl) hstep hphase' (.inactive (h.session_none hopen) (.inl rfl))
      (fun _ ↦ hopen) hshared (htx.trans hopen.symm)
  obtain ⟨session, hsession, hshows⟩ := h.session_some hopen
  have hs := h.inv.shared
  have hstate := h.inv.states c state hopen
  rw [commitTransaction] at hshared htx hphase'
  rcases hmerged : mergeCatalogs pool.shared.database.catalog state.catalog state.lockedRows with
    error | merged <;> rw [hmerged] at hshared htx hphase'
  · have hcommitted : pool'.committed = pool.committed := congrArg (·.database.catalog) hshared
    refine h.unpublished (.inl rfl) hstep hphase' (.unmerged hsession fun hbase ↦ ?_) ?_
      (.inl hcommitted) ?_ (by simp)
    · by_contra hclash
      have hmergeable := mergeable_of_agreesBut hstate (hshows.agrees hbase)
        fun name hname other hother hextends ↦
          hclash ⟨name, h.mem_committed hname, other, h.mem_committed hother, hextends⟩
      obtain ⟨merged, hok, -⟩ := mergeCatalogs_ok (hstate.mergeInput hs) hmergeable
      cases hmerged.symm.trans hok
    · rw [hcommitted, hshared]
    · rw [htx]
      exact .none
  have hmergeable : pool.CommitMergeable (.enter c persist) := by
    intro _ state' hopen'
    obtain rfl := Option.some.inj (hopen.symm.trans hopen')
    by_contra hnot
    obtain ⟨error, herror⟩ := mergeCatalogs_error (hstate.mergeInput hs) hnot
    cases hmerged.symm.trans herror
  have hpath : (pool.shared.database.replaceCatalog merged).path = model.path := h.path_eq
  have hnone := hs.noTransaction
  dsimp only at hshared htx hphase'
  rw [Database.persist, hpath] at hshared htx hphase'
  rcases hwrite : appendOptionalLine model.path persist with error | _ <;>
    rw [hwrite] at hshared htx hphase'
  · have hback : pool'.shared.database = pool.shared.database := by
      rw [hshared]
      show { pool.shared.database with transaction := none } = pool.shared.database
      rw [← hnone]
    have hcommitted : pool'.committed = pool.committed := congrArg (·.catalog) hback
    refine h.unpublished (.inl rfl) hstep hphase' (.unwritten ?_ hwrite) ?_ (.inl hcommitted) ?_
      fun hstuck ↦ h.accounted_step hstep hmergeable hstuck
    · rw [hsession]
      rfl
    · rw [hcommitted, hback]
    · rw [htx]
      exact .none
  · have hdatabase : pool'.shared.database = { pool.shared.database with catalog := merged } := by
      rw [hshared]
      show { pool.shared.database with catalog := merged, transaction := none } = _
      rw [← hnone]
    have hcommitted : pool'.committed = merged := congrArg (·.catalog) hdatabase
    have hpublished (hbase : session.base = model.version) :
        merged.relations = session.relations := by
      rw [relations_of_merge hs hstate (hshows.agrees hbase) hmerged, hshows.relations_eq]
    refine h.performed (.inl rfl) hstep hphase' (.publish hsession hpublished hwrite) ⟨rfl, rfl⟩ ?_
      ?_ ?_ (fun c' hne ↦ model.sessions_put_of_ne _ hne) (.inl (Nat.lt_succ_self _)) ?_
      fun hstuck ↦ h.accounted_step hstep hmergeable hstuck
    · rw [hcommitted, hdatabase]
    · rw [hcommitted]
    · rw [hcommitted]
      exact all_of_merge hs hstate h.exact hmerged
    · show Option.Rel _ (pool'.transactionOf c) ((model.put c none).sessions c)
      rw [htx, model.sessions_put_self]
      exact .none

/-- **A statement outside a transaction.** -/
theorem direct (h : pool.Says model)
    (haction : action = .enter c persist ∨ action = .proceed c persist)
    (hstep : pool.step action = some pool') (hnone : pool.transactionOf c = none)
    (hcontrol : statement.isTransactionControl = false)
    (hshared : pool'.shared = (executeShared pool.shared statement persist).2)
    (htx : pool'.transactionOf c = none)
    (hphase : pool'.phaseOf c =
      some (.returned statement (executeShared pool.shared statement persist).1)) :
    pool.Refines model action pool' := by
  have hconnection : action.connection = c := by rcases haction with rfl | rfl <;> rfl
  have hs := h.inv.shared
  have hsession := h.session_none hnone
  have hall := h.exact
  rw [← h.tokenizer] at hall
  have hrelations :=
    @executeStatement_relations _ (tableRuntimeOptions pool.shared.database.options)
    _ hall statement
  have hexact := all_executeStatement h.tokenizer h.exact statement
  have hmodel := @RelationalPool.Step.direct _ model c persist statement hsession hcontrol
  rcases hexecuted : executeStatementWithOptions pool.committed statement pool.options with
    ⟨result, catalog⟩
  rw [executeShared, hexecuted] at hshared hphase
  rw [hexecuted] at hrelations hexact
  have hexecutes : model.committed.execute statement (tableRuntimeOptions model.options) =
      (result, catalog.relations) := by
    rw [← h.committed_eq, ← h.options_eq]
    exact (Prod.ext hrelations.1 hrelations.2).symm
  rw [RelationalPool.direct, hexecutes] at hmodel
  have hback : ({ pool.shared.database with catalog }.replaceCatalog pool.shared.database.catalog) =
    pool.shared.database := replaceCatalog_self hs catalog
  rcases result with error | result
  · dsimp only at hshared hphase hmodel
    rw [hback] at hshared
    exact h.refused haction hstep hphase hmodel (fun _ ↦ hnone) hshared (htx.trans hnone.symm)
  have hpersist : Database.persist { pool.shared.database with catalog } persist =
      appendOptionalLine model.path persist := by
    rw [← h.path_eq]
    rfl
  dsimp only at hshared hphase hmodel
  rw [hpersist] at hshared hphase
  rcases hwrite : appendOptionalLine model.path persist with error | _ <;>
    rw [hwrite] at hshared hphase hmodel
  · dsimp only at hshared
    rw [hback] at hshared
    exact h.refused haction hstep hphase hmodel (fun _ ↦ hnone) hshared (htx.trans hnone.symm)
  · have hcommitted : pool'.committed = catalog := congrArg (·.database.catalog) hshared
    refine h.performed haction hstep hphase hmodel ⟨rfl, rfl⟩ ?_ ?_ ?_ (fun _ _ ↦ rfl) ?_ ?_
      fun hstuck ↦ h.accounted_step hstep (fun _ state hopen ↦ ?_) hstuck
    · rw [hcommitted, hshared]
    · rw [hcommitted]
    · rw [hcommitted]
      exact hexact
    · rcases hmutates : statement.mutatesCatalog with _ | _
      · have hsame := executeStatement_of_not_mutates hmutates pool.committed pool.options
        rw [hexecuted] at hsame
        have hunchanged : pool'.committed = pool.committed := hcommitted.trans hsame
        rw [hunchanged]
        exact .inr ⟨rfl, .refl ∅ _⟩
      · exact .inl (Nat.lt_succ_self _)
    · rw [htx]
      show Option.Rel _ none (model.sessions c)
      rw [hsession]
      exact .none
    · rw [hconnection, hnone] at hopen
      cases hopen

/-- Whoever holds a lock is seen, unless a merge has failed. -/
theorem contended (h : pool.Says model) {key : String} {owner : Nat}
    (howner : pool.shared.rowLocks[key]? = some owner)
    (hne : ∀ state ∈ pool.transactionOf c, owner ≠ state.id) : model.Contended c := by
  rcases hstuck : model.stuck with _ | _
  · obtain ⟨c', state', hopen', hid, -⟩ := h.accounted hstuck key owner howner
    obtain ⟨session, hsession, -⟩ := h.session_some hopen'
    refine .inr ⟨c', ?_, by rw [hsession]; rfl⟩
    rintro rfl
    exact hne state' hopen' hid.symm
  · exact .inl hstuck

/-- **Locking cannot be seen.** -/
theorem lock (h : pool.Says model) {state : TransactionState}
    (hopen : pool.transactionOf c = some state) (hphase : pool.phaseOf c = some (.called statement))
    (hcontrol : statement.isTransactionControl = false)
    (hstep : pool.step (.enter c persist) = some pool')
    (hshared : pool'.shared = (lockStatementRows pool.shared statement state).2.1)
    (htx : pool'.transactionOf c = some (lockStatementRows pool.shared statement state).2.2)
    (hlocked : ∀ statement', pool'.phaseOf c = some (.locked statement') →
      statement' = statement) : pool'.Says model := by
  obtain ⟨session, hsession, hshows⟩ := h.session_some hopen
  have hs := h.inv.shared
  have hstate := h.inv.states c state hopen
  obtain ⟨hdatabase, hcommitted, hstaged⟩ := lockStatementRows_reserved hs hstate statement
  have hlocking := locking_lockStatementRows hs hstate statement
  rw [← hshared] at hdatabase hcommitted
  have hagrees : pool.committed.AgreesBut ∅ pool'.committed := hcommitted.agrees
  have hstagedAgrees : state.catalog.AgreesBut ∅
    (lockStatementRows pool.shared statement state).2.2.catalog := hstaged.agrees
  have hstepOf := @step_cases _ pool pool' (.enter c persist) (h.inv.ready c) hstep
  refine h.frame hstepOf ⟨rfl, rfl⟩ hdatabase (hagrees.relations_eq.trans h.committed_eq)
    (hcommitted.all h.exact) (fun _ _ ↦ rfl) (.inr ⟨rfl, hagrees⟩) ?_
      (fun statement' hphase' ↦ hlocked statement' hphase' ▸ hcontrol)
    fun hstuck ↦ h.accounted_step hstep ?_ hstuck
  · show Option.Rel _ (pool'.transactionOf c) (model.sessions c)
    rw [htx, hsession]
    refine .some ⟨hstagedAgrees.relations_eq.trans hshows.relations_eq, hstaged.all hshows.exact,
      hshows.base_le, fun hbase ↦ ?_⟩
    exact (hagrees.symm.of_empty.trans ((hshows.agrees hbase).mono hlocking.subset)).trans
      hstagedAgrees.of_empty
  · intro hcommit
    cases hphase.symm.trans hcommit
    cases hcontrol

/-- What a statement does to a working catalog, it does to the relations of the session. -/
theorem execute_session (h : pool.Says model) {state : TransactionState} {session : Session}
    (hshows : state.Shows pool.committed model.version session) (statement : Statement) :
    (executeStatementWithOptions state.catalog statement pool.options).1 =
        (session.relations.execute statement (tableRuntimeOptions model.options)).1 ∧
      (executeStatementWithOptions state.catalog statement pool.options).2.relations =
        (session.relations.execute statement (tableRuntimeOptions model.options)).2 := by
  have hall := hshows.exact
  rw [← h.tokenizer] at hall
  rw [← hshows.relations_eq, ← h.options_eq]
  exact executeStatement_relations hall statement

/-- **A statement whose rows cannot be found** is answered like one that is executed. -/
theorem unlocked (h : pool.Says model) {state : TransactionState} {error : Error}
    (hopen : pool.transactionOf c = some state) (hphase : pool.phaseOf c = some (.called statement))
    (hcontrol : statement.isTransactionControl = false) (hddl : statement.isDdl = false)
    (hkeys : rowsToLock state.catalog statement pool.options = .error error)
    (hstep : pool.step (.enter c persist) = some pool') (hshared : pool'.shared = pool.shared)
    (htx : pool'.transactionOf c = some state)
    (hphase' : pool'.phaseOf c = some (.returned statement (.error error))) :
    pool.Refines model (.enter c persist) pool' := by
  obtain ⟨session, hsession, hshows⟩ := h.session_some hopen
  have hnot : pool.phaseOf c ≠ some (.called .commit) := fun hcommit ↦ by
    cases hphase.symm.trans hcommit
    cases hcontrol
  have hcommitted : pool'.committed = pool.committed := congrArg (·.database.catalog) hshared
  obtain ⟨hresult, hrelations⟩ := h.execute_session hshows statement
  rcases rowsToLock_error hkeys with hfails |
    ⟨⟨table, columns, values, rfl, hinfinite⟩, error', hfails⟩
  · have hfailed := @executeStatement_failed _ pool.options state.catalog
      (fun name t ht ↦ (hshows.exact name t ht).coherent) statement
    have hmodel :=
      @RelationalPool.Step.own _ model c persist statement session hsession hcontrol hddl
    rw [← hresult, hfails] at hmodel
    refine h.unpublished (.inl rfl) hstep hphase' hmodel ?_ (.inl hcommitted) ?_
      fun hstuck ↦ h.accounted_step hstep (fun hcommit ↦ absurd hcommit hnot) hstuck
    · rw [hcommitted, hshared]
    · rw [htx]
      refine .some ⟨?_, hshows.exact, hshows.base_le, hshows.agrees⟩
      rw [← hrelations]
      exact (hfailed hfails).relations_eq.symm
  · rw [hfails] at hresult
    exact h.refused (.inl rfl) hstep hphase' (.unkeyed hsession hinfinite hresult.symm)
      (fun hcommit ↦ absurd hcommit hnot) hshared (htx.trans hopen.symm)

/-- **The first critical section** of a statement that does not begin or end a transaction. -/
theorem enter (h : pool.Says model) (hphase : pool.phaseOf c = some (.called statement))
    (hcontrol : statement.isTransactionControl = false)
    (hstep : pool.step (.enter c persist) = some pool') :
    pool.Refines model (.enter c persist) pool' := by
  have hnot : pool.phaseOf c ≠ some (.called .commit) := fun hcommit ↦ by
    cases hphase.symm.trans hcommit
    cases hcontrol
  obtain ⟨hshared, htx, hphase'⟩ := enter_called hphase hstep
  rw [enterStatement_eq hcontrol] at hshared htx hphase'
  rcases hddl : statement.isDdl with _ | _
  · rw [hddl, if_neg (by simp)] at hshared htx hphase'
    rcases hopen : pool.transactionOf c with _ | state <;> rw [hopen] at hshared htx hphase'
    · exact h.direct (.inl rfl) hstep hopen hcontrol hshared htx hphase'
    have hlock := @lock _ pool pool' model c persist statement h state hopen hphase hcontrol hstep
    have herror := @lockStatementRows_error pool.shared state _ h.inv.shared
      (h.inv.states c state hopen) statement
    dsimp only at hshared htx hphase'
    rcases hlocked :
      lockStatementRows pool.shared statement state with ⟨error | _, shared, state'⟩ <;>
      rw [hlocked] at hshared htx hphase' hlock herror
    · rcases herror rfl with ⟨hkeys, heq⟩ | ⟨hdml, key, owner, rfl, howner, hne⟩
      · cases heq
        exact h.unlocked hopen hphase hcontrol hddl hkeys hstep hshared htx hphase'
      · obtain ⟨session, hsession, -⟩ := h.session_some hopen
        refine .inr ⟨_, model, see_returned (.inl rfl) hphase', .conflict ?_ hdml
          (h.contended howner ?_) key, hlock hshared htx fun statement' hlocked' ↦ ?_⟩
        · rw [hsession]
          rfl
        · rw [hopen]
          rintro state' ⟨⟩
          exact hne
        · cases hphase'.symm.trans hlocked'
    · refine .inl ⟨?_, hlock hshared htx fun statement' hlocked' ↦ ?_⟩
      · rw [see, hphase']
      · cases hphase'.symm.trans hlocked'
        rfl
  · rw [hddl, if_pos rfl] at hshared htx hphase'
    rcases hopen : pool.transactionOf c with _ | state <;> rw [hopen] at hshared htx hphase'
    · rw [if_neg (by simp)] at hshared htx hphase'
      by_cases hempty : pool.shared.rowLocks.isEmpty = true
      · rw [if_neg (by simpa using hempty)] at hshared htx hphase'
        refine .inl ⟨by rw [see, hphase'], h.quiet hstep (fun _ ↦ hopen) hshared
          (htx.trans hopen.symm) fun statement' hlocked ↦ ?_⟩
        cases hphase'.symm.trans hlocked
      · rw [if_pos hempty] at hshared htx hphase'
        obtain ⟨key, owner, howner⟩ : ∃ (key : String) (owner : Nat),
            pool.shared.rowLocks[key]? = some owner := by
          by_contra hfree
          have hnone : pool.shared.rowLocks = ∅ := Std.ExtTreeMap.ext_getElem? fun key ↦ by
            rw [Std.ExtTreeMap.getElem?_empty]
            exact Option.eq_none_iff_forall_not_mem.mpr fun owner howner ↦
              hfree ⟨key, owner, howner⟩
          rw [hnone] at hempty
          exact hempty Std.ExtTreeMap.isEmpty_empty
        refine h.refused (.inl rfl) hstep hphase' (.blocked (h.session_none hopen) hddl
          (h.contended howner ?_)) (fun _ ↦ hopen) hshared (htx.trans hopen.symm)
        rw [hopen]
        rintro state ⟨⟩
    · rw [if_pos Option.isSome_some] at hshared htx hphase'
      obtain ⟨session, hsession, -⟩ := h.session_some hopen
      refine h.refused (.inl rfl) hstep hphase' (.refused ?_ hddl)
        (fun hcommit ↦ absurd hcommit hnot) hshared (htx.trans hopen.symm)
      rw [hsession]
      rfl

/-- **The second critical section.** -/
theorem proceed (h : pool.Says model) (hstep : pool.step (.proceed c persist) = some pool') :
    pool.Refines model (.proceed c persist) pool' := by
  obtain ⟨phase, phase', hphase, hphase', hproceed⟩ := exists_of_proceed hstep
  have hnot : pool.phaseOf c ≠ some (.called .commit) := by
    rintro hcommit
    cases hphase.symm.trans hcommit
    rw [proceedStatement] at hproceed
    · cases hproceed
    · simp
    · simp
  have hphaseOk : PhaseOk pool.options (pool.transactionOf c) phase := by
    obtain ⟨connection, hconnection, rfl⟩ := Option.map_eq_some_iff.mp hphase
    rw [transactionOf_eq hconnection]
    exact h.inv.phases c connection hconnection
  rcases hopen : pool.transactionOf c with _ | state <;> rw [hopen] at hproceed hphaseOk
  · cases phase with
    | admitted statement =>
      obtain ⟨hddl, -⟩ := hphaseOk
      have hcontrol : statement.isTransactionControl = false := by
        cases statement <;> first | rfl | cases hddl
      rw [proceedStatement, Option.some_inj, Prod.mk.injEq, Prod.mk.injEq] at hproceed
      obtain ⟨rfl, hshared, htx⟩ := hproceed
      exact h.direct (.inr rfl) hstep hopen hcontrol hshared.symm htx.symm hphase'
    | _ => cases hproceed
  · cases phase with
    | locked statement =>
      obtain ⟨hddl, hcovered⟩ := hphaseOk
      obtain ⟨session, hsession, hshows⟩ := h.session_some hopen
      have hcontrol := h.control c statement hphase
      rw [proceedStatement, Option.some_inj, Prod.mk.injEq, Prod.mk.injEq] at hproceed
      obtain ⟨rfl, hshared, htx⟩ := hproceed
      obtain ⟨hresult, hrelations⟩ := h.execute_session hshows statement
      have hcommitted : pool'.committed = pool.committed :=
        congrArg (·.database.catalog) hshared.symm
      have hmodel :=
        @RelationalPool.Step.own _ model c persist statement session hsession hcontrol hddl
      rw [← hresult] at hmodel
      refine h.unpublished (.inr rfl) hstep hphase' hmodel ?_ (.inl hcommitted) ?_
        fun hstuck ↦ h.accounted_step hstep (fun hcommit ↦ absurd hcommit hnot) hstuck
      · rw [hcommitted, ← hshared]
      · rw [← htx]
        have hall := hshows.exact
        rw [← h.tokenizer] at hall
        exact .some ⟨hrelations, all_executeStatement h.tokenizer hshows.exact statement,
          hshows.base_le, fun hbase ↦ (hshows.agrees hbase).write hall hddl (hcovered state rfl)⟩
    | _ => cases hproceed

omit [Platform] in
/-- A connection that is called waits for its first critical section, or for the next call. -/
theorem callConnection_ne_locked {connection : Connection} (hidle : connection.phase = .idle)
    (sql : String) (log : LogOutcome) (statement : Statement) :
    (pool.callConnection connection sql log).phase ≠ .locked statement := by
  have hne : connection.phase ≠ .locked statement := by simp [hidle]
  rw [callConnection]
  split
  · exact hne
  · dsimp only
    split
    · exact hne
    · split
      · exact hne
      · simp

/-- **A connection is checked out, is called, or returns from a call**, and nobody sees it. -/
theorem silent (h : pool.Says model) (hstep : pool.step action = some pool')
    (haction : action = .get c ∨ (∃ sql log, action = .call c sql log) ∨
      ∃ log, action = .finish c log) : pool'.Says model := by
  have hnew (connection : Connection) :
      (pool.connections.insert c connection)[c]? = some connection := by
    rw [BTree.getElem?_insert, if_pos rfl]
  rcases haction with rfl | ⟨sql, log, rfl⟩ | ⟨log, rfl⟩
  · have hget := hstep
    rw [ConnectionPool.step, ConnectionPool.get] at hget
    split at hget
    · cases hget
    · rename_i hfree
      obtain rfl := Option.some.inj hget
      rw [not_or, Std.ExtTreeMap.mem_iff_isSome_getElem?, Option.not_isSome_iff_eq_none] at hfree
      refine h.quiet hstep (fun _ ↦ ?_) rfl ?_ fun statement hlocked ↦ ?_
      · show pool.connections[c]?.bind _ = none
        rw [hfree.2, Option.bind_none]
      · show (pool.connections.insert c {})[c]?.bind _ = pool.connections[c]?.bind _
        rw [hnew, hfree.2]
        rfl
      · rw [PoolAction.connection, phaseOf, hnew] at hlocked
        cases hlocked
  · have hcall := hstep
    rw [ConnectionPool.step, ConnectionPool.call] at hcall
    split at hcall
    · rename_i transaction statementCache cachePoisoned lastResult hconnection
      obtain rfl := Option.some.inj hcall
      refine h.quiet hstep (fun hcommit ↦ ?_) rfl ?_ fun statement hlocked ↦ ?_
      · rw [PoolAction.connection, phaseOf_eq hconnection] at hcommit
        cases hcommit
      · show (pool.connections.insert c _)[c]?.bind _ = pool.transactionOf c
        rw [hnew, transactionOf_eq hconnection]
        exact callConnection_transaction _ sql log
      · rw [PoolAction.connection, phaseOf, hnew] at hlocked
        exact absurd (Option.some.inj hlocked) (callConnection_ne_locked rfl sql log statement)
    · cases hcall
  · have hfinish := hstep
    rw [ConnectionPool.step, ConnectionPool.finish] at hfinish
    split at hfinish
    · rename_i connection hconnection
      split at hfinish
      · rename_i statement result hphase
        obtain rfl := Option.some.inj hfinish
        refine h.quiet hstep (fun hcommit ↦ ?_) rfl ?_ fun statement hlocked ↦ ?_
        · rw [PoolAction.connection, phaseOf_eq hconnection, hphase] at hcommit
          cases hcommit
        · show (pool.connections.insert c _)[c]?.bind _ = pool.transactionOf c
          rw [hnew, transactionOf_eq hconnection]
          rfl
        · rw [PoolAction.connection, phaseOf, hnew] at hlocked
          cases hlocked
      · cases hfinish
    · cases hfinish

/-- A connection is dropped. -/
theorem dropped (h : pool.Says model) (hstep : pool.step (.drop c) = some pool') :
    pool'.Says (model.put c none) := by
  have hstepOf : StepOf pool c pool' := @step_cases _ _ _ (.drop c) (h.inv.ready c) hstep
  have hdrop := hstep
  rw [ConnectionPool.step, ConnectionPool.drop] at hdrop
  split at hdrop
  · rename_i transaction statementCache cachePoisoned lastResult hconnection
    obtain rfl := Option.some.inj hdrop
    have herased : (pool.connections.erase c)[c]? = none := by
      rw [BTree.getElem?_erase, if_pos rfl]
    refine h.frame hstepOf ⟨rfl, rfl⟩ rfl h.committed_eq h.exact
      (fun c' hne ↦ model.sessions_put_of_ne none hne) (.inr ⟨rfl, .refl ∅ _⟩) ?_
      (fun statement hlocked ↦ ?_) fun hstuck ↦ h.accounted_step hstep (fun hcommit ↦ ?_) hstuck
    · show Option.Rel _ ((pool.connections.erase c)[c]?.bind _) _
      rw [herased, model.sessions_put_self]
      exact .none
    · rw [phaseOf, herased] at hlocked
      cases hlocked
    · rw [PoolAction.connection, phaseOf_eq hconnection] at hcommit
      cases hcommit
  · cases hdrop

/-- **Every step of a pool is one of the relational pool**, or cannot be seen. -/
theorem step (h : pool.Says model) (hstep : pool.step action = some pool') :
    pool.Refines model action pool' := by
  cases action with
  | enter c persist =>
    obtain ⟨statement, hphase⟩ := called_of_enter hstep
    cases statement with
    | begin => exact h.begin hphase hstep
    | commit => exact h.commit hphase hstep
    | rollback => exact h.rollback hphase hstep
    | _ => exact h.enter hphase rfl hstep
  | proceed c persist => exact h.proceed hstep
  | drop c => exact .inr ⟨_, _, rfl, .dropped, h.dropped hstep⟩
  | get c => exact .inl ⟨rfl, h.silent hstep (.inl rfl)⟩
  | call c sql log => exact .inl ⟨rfl, h.silent hstep (.inr (.inl ⟨sql, log, rfl⟩))⟩
  | finish c log => exact .inl ⟨rfl, h.silent hstep (.inr (.inr ⟨log, rfl⟩))⟩

end Says

/-! ## Runs -/

/-- **The runs of a pool with counters of 64 bits**, on a database that says what a relational one
says and in which all counters fit. -/
def machineOn (db : RelationalDatabase) : Machine ConnectionPool PoolAction where
  init pool := (∃ database maxConnections, database.Implements db ∧
    fromDatabase database maxConnections = .ok pool) ∧ pool.committed.Fits
  step := step64

/-- At the start, there are no transactions. -/
theorem says_start {db : RelationalDatabase} (htokenizer : db.options.fulltextTokenizer = .simple)
    (hworking : db.working = none) (h : (machineOn db).init pool) :
    pool.Says (.start db) := by
  obtain ⟨⟨database, maxConnections, ⟨rfl, hall, -⟩, hpool⟩, -⟩ := h
  have hnone : database.transaction = none := Option.map_eq_none_iff.mp hworking
  have hinv := inv_of_init ⟨database, maxConnections, fun name t ht ↦ (hall.1 name t ht).coherent,
    hnone, hpool⟩
  have hexact := hall.1
  rw [show database.options.fulltextTokenizer = .simple from htokenizer] at hexact
  rw [fromDatabase] at hpool
  split at hpool
  · cases hpool
  · cases hpool
    refine ⟨hinv, htokenizer, rfl, rfl, rfl, hexact, fun c ↦ ?_, fun c statement hphase ↦ ?_,
      fun _ key owner howner ↦ ?_⟩
    · rw [transactionOf, Std.ExtTreeMap.getElem?_empty]
      exact .none
    · rw [phaseOf, Std.ExtTreeMap.getElem?_empty] at hphase
      cases hphase
    · cases howner.symm.trans Std.ExtTreeMap.getElem?_empty

/-- **A pool that says what the relational pool says, and whose counters fit.** -/
structure Refining (pool : ConnectionPool) (model : RelationalPool) : Prop where
  agrees : pool.Says model
  fits : pool.committed.Fits

/-- A step with room is one of the relational pool, or cannot be seen. -/
theorem Refining.step (h : pool.Refining model) {action : PoolAction}
    (hroom : pool.HasRoom action) (hstep : pool.step64 action = some pool') :
    pool.see action pool' = none ∧ pool'.Refining model ∨
      ∃ event model', pool.see action pool' = some event ∧ model.Step event model' ∧
        pool'.Refining model' := by
  obtain ⟨hsaid, hfits⟩ := h
  obtain ⟨hsame, hafter⟩ := step64_eq hsaid.inv hfits hroom
  rw [hsame] at hstep
  have hfits' := hafter pool' hstep
  rcases hsaid.step hstep with ⟨hsee, hsaid'⟩ | ⟨event, model', hsee, hmodel, hsaid'⟩
  · exact .inl ⟨hsee, hsaid', hfits'⟩
  · exact .inr ⟨event, model', hsee, hmodel, hsaid', hfits'⟩

end ConnectionPool

end Platform

namespace ConnectionPool

/-- Two transactions insert into one table, and the second does not see what the first commits. -/
def interleavedInserts : List PoolAction :=
  .get 0 :: .get 1 :: long 0 "CREATE TABLE t (a INT)" ++ short 0 "BEGIN" ++ short 1 "BEGIN"
    ++ long 0 "INSERT INTO t VALUES (1)" ++ long 1 "SELECT * FROM t" ++ short 0 "COMMIT"
    ++ long 1 "INSERT INTO t VALUES (2)" ++ long 1 "SELECT * FROM t" ++ short 1 "COMMIT"
    ++ short 0 "SELECT * FROM t"

theorem initOn_memory :
    ((@machineOn Platform.ascii (.empty none {})).observed see).init (memory 2, []) :=
  ⟨⟨⟨_, 2, @Database.implements_empty Platform.ascii none {}, rfl⟩, Catalog.all_empty _⟩, rfl⟩

theorem interleavedInserts_stepsSatisfy :
    ((@machineOn Platform.ascii (.empty none {})).observed see).StepsSatisfy
      (fun p a ↦ @HasRoom Platform.ascii p.1 a) (memory 2, []) interleavedInserts := by
  decide +kernel

end ConnectionPool

end Fsql
