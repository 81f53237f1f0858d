import Fsql.Pool.History

/-!
# Locks on inserted keys

Inside a transaction an `INSERT` locks a key made of the literal that the statement gives the
primary key, so that two open transactions do not insert one key.  The lock is computed from the
statement as it is written: from the first column of the list that is spelled as the primary key,
and from the literal before it is converted.  What is stored is the literal of the last name that
resolves to the primary key, converted to the type of the column.

`ConnectionPool.keysDistinct_of_reachableVia` — as long as these are the same value, no two open
transactions have inserted one key.  `ConnectionPool.not_keysDistinct` — otherwise they can.
-/

set_option autoImplicit false

namespace Fsql

/-! ## The key an insertion stores -/

/-- What a column of a type stores of a literal: a FLOAT column converts an integer. -/
def ColumnType.converted : ColumnType → Value → Value
  | .float, .integer value => .float (.ofInt64 value)
  | _, value => value

/-- The value that names and literals give a column: the literal of the last name that resolves to
it, converted. -/
def Column.given (column : Column) (entries : List (String × Value)) : Option Value :=
  (entries.reverse.find? fun entry ↦ normalizeIdentifier entry.1 = column.name).map fun entry ↦
    column.ty.converted entry.2

namespace Table

/-- **The literal an insertion locks is the value it stores**: the first name that is spelled as the
primary key has the value that is given to this column. -/
def KeyAsWritten (t : Table) (columns : Option (List String)) (values : List Value) : Prop :=
  ∀ primaryKey ∈ t.primaryKey, ∀ column ∈ t.columns.find? (·.name = primaryKey),
    ∀ value ∈ column.given ((columns.getD (t.columns.map (·.name))).zip values),
      (((columns.getD (t.columns.map (·.name))).zip values).find? (·.1 = primaryKey)).map (·.2) =
        some value

instance decidableKeyAsWritten (t : Table) (columns : Option (List String)) (values : List Value) :
    Decidable (t.KeyAsWritten columns values) := by
  unfold KeyAsWritten
  infer_instance

section Platform

variable [Platform] {options : TableRuntimeOptions}

theorem validateValue_eq_converted {column : Column} {value stored : Value}
    (h : validateValueWithOptions column value options = .ok stored) :
    stored = column.ty.converted value := by
  obtain ⟨name, ty, primaryKey⟩ := column
  cases value with
  | float x =>
    cases ty <;> simp only [validateValueWithOptions, reduceCtorEq] at h
    split at h <;> cases h
    rfl
  | vector x =>
    cases ty <;> simp only [validateValueWithOptions, reduceCtorEq] at h
    split at h
    · split at h
      · split at h <;> cases h
        rfl
      · cases h
        rfl
    · cases h
  | point x =>
    cases ty <;> simp only [validateValueWithOptions, reduceCtorEq] at h
    split at h <;> cases h
    rfl
  | _ => cases ty <;> cases h <;> rfl

/-- **What an insertion stores in a column**: the value it is given, or else what was there. -/
theorem insertValues_given {t : Table} {entries : List (String × Value)} {row row' : Row}
    (h : t.insertValues options entries row = .ok row') {name : String} {value : Value}
    (hvalue : row'[name]? = some value) :
    (∃ column ∈ t.columns.find? (·.name = name), column.given entries = some value) ∨
      row[name]? = some value ∧ ∀ entry ∈ entries, normalizeIdentifier entry.1 ≠ name := by
  induction entries generalizing row with
  | nil =>
    rw [insertValues] at h
    exact .inr ⟨Except.ok.inj h ▸ hvalue, by simp⟩
  | cons entry entries ih =>
    obtain ⟨columnName, literal⟩ := entry
    rw [insertValues] at h
    rcases hcolumn : t.column columnName with error | column
    · rw [hcolumn] at h
      cases h
    · rcases hstored : validateValueWithOptions column literal options with error | stored
      · simp only [hcolumn, hstored, bind, Except.bind] at h
        cases h
      · simp only [hcolumn, hstored, bind, Except.bind] at h
        obtain ⟨-, hname⟩ := column_eq_ok hcolumn
        rcases ih h with ⟨column', hcolumn', hgiven⟩ | ⟨hrow, hfree⟩
        · refine .inl ⟨column', hcolumn', ?_⟩
          rw [Column.given, Option.map_eq_some_iff] at hgiven ⊢
          obtain ⟨entry, hentry, rfl⟩ := hgiven
          exact ⟨entry, by rw [List.reverse_cons, List.find?_append, hentry, Option.some_or], rfl⟩
        · rw [BTree.getElem?_insert] at hrow
          split at hrow
          · rename_i heq
            obtain rfl := Option.some.inj hrow
            -- the last name of the column
            have hlast : entries.reverse.find?
                (fun entry ↦ decide (normalizeIdentifier entry.1 = column.name)) = none := by
              rw [List.find?_eq_none]
              intro entry hentry
              rw [decide_eq_true_eq, heq]
              exact hfree entry (List.mem_reverse.mp hentry)
            have hfound : t.columns.find? (·.name = name) = some column := by
              rw [Table.column] at hcolumn
              split at hcolumn
              · rename_i hfound
                rw [← heq, hname, hfound, Except.ok.inj hcolumn]
              · cases hcolumn
            refine .inl ⟨column, hfound, ?_⟩
            rw [Column.given, List.reverse_cons, List.find?_append, hlast, Option.none_or,
              List.find?_cons_of_pos (by rw [decide_eq_true_eq, hname]), Option.map_some,
              validateValue_eq_converted hstored]
          · rename_i hne
            refine .inr ⟨hrow, fun entry hentry ↦ ?_⟩
            rcases List.mem_cons.mp hentry with rfl | hentry
            · rw [← hname]
              exact hne
            · exact hfree entry hentry

/-- **The primary key of the row an insertion stores** is the value it gives that column. -/
theorem insertRow_given {t : Table} {columns : Option (List String)} {values : List Value}
    {row : Row} (h : t.insertRow columns values options = .ok row) {key : String}
    (hkey : primaryKeyOf t.primaryKey row = some key) :
    ∃ primaryKey column value, t.primaryKey = some primaryKey ∧
      t.columns.find? (·.name = primaryKey) = some column ∧
      column.given ((columns.getD (t.columns.map (·.name))).zip values) = some value ∧
      indexKey value = .ok key := by
  obtain ⟨primaryKey, value, hprimaryKey, hvalue, hne, hindexed⟩ := primaryKeyOf_eq_some.mp hkey
  rcases insertValues_given (insertRow_eq_ok h).1 hvalue with ⟨column, hcolumn, hgiven⟩ | ⟨hnull, -⟩
  · exact ⟨primaryKey, column, value, hprimaryKey, hcolumn, hgiven, hindexed⟩
  · rcases getElem?_nulls _ _ _ _ hnull with hrow | ⟨hvalue, -⟩
    · simp at hrow
    · exact absurd hvalue hne

end Platform

end Table

/-! ## The lock of an insertion -/

/-- The lock key of a primary key that is inserted. -/
def insertKey (table key : String) : String := "insert:" ++ table ++ ":" ++ key

/-- The first name of a statement that is spelled as the primary key has its literal locked. -/
def LiteralLocked (state : TransactionState) : Statement → Prop
  | .insert table columns values => ∀ t, state.catalog.tables[table]? = some t →
      ∀ primaryKey literal key, t.primaryKey = some primaryKey →
        (((columns.getD (t.columns.map (·.name))).zip values).find? (·.1 = primaryKey)).map (·.2) =
          some literal →
        indexKey literal = .ok key → insertKey table key ∈ state.lockedRows
  | _ => True

section Platform

variable [Platform]

theorem literalLocked_of_lockStatementRows {shared : SharedDatabase} {state : TransactionState}
    {statement : Statement} (hok : (lockStatementRows shared statement state).1 = .ok ()) :
    LiteralLocked (lockStatementRows shared statement state).2.2 statement := by
  cases statement with
  | insert table columns values =>
    rw [lockStatementRows] at hok ⊢
    rcases hkeys : rowsToLock state.catalog (.insert table columns values)
      (tableRuntimeOptions shared.database.options) with error | keys
    · rw [hkeys] at hok
      cases hok
    · rw [hkeys] at hok
      have hall := @LockTable.mem_acquire_of_ok _ _ _ _ _ _ _ state.id keys
        shared.rowLocks state.lockedRows
      dsimp only at hok ⊢
      rcases hacquire : LockTable.acquire state.id keys shared.rowLocks state.lockedRows with
        ⟨key | _, rowLocks, lockedRows⟩
      · rw [hacquire] at hok
        cases hok
      · rw [hacquire] at hok hall
        simp only [reserveInsertRowId] at hok ⊢
        rcases hcommitted : shared.database.catalog.tables[table]? with _ | committed
        · rw [hcommitted] at hok
          cases hok
        · rw [hcommitted] at hok
          rcases hstaged : state.catalog.tables[table]? with _ | staged
          · simp only [hstaged] at hok
            cases hok
          · simp only
            intro t ht primaryKey literal key hprimaryKey hliteral hkey
            rw [BTree.getElem?_insert, if_pos rfl, Option.some.injEq] at ht
            -- the staged table has only its next row id changed
            have hsame : t.primaryKey = staged.primaryKey ∧ t.columns = staged.columns := by
              rw [← ht]
              split <;> exact ⟨rfl, rfl⟩
            rw [hsame.1] at hprimaryKey
            rw [hsame.2, Option.map_eq_some_iff] at hliteral
            obtain ⟨entry, hentry, rfl⟩ := hliteral
            rw [rowsToLock, insertLockKey] at hkeys
            simp only [hstaged, hprimaryKey, hentry, hkey, Except.map, Except.ok.injEq] at hkeys
            subst hkeys
            exact (BTree.mem_insert_set _ _ _).mpr (.inr (hall rfl (List.mem_singleton.mpr rfl)))
  | _ => trivial

namespace ConnectionPool

variable {pool pool' : ConnectionPool}

/-! ## Steps -/

/-- A connection comes to the second critical section with the literal of its `INSERT` locked. -/
theorem literalLocked_of_step {action : PoolAction} {statement : Statement}
    (h : pool.step action = some pool')
    (hlocked : pool'.phaseOf action.connection = some (.locked statement)) :
    ∀ state' ∈ pool'.transactionOf action.connection, LiteralLocked state' statement := by
  have hnew (connection : Connection) (c : Nat) :
      (pool.connections.insert c connection)[c]? = some connection := by
    rw [BTree.getElem?_insert, if_pos rfl]
  cases action with
  | get c =>
    rw [step, get] at h
    split at h
    · cases h
    · cases h
      rw [PoolAction.connection, phaseOf, hnew] at hlocked
      cases hlocked
  | drop c =>
    rw [step, drop] at h
    split at h
    · cases h
      rw [PoolAction.connection, phaseOf, BTree.getElem?_erase, if_pos rfl] at hlocked
      cases hlocked
    · cases h
  | call c sql log =>
    rw [step, call] at h
    split at h
    · rename_i transaction statementCache cachePoisoned lastResult _
      cases h
      rw [PoolAction.connection, phaseOf, hnew, Option.map_some, Option.some.injEq,
        callConnection] at hlocked
      split at hlocked
      · cases hlocked
      · dsimp only at hlocked
        split at hlocked
        · cases hlocked
        · split at hlocked <;> cases hlocked
    · cases h
  | enter c persist =>
    obtain ⟨called, hcalled⟩ : ∃ called, pool.phaseOf c = some (.called called) := by
      rw [step, enter] at h
      split at h
      · rename_i connection hconnection
        split at h
        · rename_i called hphase
          exact ⟨called, by rw [phaseOf_eq hconnection, hphase]⟩
        · cases h
      · cases h
    obtain ⟨-, htransaction, hphase⟩ := enter_called hcalled h
    rw [PoolAction.connection] at hlocked ⊢
    obtain ⟨rfl, state, -, hok, heq⟩ :=
      enterStatement_locked (Option.some.inj (hphase.symm.trans hlocked))
    rw [htransaction, heq]
    intro state' hstate'
    obtain rfl := Option.some.inj hstate'
    exact literalLocked_of_lockStatementRows hok
  | proceed c persist =>
    rw [step, proceed] at h
    split at h
    · split at h
      · rename_i phase shared transaction hproceed
        cases h
        rw [PoolAction.connection, phaseOf, hnew, Option.map_some, Option.some.injEq] at hlocked
        dsimp only at hlocked
        subst hlocked
        unfold proceedStatement at hproceed
        split at hproceed <;> cases hproceed
      · cases h
    · cases h
  | finish c log =>
    rw [step, finish] at h
    split at h
    · split at h
      · cases h
        rw [PoolAction.connection, phaseOf, hnew] at hlocked
        cases hlocked
      · cases h
    · cases h

/-- What the second critical section of a statement does in a transaction. -/
theorem proceed_locked {c : Nat} {persist : Option Error} {statement : Statement}
    {state : TransactionState} (hphase : pool.phaseOf c = some (.locked statement))
    (hopen : pool.transactionOf c = some state)
    (h : pool.step (.proceed c persist) = some pool') :
    pool'.transactionOf c = some { state with
        catalog := (executeStatementWithOptions state.catalog statement pool.options).2 } ∧
      pool'.phaseOf c = some (.returned statement
        (executeStatementWithOptions state.catalog statement pool.options).1) := by
  obtain ⟨connection, hconnection, hconnectionPhase⟩ := Option.map_eq_some_iff.mp hphase
  rw [transactionOf_eq hconnection] at hopen
  rw [step, proceed, hconnection] at h
  simp only [hconnectionPhase, hopen, proceedStatement, Option.some.injEq] at h
  subst h
  have hnew (connection' : Connection) :
      (pool.connections.insert c connection')[c]? = some connection' := by
    rw [BTree.getElem?_insert, if_pos rfl]
  exact ⟨by rw [transactionOf, hnew, Option.bind_some], by rw [phaseOf, hnew, Option.map_some]⟩

/-! ## Inserted keys -/

/-- **The primary key of the row that an `INSERT` of a transaction stores** with this step, when it
succeeds, beside the name of the table. -/
def insertedKey (pool : ConnectionPool) (action : PoolAction) (pool' : ConnectionPool) :
    Option (String × String) :=
  match action, pool.phaseOf action.connection, pool'.phaseOf action.connection with
  | .proceed c _, some (.locked (.insert table _ _)), some (.returned _ (.ok _)) => do
    let state ← pool.transactionOf c
    let state' ← pool'.transactionOf c
    let t ← state.catalog.tables[table]?
    let t' ← state'.catalog.tables[table]?
    let row ← t'.rows[t.nextRowId]?
    let key ← primaryKeyOf t'.primaryKey row
    return (table, key)
  | _, _, _ => none

/-- **The pool with the primary keys that the open transactions have inserted.** -/
def inserting : Machine (ConnectionPool × (Nat → List (String × String))) PoolAction :=
  machine.withHistory (fun _ _ ↦ []) fun pool keys action pool' ↦
    Function.update keys action.connection
      (match pool.transactionOf action.connection, pool'.transactionOf action.connection with
      | some _, some _ => (pool.insertedKey action pool').toList ++ keys action.connection
      | _, _ => [])

/-- If the step executes an `INSERT` of a transaction that the table accepts, the literal it has
locked is the value it stores. -/
def InsertsAsWritten (pool : ConnectionPool) (action : PoolAction) : Prop :=
  match action, pool.phaseOf action.connection with
  | .proceed c _, some (.locked (.insert table columns values)) =>
    ∀ state ∈ pool.transactionOf c, ∀ t ∈ state.catalog.tables[table]?,
      (t.insertRow columns values pool.options).isOk = true → t.KeyAsWritten columns values
  | _, _ => True

instance decidableInsertsAsWritten (pool : ConnectionPool) (action : PoolAction) :
    Decidable (pool.InsertsAsWritten action) :=
  match action with
  | .proceed c persist => by
    unfold InsertsAsWritten
    split <;> infer_instance
  | .get _ | .drop _ | .call .. | .enter .. | .finish .. => inferInstanceAs (Decidable True)

/-- **A key that is inserted as it is written has been locked.** -/
theorem insertedKey_locked (hinv : pool.Inv) {action : PoolAction}
    (h : pool.step action = some pool') (hwritten : pool.InsertsAsWritten action)
    (hliteral : ∀ state statement, pool.transactionOf action.connection = some state →
      pool.phaseOf action.connection = some (.locked statement) → LiteralLocked state statement)
    {table key : String} (hkey : pool.insertedKey action pool' = some (table, key))
    {state' : TransactionState} (hopen' : pool'.transactionOf action.connection = some state') :
    insertKey table key ∈ state'.lockedRows := by
  unfold insertedKey at hkey
  split at hkey
  · rename_i c persist name columns values statement' result hphase hphase'
    rw [PoolAction.connection] at hphase hphase' hliteral hopen'
    simp only [InsertsAsWritten, PoolAction.connection, hphase] at hwritten
    rcases hopen : pool.transactionOf c with _ | state
    · rw [hopen] at hkey
      cases hkey
    · obtain ⟨htransaction, hreturned⟩ := proceed_locked hphase hopen h
      rw [hopen, htransaction] at hkey
      obtain rfl := Option.some.inj (htransaction.symm.trans hopen')
      have hlocked := hliteral state _ hopen hphase
      rw [hphase', Option.some.injEq, Phase.returned.injEq] at hreturned
      simp only [Option.bind_eq_bind, Option.bind_some, Option.bind_eq_some_iff, Option.pure_def,
        Option.some.injEq, Prod.mk.injEq] at hkey
      obtain ⟨t, ht, t', ht', row', hrow', key', hkey, rfl, rfl⟩ := hkey
      have hresult := hreturned.2
      rw [executeStatementWithOptions, Catalog.modifyTable_self _ ht] at hresult ht'
      rw [BTree.getElem?_insert, if_pos rfl, Option.some.injEq] at ht'
      -- the insertion has been accepted, and its row is the one that is stored
      rcases hrow : t.insertRow columns values pool.options with error | row
      · rw [Table.insertWithOptions_error hrow] at hresult
        cases hresult
      · have hstate := hinv.states c state hopen
        obtain ⟨t₁, heq, -, hdata⟩ :=
          Table.insertWithOptions_ok (hstate.coherent name t ht) hrow
        rw [heq] at ht'
        obtain rfl := ht'
        rw [hdata.rows, Table.stored, BTree.getElem?_insert, if_pos rfl, Option.some.injEq] at hrow'
        subst hrow'
        rw [hdata.primaryKey] at hkey
        obtain ⟨primaryKey, column, value, hprimaryKey, hcolumn, hgiven, hindexed⟩ :=
          Table.insertRow_given hrow hkey
        have hfound := hwritten state hopen t ht (by rw [hrow]; rfl) primaryKey hprimaryKey column
          hcolumn value hgiven
        exact hlocked t ht primaryKey value key' hprimaryKey hfound hindexed
  · cases hkey

/-- **What is known of the inserted keys.** -/
structure KeysLocked (pool : ConnectionPool) (keys : Nat → List (String × String)) : Prop where
  /-- The keys that an open transaction has inserted are locked. -/
  locked (c : Nat) (state : TransactionState) : pool.transactionOf c = some state →
    ∀ p ∈ keys c, insertKey p.1 p.2 ∈ state.lockedRows
  /-- The literal of an `INSERT` that is about to be executed is locked. -/
  literal (c : Nat) (state : TransactionState) (statement : Statement) :
    pool.transactionOf c = some state → pool.phaseOf c = some (.locked statement) →
      LiteralLocked state statement

theorem keysLocked_of_reachableVia {keys : Nat → List (String × String)}
    (h : inserting.ReachableVia (fun p a ↦ InsertsAsWritten p.1 a) (pool, keys)) :
    KeysLocked pool keys := by
  refine h.invariant (I := fun p ↦ KeysLocked p.1 p.2) ?_ ?_
  · rintro ⟨pool, keys⟩ ⟨⟨database, maxConnections, -, -, hpool⟩, -⟩
    rw [fromDatabase] at hpool
    split at hpool
    · cases hpool
    · cases hpool
      exact ⟨by simp [transactionOf], by simp [transactionOf]⟩
  · rintro ⟨pool, keys⟩ action ⟨pool', keys'⟩ hreachable ⟨hlocked, hliteral⟩ hwritten hstep
    have hinv : pool.Inv := inv_of_reachableVia (C := InsertsAsWritten) hreachable.of_withHistory
    obtain ⟨hpoolStep, hkeys⟩ := Machine.withHistory_step_eq_some.mp hstep
    dsimp only at hpoolStep hkeys hlocked hliteral hwritten
    have hstepOf := step_cases (hinv.ready action.connection) hpoolStep
    refine ⟨fun c state' hopen' p hp ↦ ?_, fun c state' statement hopen' hphase' ↦ ?_⟩
    · by_cases hc : c = action.connection
      · subst hc
        simp only [hkeys, Function.update_self, hopen'] at hp
        rcases hopen : pool.transactionOf action.connection with _ | state
        · rw [hopen] at hp
          cases hp
        · rw [hopen] at hp
          rcases List.mem_append.mp hp with hnew | hold
          · exact insertedKey_locked hinv hpoolStep hwritten (hliteral _)
              (Option.mem_toList.mp hnew)
              hopen'
          · have heffect := hstepOf.effect
            have hready := (hinv.ready action.connection).state
            rw [hopen] at heffect hready
            rw [hopen'] at heffect
            have hkept := effect_kept heffect hinv.shared hready state rfl state' rfl
            exact hkept.subset _ (hlocked _ state hopen p hold)
      · simp only [hkeys, Function.update_of_ne hc] at hp
        rw [hstepOf.transactionOf_ne hc] at hopen'
        exact hlocked c state' hopen' p hp
    · by_cases hc : c = action.connection
      · subst hc
        exact literalLocked_of_step hpoolStep hphase' state' hopen'
      · rw [hstepOf.transactionOf_ne hc] at hopen'
        rw [phaseOf, hstepOf.others c hc, ← phaseOf] at hphase'
        exact hliteral c state' statement hopen' hphase'

/-- **Two open transactions have not inserted one key** into one table. -/
def KeysDistinct (pool : ConnectionPool) (keys : Nat → List (String × String)) : Prop :=
  ∀ c c', c ≠ c' → (pool.transactionOf c).isSome = true → (pool.transactionOf c').isSome = true →
    ∀ table key, (table, key) ∈ keys c → (table, key) ∉ keys c'

/-- **Concurrent insertions of one primary key are detected** in every run whose insertions lock the
value they store. -/
theorem keysDistinct_of_reachableVia {keys : Nat → List (String × String)}
    (h : inserting.ReachableVia (fun p a ↦ InsertsAsWritten p.1 a) (pool, keys)) :
    KeysDistinct pool keys := by
  have hlocked := (keysLocked_of_reachableVia h).locked
  have hinv : pool.Inv := inv_of_reachableVia (C := InsertsAsWritten) h.of_withHistory
  intro c c' hne hopen hopen' table key hkey hkey'
  obtain ⟨state, hstate⟩ := Option.isSome_iff_exists.mp hopen
  obtain ⟨state', hstate'⟩ := Option.isSome_iff_exists.mp hopen'
  refine hinv.id_ne hne hstate' hstate ?_
  exact (hinv.states c state hstate).holds.eq_of_mem (hinv.states c' state' hstate').holds
    (hlocked c state hstate _ hkey) (hlocked c' state' hstate' _ hkey')

end ConnectionPool

end Platform

namespace ConnectionPool

/-! ## Concrete runs -/

/-- The pool and the inserted keys after the actions of a list. -/
def insertingAfter (actions : List PoolAction) :
    ConnectionPool × (Nat → List (String × String)) :=
  ((@inserting Platform.ascii).runFrom (memory 2, fun _ ↦ []) actions).getD
    (memory 2, fun _ ↦ [])

theorem reachableVia_insertingAfter
    {C : ConnectionPool × (Nat → List (String × String)) → PoolAction → Prop}
    (actions : List PoolAction)
    (hC : (@inserting Platform.ascii).StepsSatisfy C (memory 2, fun _ ↦ []) actions) :
    (@inserting Platform.ascii).ReachableVia C
      ((insertingAfter actions).1, (insertingAfter actions).2) := by
  have hinit : (@inserting Platform.ascii).ReachableVia C (memory 2, fun _ ↦ []) :=
    .init ⟨init_memory (by decide), rfl⟩
  rw [insertingAfter]
  rcases hrun : (@inserting Platform.ascii).runFrom (memory 2, fun _ ↦ []) actions with _ | p
  · exact hinit
  · exact Machine.reachableVia_of_runFrom hinit hC hrun

/-- Two transactions insert into a table, each once. -/
def twoInserts (columnType first second : String) : List PoolAction :=
  .get 0 :: .get 1 :: long 0 ("CREATE TABLE t (a " ++ columnType ++ " PRIMARY KEY)")
    ++ short 0 "BEGIN" ++ short 1 "BEGIN" ++ long 0 ("INSERT INTO t VALUES (" ++ first ++ ")")
    ++ long 1 ("INSERT INTO t VALUES (" ++ second ++ ")")

/-- **Two transactions can insert one key**: an integer and a number with a fraction, of which a
FLOAT column stores one value, are locked under two keys. -/
theorem not_keysDistinct : ¬∀ [Platform] (pool : ConnectionPool)
    (keys : Nat → List (String × String)), inserting.Reachable (pool, keys) →
      KeysDistinct pool keys := by
  intro h
  have hreachable := reachableVia_insertingAfter (twoInserts "FLOAT" "1" "1.0")
    (Machine.stepsSatisfy_true _ _)
  have hstate : ((insertingAfter (twoInserts "FLOAT" "1" "1.0")).1.transactionOf 0).isSome = true ∧
      ((insertingAfter (twoInserts "FLOAT" "1" "1.0")).1.transactionOf 1).isSome = true ∧
      ("t", "F:3ff0000000000000") ∈ (insertingAfter (twoInserts "FLOAT" "1" "1.0")).2 0 ∧
      ("t", "F:3ff0000000000000") ∈ (insertingAfter (twoInserts "FLOAT" "1" "1.0")).2 1 := by
    decide +kernel
  exact @h Platform.ascii _ _ hreachable 0 1 (by decide) hstate.1 hstate.2.1 _ _ hstate.2.2.1
    hstate.2.2.2

theorem insertsAsWritten_twoInserts : (@inserting Platform.ascii).StepsSatisfy
    (fun p a ↦ @InsertsAsWritten Platform.ascii p.1 a) (memory 2, fun _ ↦ [])
    (twoInserts "INT" "1" "2") := by decide +kernel

/-- Two transactions insert two keys. -/
theorem keysDistinct_twoInserts :
    ("t", "I:1") ∈ (insertingAfter (twoInserts "INT" "1" "2")).2 0 ∧
      ("t", "I:2") ∈ (insertingAfter (twoInserts "INT" "1" "2")).2 1 ∧
      KeysDistinct (insertingAfter (twoInserts "INT" "1" "2")).1
        (insertingAfter (twoInserts "INT" "1" "2")).2 := by
  have hreachable := reachableVia_insertingAfter _ insertsAsWritten_twoInserts
  have hkeys : ("t", "I:1") ∈ (insertingAfter (twoInserts "INT" "1" "2")).2 0 ∧
      ("t", "I:2") ∈ (insertingAfter (twoInserts "INT" "1" "2")).2 1 := by decide +kernel
  exact ⟨hkeys.1, hkeys.2, @keysDistinct_of_reachableVia Platform.ascii _ _ hreachable⟩

end ConnectionPool

end Fsql
