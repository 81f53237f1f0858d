import Fsql.Relational

/-!
# A database on a file survives

What the clients of a database on a file see over its whole life, through failing writes, processes
that end — between two calls or during one — and files that are opened again.  `Survives` says what
that is, in terms of the relational database: an answered call is a call, and when the process ends
the open transaction is lost, and a call that had not answered is done or not.

`Store.survives_of_reachableVia` says that nothing else is ever seen: row ids given out anew after a
restart, derived maps built from the file and an empty statement cache make no difference.
-/

set_option autoImplicit false

namespace Fsql

open DerivedIndex Std

section Platform

variable [Platform] {options : DatabaseOptions}

/-! ## What survives -/

namespace Store

/-- What is seen of an event: the answer, unless the process has ended. -/
abbrev Seen := Event × Option (Parse QueryResult)

/-- The process may end at the event. -/
def Event.Ends : Event → Prop
  | .restart => True
  | .execute _ fate => ∃ step, fate = .crashes step

end Store

namespace RelationalDatabase

/-- **What may be seen of an event of a database on a file**, and what the database says then. -/
inductive Survives (db : RelationalDatabase) : Store.Seen → RelationalDatabase → Prop
  /-- A call answers.  Its writes fail only if the file system does. -/
  | answered (sql : String) {fate : Fate Error} {outcome : Option Error}
      (hfate : fate = .completes → outcome = none) :
      Survives db (.execute sql fate, some (db.execute sql ⟨{}, outcome⟩).1)
        (db.execute sql ⟨{}, outcome⟩).2
  /-- The process ends.  The open transaction is lost, and so is a call that had begun. -/
  | lost (event : Store.Event) (hends : event.Ends) :
      Survives db (event, none) { db with working := none }
  /-- The process ends after a call has been done and before it has answered. -/
  | done (sql : String) (step : Nat) :
      Survives db (.execute sql (.crashes step), none)
        { (db.execute sql {}).2 with working := none }

end RelationalDatabase

namespace Store

/-- What is seen of an event in a state. -/
def see (store : Store) (event : Event) : Store.Seen :=
  (event, match event with
    | .execute sql fate =>
      match store.execute sql {} fate with
      | .returned result _ => some result
      | .crashed _ => none
    | .restart => none)

/-- The runs, and what is seen of them. -/
abbrev seenRuns (options : DatabaseOptions) : Machine (Store × List Seen) Event :=
  (machine options).observed fun store event _ ↦ some (store.see event)

/-- A `CREATE INDEX` comes where the tokenizers agree. -/
def EventKeepsTokens (store : Store) : Event → Prop
  | .execute sql _ => store.db.relational.CallKeepsTokens (sql, {})
  | .restart => True

instance decidableEventKeepsTokens (store : Store) :
    ∀ event, Decidable (store.EventKeepsTokens event)
  | .execute sql _ => inferInstanceAs (Decidable (store.db.relational.CallKeepsTokens (sql, {})))
  | .restart => isTrue trivial

/-! ## Opening the file -/

/-- **A catalog that has been read back says the same**, and its full-text indexes are those of the
configured tokenizer. -/
theorem reopened_relations {tokenizer : FullTextTokenizer} {c c' : Catalog}
    (h : c.Reopened tokenizer c') :
    c'.relations = c.relations ∧ c'.All (Table.FulltextCoherent tokenizer) := by
  refine ⟨ExtTreeMap.ext_getElem? fun name ↦ ?_, fun name t' ht' ↦ ?_⟩
  · have hname := h name
    rw [Catalog.getElem?_relations, Catalog.getElem?_relations]
    rcases ht : c.tables[name]? with _ | t
    · rw [ht] at hname
      rcases ht' : c'.tables[name]? with _ | t'
      · rfl
      · rw [ht'] at hname
        cases hname
    · rw [ht] at hname
      rcases ht' : c'.tables[name]? with _ | t'
      · rw [ht'] at hname
        cases hname
      · rw [ht'] at hname
        rcases hname with ⟨hreopened⟩
        exact congrArg some hreopened.same.data.relation_eq
  · have hname := h name
    rw [ht'] at hname
    rcases ht : c.tables[name]? with _ | t
    · rw [ht] at hname
      cases hname
    · rw [ht] at hname
      rcases hname with ⟨hreopened⟩
      exact ⟨hreopened.coherent, hreopened.fulltext⟩

/-- **A file that agrees with a catalog opens as a database that says what the catalog says.** -/
theorem implements_openWithOptions {files : Files UInt8} {catalog : Catalog} {path : Option String}
    {store : Store} (h : Agrees options files catalog)
    (hopen : openWithOptions path files options = .ok store) :
    store.db.Implements ⟨path, catalog.relations, none, options⟩ := by
  have himplements {catalog' : Catalog} (hrelations : catalog'.relations = catalog.relations)
      (hall : catalog'.All (Table.FulltextCoherent options.fulltextTokenizer)) :
      (Database.mk path catalog' none options ∅).Implements
        ⟨path, catalog.relations, none, options⟩ := by
    refine ⟨?_, ⟨hall, by simp⟩, ⟨rfl, cacheOk_empty _⟩⟩
    exact congrArg (RelationalDatabase.mk path · none options) hrelations
  obtain ⟨-, -, hopen⟩ := bind_eq_ok hopen
  rcases h with ⟨hfile, rfl⟩ | ⟨bytes, text, catalog', hfile, hne, hread, hdecode, hreopened⟩
  · have hempty := himplements rfl (Catalog.all_empty _)
    rcases hfile with hfile | hfile
    · rw [hfile] at hopen
      obtain rfl := Except.ok.inj hopen
      exact hempty
    · rw [hfile] at hopen
      obtain rfl := Except.ok.inj hopen
      exact hempty
  · obtain ⟨hrelations, hall⟩ := reopened_relations hreopened
    rw [hfile] at hopen
    rcases bytes with _ | ⟨byte, bytes⟩
    · exact absurd rfl hne
    · simp only [hread, hdecode, bind, Except.bind, pure, Except.pure] at hopen
      obtain rfl := Except.ok.inj hopen
      exact himplements hrelations hall

/-! ## What becomes of the writes -/

variable {store store' : Store} {statement : Statement} {files : Files UInt8}

omit [Platform] in
theorem persistFiles_completes (db : Database) (files : Files UInt8) :
    (db.persistFiles files .completes).2 = some (.ok ()) := by
  rw [Database.persistFiles]
  rcases db.path with _ | path
  · rfl
  · exact (Files.run_isOk_iff (by simp)).mpr (by simp)

omit [Platform] in
theorem persistFiles_crashed {db : Database} {fate : Fate Error}
    (h : (db.persistFiles files fate).2 = none) : ∃ step, fate = .crashes step := by
  rw [Database.persistFiles] at h
  rcases hpath : db.path with _ | path
  · rw [hpath] at h
    cases h
  · rw [hpath] at h
    exact Files.exists_crashes_of_run h

/-- **When no write fails**, a statement that returns does what it does with the database alone. -/
theorem executeParsed_completes {result : Result QueryResult}
    (h : store.executeParsed statement .completes = .returned result store') :
    store.db.executeParsed statement none = (result, store'.db) := by
  have hcatalog (h : store.executeCatalogStatement statement .completes = .returned result store') :
      store.db.executeCatalogStatement statement none = (result, store'.db) := by
    rw [executeCatalogStatement] at h
    split at h
    · rename_i hcommits
      obtain ⟨hmutates, htx⟩ := hcommits
      split at h
      · rename_i hexecuted
        obtain ⟨rfl, rfl⟩ := Call.returned.inj h
        simp only [Database.executeCatalogStatement, htx, hexecuted, hmutates, if_true]
      · rename_i queryResult catalog hexecuted
        have hpersist := persistFiles_completes { store.db with catalog } store.files
        rcases heq : { store.db with catalog }.persistFiles store.files .completes with
          ⟨files, result'⟩
        rw [heq] at h hpersist
        obtain rfl : result' = some (.ok ()) := hpersist
        obtain ⟨rfl, rfl⟩ := Call.returned.inj h
        simp only [Database.executeCatalogStatement, htx, hexecuted, hmutates, if_true,
          Database.persist, appendOptionalLine_none]
    · obtain ⟨rfl, rfl⟩ := Call.returned.inj h
      rfl
  cases statement with
  | commit =>
    rw [executeParsed, commit] at h
    split at h
    · rename_i htx
      obtain ⟨rfl, rfl⟩ := Call.returned.inj h
      rw [Database.executeParsed, Database.commit, htx]
    · rename_i transaction htx
      have hpersist := persistFiles_completes { store.db with catalog := transaction } store.files
      rcases heq : { store.db with catalog := transaction }.persistFiles store.files .completes with
        ⟨files, result'⟩
      rw [heq] at h hpersist
      obtain rfl : result' = some (.ok ()) := hpersist
      obtain ⟨rfl, rfl⟩ := Call.returned.inj h
      simp only [Database.executeParsed, Database.commit, htx, Database.persist,
        appendOptionalLine_none]
  | begin | rollback | explain =>
    obtain ⟨rfl, rfl⟩ := Call.returned.inj h
    rfl
  | _ => exact hcatalog h

/-- The process ends only when the environment has it so. -/
theorem executeParsed_ends {fate : Fate Error}
    (h : store.executeParsed statement fate = .crashed files) : ∃ step, fate = .crashes step := by
  have hcatalog (h : store.executeCatalogStatement statement fate = .crashed files) :
      ∃ step, fate = .crashes step := by
    rw [executeCatalogStatement] at h
    split at h
    · split at h
      · cases h
      · split at h
        · rename_i hpersist
          exact persistFiles_crashed (congrArg Prod.snd hpersist)
        · cases h
        · cases h
    · cases h
  cases statement with
  | commit =>
    rw [executeParsed, commit] at h
    split at h
    · cases h
    · split at h
      · rename_i hpersist
        exact persistFiles_crashed (congrArg Prod.snd hpersist)
      · cases h
      · cases h
  | begin | rollback | explain => cases h
  | _ => exact hcatalog h

/-- **A call without a failing write** answers what the database answers. -/
theorem execute_completes {sql : String} {result : Parse QueryResult}
    (h : store.execute sql {} .completes = .returned result store') :
    store.db.execute sql {} = (result, store'.db) := by
  rcases store.execute_cases sql .completes with ⟨fault, db, hparse, heq⟩ |
    ⟨statement, db, hparse, ⟨files, -, heq⟩ | ⟨result', store₁, hexecuted, heq⟩⟩
  · rw [h] at heq
    obtain ⟨rfl, rfl⟩ := Call.returned.inj heq
    rw [Database.execute, hparse]
  · rw [h] at heq
    cases heq
  · rw [h] at heq
    obtain ⟨rfl, rfl⟩ := Call.returned.inj heq
    have hdone := executeParsed_completes hexecuted
    rw [Database.execute, hparse]
    simp only [Database.logBefore_default, hdone]
    rcases result' with error | queryResult
    · rfl
    · simp only [Database.logAfter_default]
      rfl

/-- A call that does not return comes to its end because the environment has it so. -/
theorem execute_ends {sql : String} {fate : Fate Error}
    (h : store.execute sql {} fate = .crashed files) : ∃ step, fate = .crashes step := by
  rcases store.execute_cases sql fate with ⟨fault, db, -, heq⟩ |
    ⟨statement, db, -, ⟨files', hexecuted, -⟩ | ⟨result, store', -, heq⟩⟩
  · rw [h] at heq
    cases heq
  · exact executeParsed_ends hexecuted
  · rw [h] at heq
    cases heq

/-! ## Runs -/

/-- **A store is a relational database**: its database implements it, and its file decodes to the
committed catalog. -/
structure Says (options : DatabaseOptions) (store : Store) (model : RelationalDatabase) :
    Prop where
  /-- The database implements it. -/
  implements : store.db.Implements model
  /-- The file decodes to the committed catalog. -/
  inv : ∃ history, Inv options store history

/-- What a database that has been opened says. -/
theorem says_of_open {path : Option String} {catalog : Catalog}
    (hagrees : Agrees options files catalog)
    (hopen : (openWithOptions path files options).toOption = some store')
    (hinv : ∃ history, Inv options store' history) :
    Says options store' ⟨path, catalog.relations, none, options⟩ := by
  rcases hopened : openWithOptions path files options with error | opened
  · rw [hopened] at hopen
    cases hopen
  · rw [hopened] at hopen
    obtain rfl := Option.some.inj hopen
    exact ⟨implements_openWithOptions hagrees hopened, hinv⟩

/-- **One event.** -/
theorem Says.step {model : RelationalDatabase} {event : Event} (h : Says options store model)
    (hkeeps : store.EventKeepsTokens event)
    (hstep : (machine options).step store event = some store') :
    ∃ model', model.Survives (store.see event) model' ∧ Says options store' model' := by
  obtain ⟨himplements, history, hinv⟩ := h
  obtain rfl := himplements.relational_eq
  have hinv' : ∃ history, Inv options store' history := ⟨_, hinv.step hstep⟩
  have hoptions := hinv.options_eq
  rcases event with ⟨sql, fate⟩ | _
  · rw [machine] at hstep
    dsimp only at hstep
    split at hstep
    · rename_i result store₁ heq
      obtain rfl := Option.some.inj hstep
      -- the outcome of the write is the one of the file system
      obtain ⟨outcome, hfate, hexecute⟩ : ∃ outcome : Option Error,
          (fate = .completes → outcome = none) ∧
            store.db.execute sql ⟨{}, outcome⟩ = (result, store₁.db) := by
        rcases fate with _ | ⟨step, written, error⟩ | step
        · exact ⟨none, fun _ ↦ rfl, execute_completes heq⟩
        · obtain ⟨outcome, hexecute⟩ := execute_returned hinv.path hinv.pageSize heq
          exact ⟨outcome, by simp, hexecute⟩
        · obtain ⟨outcome, hexecute⟩ := execute_returned hinv.path hinv.pageSize heq
          exact ⟨outcome, by simp, hexecute⟩
      obtain ⟨hresult, hnext⟩ := Database.simulates_relational (i := (sql, ⟨{}, outcome⟩))
        himplements hkeeps
      have hsee : store.see (.execute sql fate) =
          (.execute sql fate, some (store.db.relational.execute sql ⟨{}, outcome⟩).1) := by
        rw [see, heq]
        exact congrArg (Prod.mk _ <| some ·)
          ((congrArg Prod.fst hexecute).symm.trans hresult)
      have hdb : (Database.service store.db (sql, ⟨{}, outcome⟩)).2 = store₁.db :=
        congrArg Prod.snd hexecute
      rw [hdb] at hnext
      rw [hsee]
      exact ⟨_, .answered sql hfate, hnext, hinv'⟩
    · rename_i files heq
      obtain ⟨step, rfl⟩ := execute_ends heq
      have hsee : store.see (.execute sql (.crashes step)) =
          (.execute sql (.crashes step), none) := by
        rw [see, heq]
      rw [hsee]
      rcases execute_crashed hinv.path hinv.pageSize heq with hfile | hfile
      · have hsaid := says_of_open (hinv.agrees.congr hfile) hstep hinv'
        refine ⟨_, .lost (.execute sql (.crashes step)) ⟨step, rfl⟩, ?_⟩
        rw [← hoptions] at hsaid
        exact hoptions ▸ hsaid
      · obtain ⟨-, hnext⟩ := Database.simulates_relational (i := (sql, {})) himplements hkeeps
        have hstorable := (hinv.storable_execute sql {}).1
        have hsaid := says_of_open (.inr (decodes_utf8 hstorable hfile)) hstep hinv'
        have hrelational : (store.db.execute sql {}).2.relational =
          (store.db.relational.execute sql {}).2 := hnext.relational_eq
        have hsettings := store.db.settings_execute sql {}
        refine ⟨_, .done sql step, ?_⟩
        have hafter : { (store.db.relational.execute sql {}).2 with working := none } =
            RelationalDatabase.mk store.db.path (store.db.execute sql {}).2.catalog.relations none
              options := by
          rw [← hrelational, ← hsettings.2, ← hoptions, ← hsettings.1]
          rfl
        rw [hafter]
        exact hsaid
  · have hsaid := says_of_open hinv.agrees hstep hinv'
    refine ⟨_, .lost .restart trivial, ?_⟩
    rw [← hoptions] at hsaid
    exact hoptions ▸ hsaid

/-- **A database on a file survives**: whatever writes fail, wherever the process ends and however
often the file is opened again, what has been seen is what the relational database allows, and the
database says what the relational database says. -/
theorem survives_of_reachableVia {seen : List Seen}
    (h : (seenRuns options).ReachableVia (fun p event ↦ p.1.EventKeepsTokens event)
      (store, seen)) :
    Runs (fun model ↦ ∃ path : String, model = .empty (some path) options)
      RelationalDatabase.Survives seen store.db.relational := by
  have key := Machine.runs_of_observed (R := Says options)
    (S := fun model ↦ ∃ path : String, model = .empty (some path) options)
    (T := RelationalDatabase.Survives) ?_ ?_ h
  · obtain ⟨model, hruns, hsaid⟩ := key
    exact hsaid.implements.relational_eq ▸ hruns
  · rintro store ⟨path, files, hfile, hopen⟩
    obtain ⟨_, hvalid, -⟩ := bind_eq_ok hopen
    have hagrees : Agrees options files .empty := .inl ⟨hfile, rfl⟩
    have himplements := implements_openWithOptions hagrees hopen
    obtain ⟨catalog', heq, hstorable, hagrees', -⟩ :=
      openWithOptions_eq_ok hvalid Catalog.storable_empty hagrees (some path)
    obtain rfl := Except.ok.inj (hopen.symm.trans heq)
    have hempty : RelationalDatabase.mk (some path) (Catalog.relations .empty) none options =
      .empty (some path) options := Database.relational_empty (some path) options ∅
    rw [hempty] at himplements
    exact ⟨_, ⟨path, rfl⟩, himplements, ⟨false, .empty⟩, hvalid, rfl, rfl, ⟨hstorable, by simp⟩,
      hagrees', by simp, by simp⟩
  · intro store event store' model hsaid hkeeps hstep
    obtain ⟨model', hsurvives, hsaid'⟩ := hsaid.step hkeeps hstep
    exact .inr ⟨_, model', rfl, hsurvives, hsaid'⟩

end Store

end Platform

namespace Store

/-- The first row is written, the process ends during the next two calls — before one of them is
done, and after the other is — and then between two calls, with a transaction open. -/
def lifetime : List Event :=
  [.execute "CREATE TABLE t (a INT)" .completes, .execute "INSERT INTO t VALUES (1)" .completes,
    .execute "INSERT INTO t VALUES (2)" (.crashes 4),
    .execute "INSERT INTO t VALUES (3)" (.crashes 5), .execute "BEGIN" .completes,
    .execute "DELETE FROM t" .completes, .restart, .execute "SELECT * FROM t" .completes]

/-- The first row is there afterwards, and so is the one whose call was done. -/
theorem survives_lifetime : ∃ store seen,
    (@seenRuns Platform.ascii {}).runFrom (missing, []) lifetime = some (store, seen) ∧
      seen.map (fun s ↦ s.2.map fun answer ↦ answer.toOption.map (·.rows.length)) =
        [some (some 0), some (some 0), none, none, some (some 0), some (some 0), none,
          some (some 2)] ∧
      Runs (fun model ↦ ∃ path : String, model = .empty (some path) {})
        (@RelationalDatabase.Survives Platform.ascii) seen store.db.relational := by
  have hsome : ((@seenRuns Platform.ascii {}).runFrom (missing, []) lifetime).any
      (fun p ↦ p.2.map (fun s ↦ s.2.map fun answer ↦ answer.toOption.map (·.rows.length)) =
        [some (some 0), some (some 0), none, none, some (some 0), some (some 0), none,
          some (some 2)]) = true := by decide +kernel
  simp only [Option.any_eq_true, decide_eq_true_eq] at hsome
  obtain ⟨⟨store, seen⟩, hrun, hseen⟩ := hsome
  have hinit : (@seenRuns Platform.ascii {}).init (missing, []) :=
    ⟨⟨"f", ⟨none, none⟩, .inl rfl, rfl⟩, rfl⟩
  exact ⟨store, seen, hrun, hseen, @survives_of_reachableVia Platform.ascii {} _ _
    (Machine.reachableVia_of_runFrom (.init hinit) (by decide +kernel) hrun)⟩

end Store

end Fsql
