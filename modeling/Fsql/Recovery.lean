import Fsql.Durable

/-!
# A database on a file is a transactional store

Calls may fail at any operation on the file, and the process may end between any two of them and
the file be opened again.  The invariant is that the file decodes to the committed catalog
(`Agrees`); `Store.transactional_of_reachable` reads everything else off it and off what one call
does (`Store.Effect`).

Two history variables say what the state does not: whether the committed catalog has been written
yet, and what it was when the open transaction began.
-/

set_option autoImplicit false

namespace Fsql

section Platform

variable [Platform] {options : DatabaseOptions}

/-- **The file decodes to a catalog.** -/
def Decodes (options : DatabaseOptions) (files : Files UInt8) (catalog : Catalog) : Prop :=
  ∃ bytes text catalog', files.file = some bytes ∧ bytes ≠ [] ∧ readToString bytes = .ok text ∧
    Catalog.decodeWithOptions text (tableRuntimeOptions options) = .ok catalog' ∧
    catalog.Reopened options.fulltextTokenizer catalog'

/-- The file decodes to the catalog, or nothing has been written and the catalog is empty. -/
def Agrees (options : DatabaseOptions) (files : Files UInt8) (catalog : Catalog) : Prop :=
  (files.file = none ∨ files.file = some []) ∧ catalog = .empty ∨ Decodes options files catalog

/-- What is written decodes. -/
theorem decodes_utf8 {files : Files UInt8} {catalog : Catalog} (h : catalog.Storable)
    (hfile : files.file = some (utf8 catalog.encode)) : Decodes options files catalog := by
  obtain ⟨catalog', hdecode, hreopened⟩ :=
    Catalog.decode_encode h.named h.coherent h.declared (tableRuntimeOptions options)
  refine ⟨_, _, catalog', hfile, ?_, readToString_utf8 _, hdecode, hreopened⟩
  intro hnil
  have hread := readToString_utf8 catalog.encode
  rw [hnil] at hread
  have hempty : catalog.encode = "" := Except.ok.inj (hread.symm.trans (readToString_utf8 ""))
  have hlines := lines_encode catalog
  rw [hempty] at hlines
  cases hlines

theorem Agrees.congr {files files' : Files UInt8} {catalog : Catalog}
    (h : Agrees options files catalog) (hfile : files'.file = files.file) :
    Agrees options files' catalog := by
  rw [Agrees, Decodes, hfile]
  exact h

/-- **What has been read back decodes** as what it has been read back from. -/
theorem Decodes.reopened {files : Files UInt8} {catalog catalog' : Catalog} {bytes : List UInt8}
    {text : String} (hfile : files.file = some bytes) (hne : bytes ≠ [])
    (hread : readToString bytes = .ok text)
    (hdecode : Catalog.decodeWithOptions text (tableRuntimeOptions options) = .ok catalog')
    (h : catalog.Reopened options.fulltextTokenizer catalog') : Decodes options files catalog' := by
  refine ⟨bytes, text, catalog', hfile, hne, hread, hdecode, fun name ↦ ?_⟩
  have hname := h name
  rcases ht' : catalog'.tables[name]? with _ | t'
  · exact .none
  · rw [ht'] at hname
    rcases ht : catalog.tables[name]? with _ | t
    · rw [ht] at hname
      cases hname
    · rw [ht] at hname
      rcases hname with ⟨hreopened⟩
      refine .some ⟨.refl _, ?_, Nat.le_refl _, hreopened.coherent, hreopened.fulltext⟩
      have hrows : t'.rows = t.rows := hreopened.same.data.rows
      rw [hrows]
      exact hreopened.nextRowId

omit [Platform] in
theorem appendOptionalLine_none (path : Option String) : appendOptionalLine path none = .ok () := by
  rcases path with _ | path <;> rfl

namespace Database

omit [Platform] in
theorem logBefore_default (db : Database) (statement : Statement) :
    db.logBefore statement {} = .ok () := by
  simp only [logBefore, appendUndolog, appendRedolog, appendOptionalLine_none, bind, Except.bind,
    ite_self]

omit [Platform] in
theorem logAfter_default (db : Database) (statement : Statement) :
    db.logAfter statement {} = .ok () := by
  simp only [logAfter, appendBinlog, appendRedolog, appendOptionalLine_none, bind, Except.bind,
    ite_self, pure, Except.pure]

/-- Without a failing log record, a call is its statement. -/
theorem execute_snd {db : Database} {sql : String} {statement : Statement}
    (h : (db.parseStatement sql).1 = .ok statement) (outcome : Option Error) :
    (db.execute sql ⟨{}, outcome⟩).2 =
      ((db.parseStatement sql).2.executeParsed statement outcome).2 := by
  rw [execute]
  rcases hparse : db.parseStatement sql with ⟨result, db'⟩
  rw [hparse] at h
  obtain rfl : result = .ok statement := h
  simp only [logBefore_default, logAfter_default]
  rcases db'.executeParsed statement outcome with ⟨error | result, db''⟩ <;> rfl

end Database

namespace Store

/-- **A file that agrees with a storable catalog can be opened**, and agrees with what it opens as.
-/
theorem openWithOptions_eq_ok {files : Files UInt8} {catalog : Catalog}
    (hvalid : options.validate = .ok ()) (hc : catalog.Storable)
    (h : Agrees options files catalog) (path : Option String) :
    ∃ catalog',
      openWithOptions path files options = .ok ⟨⟨path, catalog', none, options, ∅⟩, files⟩ ∧
      catalog'.Storable ∧ Agrees options files catalog' ∧
      (Decodes options files catalog → Decodes options files catalog') := by
  rcases h with ⟨hfile, rfl⟩ | ⟨bytes, text, catalog', hfile, hne, hread, hdecode, hreopened⟩
  · refine ⟨.empty, ?_, Catalog.storable_empty, .inl ⟨hfile, rfl⟩, id⟩
    rcases hfile with hfile | hfile <;> rw [openWithOptions, hvalid, hfile] <;> rfl
  · have hdecodes : Decodes options files catalog' :=
      Decodes.reopened hfile hne hread hdecode hreopened
    refine ⟨catalog', ?_, hreopened.storable hc, .inr hdecodes, fun _ ↦ hdecodes⟩
    rw [openWithOptions, hvalid, hfile]
    rcases bytes with _ | ⟨byte, bytes⟩
    · exact absurd rfl hne
    · simp only [hread, hdecode, bind, Except.bind, pure, Except.pure]

/-! ## One call -/

/-- **What a call comes to** when no log record fails: the text does not parse, or the statement is
executed. -/
theorem execute_cases (store : Store) (sql : String) (fate : Fate Error) :
    (∃ fault db, store.db.parseStatement sql = (.error fault, db) ∧
      store.execute sql {} fate = .returned (.error fault) { store with db }) ∨
    ∃ statement db, store.db.parseStatement sql = (.ok statement, db) ∧
      ((∃ files, Store.executeParsed { store with db } statement fate = .crashed files ∧
          store.execute sql {} fate = .crashed files) ∨
        ∃ result store',
          Store.executeParsed { store with db } statement fate = .returned result store' ∧
          store.execute sql {} fate = .returned (result.mapError .error) store') := by
  rw [execute]
  rcases hparse : store.db.parseStatement sql with ⟨fault | statement, db⟩
  · exact .inl ⟨fault, db, rfl, rfl⟩
  · refine .inr ⟨statement, db, rfl, ?_⟩
    simp only [Database.logBefore_default, Database.logAfter_default]
    rcases Store.executeParsed { store with db } statement fate with ⟨error | result, store'⟩ |
      files
    · exact .inr ⟨_, _, rfl, rfl⟩
    · exact .inr ⟨_, _, rfl, rfl⟩
    · exact .inl ⟨_, rfl, rfl⟩

/-- A call that returns: the text does not parse and nothing is done, or its statement is. -/
theorem execute_effect {store store' : Store} {sql : String} {fate : Fate Error}
    {result : Parse QueryResult} (hpath : store.db.path.isSome = true)
    (hpage : 0 < store.db.options.pageSize)
    (h : store.execute sql {} fate = .returned result store') :
    (∃ fault, (store.db.parseStatement sql).1 = .error fault ∧ result = .error fault ∧
      store'.db.catalog = store.db.catalog ∧ store'.db.transaction = store.db.transaction ∧
        store'.files = store.files) ∨
    ∃ statement result', (store.db.parseStatement sql).1 = .ok statement ∧
      result = result'.mapError .error ∧
      Effect ⟨(store.db.parseStatement sql).2, store.files⟩ statement result' store' ∧
      ∃ outcome, (store.db.parseStatement sql).2.executeParsed statement outcome =
        (result', store'.db) := by
  rcases store.execute_cases sql fate with ⟨fault, db, hparse, heq⟩ |
    ⟨statement, db, hparse, ⟨files, -, heq⟩ | ⟨result', store₁, hexecuted, heq⟩⟩
  · rw [h] at heq
    obtain ⟨rfl, rfl⟩ := Call.returned.inj heq
    have hdb : (store.db.parseStatement sql).2 = db := by rw [hparse]
    exact .inl ⟨fault, by rw [hparse], rfl, hdb ▸ rfl, hdb ▸ rfl, rfl⟩
  · rw [h] at heq
    cases heq
  · rw [h] at heq
    obtain ⟨rfl, rfl⟩ := Call.returned.inj heq
    have hdb : (store.db.parseStatement sql).2 = db := by rw [hparse]
    subst hdb
    obtain ⟨heffect, houtcome⟩ :=
      @executeParsed_returned _ ⟨(store.db.parseStatement sql).2, store.files⟩ _ _ _ _ hpath hpage
        hexecuted
    exact .inr ⟨statement, result', by rw [hparse], rfl, heffect, houtcome⟩

/-- A call during which the process ends. -/
theorem execute_crashed {store : Store} {sql : String} {fate : Fate Error} {files : Files UInt8}
    (hpath : store.db.path.isSome = true) (hpage : 0 < store.db.options.pageSize)
    (h : store.execute sql {} fate = .crashed files) :
    files.file = store.files.file ∨
      files.file = some (utf8 (store.db.execute sql {}).2.catalog.encode) := by
  rcases store.execute_cases sql fate with ⟨fault, db, -, heq⟩ |
    ⟨statement, db, hparse, ⟨files', hexecuted, heq⟩ | ⟨result', store', -, heq⟩⟩
  · rw [h] at heq
    cases heq
  · rw [h] at heq
    obtain rfl := Call.crashed.inj heq
    have hdb : (store.db.parseStatement sql).2 = db := by rw [hparse]
    have hstatement : (store.db.parseStatement sql).1 = .ok statement := by rw [hparse]
    subst hdb
    rw [Database.execute_snd hstatement none]
    exact @executeParsed_crashed _ ⟨(store.db.parseStatement sql).2, store.files⟩ _ _ _ hpath hpage
      hexecuted
  · rw [h] at heq
    cases heq

/-! ## Runs -/

/-- What happens to a store. -/
inductive Event
  /-- A call. -/
  | execute (sql : String) (fate : Fate Error)
  /-- The process ends between two calls, and the file is opened again. -/
  | restart

/-- **The runs of a database on a file** that is missing or empty at the start, with no log record
failing.  A process that ends during a call is followed by one that opens the file again. -/
def machine (options : DatabaseOptions) : Machine Store Event where
  init store := ∃ path files, (files.file = none ∨ files.file = some []) ∧
    openWithOptions (some path) files options = .ok store
  step store
    | .execute sql fate =>
      match store.execute sql {} fate with
      | .returned _ store' => some store'
      | .crashed files => (openWithOptions store.db.path files options).toOption
    | .restart => (openWithOptions store.db.path store.files options).toOption

/-- What a run has been. -/
structure History where
  /-- The committed catalog has been written. -/
  persisted : Bool
  /-- The committed catalog when the open transaction began. -/
  atBegin : Catalog

/-- The call changes the committed catalog and succeeds. -/
def committed (store : Store) (sql : String) (fate : Fate Error) : Bool :=
  match store.db.parseStatement sql, store.execute sql {} fate with
  | (.ok statement, _), .returned (.ok _) _ => decide (store.db.Commits statement)
  | _, _ => false

theorem committed_iff {store : Store} {sql : String} {fate : Fate Error} :
    store.committed sql fate = true ↔ ∃ statement queryResult store',
      (store.db.parseStatement sql).1 = .ok statement ∧
        store.execute sql {} fate = .returned (.ok queryResult) store' ∧
        store.db.Commits statement := by
  rw [committed]
  rcases store.db.parseStatement sql with ⟨fault | statement, db⟩
  · simp
  · rcases store.execute sql {} fate with ⟨fault | queryResult, store'⟩ | files <;> simp

/-- What a step adds to the history. -/
def record (store : Store) (history : History) (event : Event) (store' : Store) : History :=
  match event with
  | .execute sql fate =>
    { persisted := history.persisted || store.committed sql fate
      atBegin :=
        if store.db.transaction.isNone && store'.db.transaction.isSome then store.db.catalog
        else history.atBegin }
  | .restart => history

/-- The runs with their history. -/
abbrev runs (options : DatabaseOptions) : Machine (Store × History) Event :=
  (machine options).withHistory (fun store ↦ ⟨false, store.db.catalog⟩) record

/-- **A database on a file is a transactional store.** -/
structure Transactional (options : DatabaseOptions) (store : Store) (history : History) : Prop where
  /-- The file decodes to the committed catalog, or nothing has been written yet. -/
  agrees : Agrees options store.files store.db.catalog
  /-- Once something has been written, the file decodes to the committed catalog. -/
  decodes : history.persisted = true → Decodes options store.files store.db.catalog
  /-- A call changes the committed catalog only if it is a `COMMIT`, or a statement that changes it
  outside a transaction, and succeeds. -/
  changes (sql : String) (fate : Fate Error) (result : Parse QueryResult) (store' : Store) :
    store.execute sql {} fate = .returned result store' → store'.db.catalog ≠ store.db.catalog →
      ∃ statement queryResult, (store.db.parseStatement sql).1 = .ok statement ∧
        store.db.Commits statement ∧ result = .ok queryResult
  /-- Such a call that fails leaves the committed catalog, the file and the transaction as they
  were. -/
  fails (sql : String) (fate : Fate Error) (fault : Fault) (store' : Store)
    (statement : Statement) :
    store.execute sql {} fate = .returned (.error fault) store' →
      (store.db.parseStatement sql).1 = .ok statement → store.db.Commits statement →
        store'.db.catalog = store.db.catalog ∧ store'.db.transaction = store.db.transaction ∧
          store'.files.file = store.files.file
  /-- `ROLLBACK` leaves the committed catalog as it was when the transaction began. -/
  rollback (sql : String) (fate : Fate Error) (result : Parse QueryResult) (store' : Store) :
    store.execute sql {} fate = .returned result store' →
      (store.db.parseStatement sql).1 = .ok .rollback → store.db.transaction.isSome = true →
        store'.db.catalog = history.atBegin ∧ store'.db.transaction = none
  /-- When the process ends during a call, the file decodes to the committed catalog from before the
  call, or to the one after it, and can be opened again. -/
  crashes (sql : String) (fate : Fate Error) (files : Files UInt8) :
    store.execute sql {} fate = .crashed files →
      (Agrees options files store.db.catalog ∨
        Decodes options files (store.db.execute sql {}).2.catalog) ∧
      ∃ store', openWithOptions store.db.path files options = .ok store'
  /-- The file can be opened again between calls. -/
  restarts : ∃ store', openWithOptions store.db.path store.files options = .ok store'

/-- The invariant of a store. -/
structure Inv (options : DatabaseOptions) (store : Store) (history : History) : Prop where
  valid : options.validate = .ok ()
  options_eq : store.db.options = options
  path : store.db.path.isSome = true
  storable : store.db.Holds Catalog.Storable
  agrees : Agrees options store.files store.db.catalog
  decodes : history.persisted = true → Decodes options store.files store.db.catalog
  atBegin : store.db.transaction.isSome = true → store.db.catalog = history.atBegin

namespace Inv

variable {store : Store} {history : History}

theorem pageSize (h : Inv options store history) : 0 < store.db.options.pageSize :=
  h.options_eq ▸ pageSize_pos h.valid

/-- The committed catalog after a call can be written and read back. -/
theorem storable_execute (h : Inv options store history) (sql : String) (outcome : Outcome) :
    (store.db.execute sql outcome).2.Holds Catalog.Storable :=
  @Database.execute_holds _ Catalog.Storable store.db (sql, outcome)
    (fun statement _ hc ↦ executeStatement_storable hc statement) h.storable

/-- The file after a call that returns. -/
theorem returned (h : Inv options store history) {sql : String} {fate : Fate Error}
    {result : Parse QueryResult} {store' : Store}
    (heq : store.execute sql {} fate = .returned result store') :
    (store'.files.file = store.files.file ∧ store'.db.catalog = store.db.catalog ∧
        store.committed sql fate = false) ∨
      (store'.db.transaction = none ∧ Decodes options store'.files store'.db.catalog) := by
  obtain ⟨outcome, hexecute⟩ := execute_returned h.path h.pageSize heq
  have hstorable : store'.db.Holds Catalog.Storable := by
    have := h.storable_execute sql ⟨{}, outcome⟩
    rwa [hexecute] at this
  rcases execute_effect h.path h.pageSize heq with
    ⟨fault, hparse, rfl, hcatalog, -, hfiles⟩ | ⟨statement, result', hparse, rfl, heffect, -⟩
  · refine .inl ⟨congrArg Files.file hfiles, hcatalog, Bool.eq_false_iff.mpr fun hcommitted ↦ ?_⟩
    obtain ⟨_, _, _, hparse', -⟩ := committed_iff.mp hcommitted
    rw [hparse] at hparse'
    cases hparse'
  · rcases heffect with ⟨hfile, hcatalog, hcommits⟩ | ⟨hcommits, htx, hfile⟩
    · refine .inl ⟨hfile, hcatalog, Bool.eq_false_iff.mpr fun hcommitted ↦ ?_⟩
      obtain ⟨statement', _, _, hparse', heq', hc⟩ := committed_iff.mp hcommitted
      obtain rfl := Except.ok.inj (hparse.symm.trans hparse')
      obtain ⟨-, error, rfl⟩ := hcommits hc
      rw [heq] at heq'
      cases heq'
    · exact .inr ⟨htx, decodes_utf8 hstorable.1 hfile⟩

/-- **One step keeps the invariant.** -/
theorem step (h : Inv options store history) {event : Event} {store' : Store}
    (hstep : (machine options).step store event = some store') :
    Inv options store' (record store history event store') := by
  -- what is opened after the process has ended
  have hopen {files : Files UInt8} {catalog : Catalog} {history' : History}
      (hc : catalog.Storable) (hagrees : Agrees options files catalog)
      (hpersisted : history'.persisted = true → Decodes options files catalog)
      (hstep : (openWithOptions store.db.path files options).toOption = some store') :
      Inv options store' history' := by
    obtain ⟨catalog', heq, hstorable, hagrees', hdecodes⟩ :=
      openWithOptions_eq_ok h.valid hc hagrees store.db.path
    rw [heq] at hstep
    obtain rfl := Option.some.inj hstep
    exact ⟨h.valid, rfl, h.path, ⟨hstorable, by simp⟩, hagrees', fun hp ↦ hdecodes (hpersisted hp),
      by simp⟩
  cases event with
  | restart => exact hopen h.storable.1 h.agrees h.decodes hstep
  | execute sql fate =>
    rw [machine] at hstep
    dsimp only at hstep
    split at hstep
    · rename_i result store₁ heq
      obtain rfl := Option.some.inj hstep
      obtain ⟨outcome, hexecute⟩ := execute_returned h.path h.pageSize heq
      have hstorable := h.storable_execute sql ⟨{}, outcome⟩
      have hsettings := store.db.settings_execute sql ⟨{}, outcome⟩
      rw [hexecute] at hstorable hsettings
      refine ⟨h.valid, hsettings.1.trans h.options_eq, by rw [hsettings.2]; exact h.path, hstorable,
        ?_, fun hp ↦ ?_, fun htx ↦ ?_⟩
      · rcases h.returned heq with ⟨hfile, hcatalog, -⟩ | ⟨-, hdecodes⟩
        · rw [hcatalog]
          exact h.agrees.congr hfile
        · exact .inr hdecodes
      · rcases h.returned heq with ⟨hfile, hcatalog, hcommitted⟩ | ⟨-, hdecodes⟩
        · rw [record, hcommitted, Bool.or_false] at hp
          rw [hcatalog, Decodes, hfile]
          exact h.decodes hp
        · exact hdecodes
      · rcases h.returned heq with ⟨-, hcatalog, -⟩ | ⟨hnone, -⟩
        · rw [hcatalog, record]
          rcases hopen : store.db.transaction with _ | transaction
          · simp [htx]
          · have hsome : store.db.transaction.isSome = true := by rw [hopen]; rfl
            simpa using h.atBegin hsome
        · rw [hnone] at htx
          cases htx
    · rename_i files heq
      have hcommitted : store.committed sql fate = false := by
        refine Bool.eq_false_iff.mpr fun hcommitted ↦ ?_
        obtain ⟨_, _, _, -, heq', -⟩ := committed_iff.mp hcommitted
        rw [heq] at heq'
        cases heq'
      rcases execute_crashed h.path h.pageSize heq with hfile | hfile
      · refine hopen h.storable.1 (h.agrees.congr hfile) (fun hp ↦ ?_) hstep
        rw [record, hcommitted, Bool.or_false] at hp
        rw [Decodes, hfile]
        exact h.decodes hp
      · have hstorable := (h.storable_execute sql {}).1
        have hdecodes : Decodes options files _ := decodes_utf8 hstorable hfile
        exact hopen hstorable (.inr hdecodes) (fun _ ↦ hdecodes) hstep

/-- What holds in a state with the invariant. -/
theorem transactional (h : Inv options store history) : Transactional options store history where
  agrees := h.agrees
  decodes := h.decodes
  changes sql fate result store' heq hne := by
    rcases execute_effect h.path h.pageSize heq with
      ⟨_, -, -, hcatalog, -⟩ | ⟨statement, result', hparse, rfl, heffect, -⟩
    · exact absurd hcatalog hne
    · rcases heffect with ⟨-, hcatalog, -⟩ | ⟨hcommits, -, -⟩
      · exact absurd hcatalog hne
      · exact ⟨statement, _, hparse, hcommits, rfl⟩
  fails sql fate fault store' statement heq hparse hcommits := by
    rcases execute_effect h.path h.pageSize heq with
      ⟨_, hfault, -⟩ | ⟨statement', result', hparse', hresult, heffect, -⟩
    · rw [hparse] at hfault
      cases hfault
    · obtain rfl := Except.ok.inj (hparse.symm.trans hparse')
      rcases heffect with ⟨hfile, -, hkept⟩ | ⟨-, -, -⟩
      · obtain ⟨hdb, -⟩ := hkept hcommits
        exact ⟨by rw [hdb]; rfl, by rw [hdb]; rfl, hfile⟩
      · cases hresult
  rollback sql fate result store' heq hparse hopen := by
    rcases execute_effect h.path h.pageSize heq with
      ⟨_, hfault, -⟩ | ⟨statement', result', hparse', -, -, outcome, houtcome⟩
    · rw [hparse] at hfault
      cases hfault
    · obtain rfl := Except.ok.inj (hparse.symm.trans hparse')
      have hdb : (store.db.parseStatement sql).2.rollback.2 = store'.db :=
        congrArg Prod.snd houtcome
      have hnone : ¬(store.db.parseStatement sql).2.transaction.isNone = true := by
        show ¬store.db.transaction.isNone = true
        rw [Option.isNone_iff_eq_none]
        exact Option.isSome_iff_ne_none.mp hopen
      rw [Database.rollback, if_neg hnone] at hdb
      rw [← hdb]
      exact ⟨h.atBegin hopen, rfl⟩
  crashes sql fate files heq := by
    rcases execute_crashed h.path h.pageSize heq with hfile | hfile
    · have hagrees := h.agrees.congr hfile
      obtain ⟨catalog', hopened, -⟩ :=
        openWithOptions_eq_ok h.valid h.storable.1 hagrees store.db.path
      exact ⟨.inl hagrees, _, hopened⟩
    · have hstorable := (h.storable_execute sql {}).1
      have hdecodes : Decodes options files _ := decodes_utf8 hstorable hfile
      obtain ⟨catalog', hopened, -⟩ :=
        openWithOptions_eq_ok h.valid hstorable (.inr hdecodes) store.db.path
      exact ⟨.inr hdecodes, _, hopened⟩
  restarts := by
    obtain ⟨catalog', hopened, -⟩ :=
      openWithOptions_eq_ok h.valid h.storable.1 h.agrees store.db.path
    exact ⟨_, hopened⟩

end Inv

/-- **A database on a file is a transactional store**, whatever operations on the file fail and
wherever the process ends. -/
theorem transactional_of_reachable {store : Store} {history : History}
    (h : (runs options).Reachable (store, history)) : Transactional options store history := by
  have hinv : Inv options store history := by
    refine h.invariant (I := fun p ↦ Inv options p.1 p.2) ?_ ?_
    · rintro ⟨store, history⟩ ⟨⟨path, files, hfile, hopen⟩, hhistory⟩
      dsimp only at hopen hhistory ⊢
      subst hhistory
      rcases hvalid : options.validate with error | _
      · rw [openWithOptions, hvalid] at hopen
        cases hopen
      · obtain ⟨catalog', heq, hstorable, hagrees, -⟩ := openWithOptions_eq_ok hvalid
          Catalog.storable_empty (.inl ⟨hfile, rfl⟩) (some path)
        rw [heq] at hopen
        obtain rfl := Except.ok.inj hopen
        exact ⟨hvalid, rfl, rfl, ⟨hstorable, by simp⟩, hagrees, by simp, by simp⟩
    · intro p event p' _ hinv _ hstep
      obtain ⟨hstep, hhistory⟩ := Machine.withHistory_step_eq_some.mp hstep
      have hnext := hinv.step hstep
      rwa [← hhistory] at hnext
  exact hinv.transactional

end Store

end Platform

namespace Store

/-- A database on the file `f`, which does not exist. -/
abbrev missing : Store := ⟨⟨some "f", .empty, none, {}, ∅⟩, ⟨none, none⟩⟩

/-- A table is created, the renaming fails for a row, and the process ends at the renaming for
another. -/
abbrev events : List Event :=
  [.execute "CREATE TABLE t (a INT)" .completes,
    .execute "INSERT INTO t VALUES (1)" (.fails 4 0 (.io "full")),
    .execute "INSERT INTO t VALUES (2)" (.crashes 4)]

/-- The file has the table without a row afterwards. -/
theorem transactional_events : ∃ store history,
    (@runs Platform.ascii {}).runFrom (missing, ⟨false, .empty⟩) events = some (store, history) ∧
      store.files.file = some (utf8 "FSQ1\nTABLE\t74\nCOLUMN\t61\tinteger\t0\nENDTABLE\n") ∧
      history.persisted = true ∧ @Transactional Platform.ascii {} store history := by
  have hsome : ((@runs Platform.ascii {}).runFrom (missing, ⟨false, .empty⟩) events).any
      (fun p ↦ p.1.files.file =
        some (utf8 "FSQ1\nTABLE\t74\nCOLUMN\t61\tinteger\t0\nENDTABLE\n") ∧
          p.2.persisted = true) = true := by decide +kernel
  simp only [Option.any_eq_true, decide_eq_true_eq] at hsome
  obtain ⟨⟨store, history⟩, hrun, hfile, hpersisted⟩ := hsome
  have hinit : (@runs Platform.ascii {}).init (missing, ⟨false, .empty⟩) :=
    ⟨⟨"f", ⟨none, none⟩, .inl rfl, rfl⟩, rfl⟩
  exact ⟨store, history, hrun, hfile, hpersisted,
    @transactional_of_reachable Platform.ascii {} _ _ (Machine.reachable_of_runFrom hinit hrun)⟩

end Store

end Fsql
