import Fsql.EngineRoundTrip
import Fsql.Library.Replace

/-!
# A database and its file

`Database::persist` and `Database::open_with_options`.  A `Store` is a database with the files under
its path; a call runs under a `Fate`, which says what becomes of the operations on these files, and
either returns or ends with the process, which leaves the files.

The functions are those of the engine with the files threaded through.  A call that returns does to
the database what `Database.execute` does (`Store.execute_returned`).
-/

set_option autoImplicit false

namespace Fsql

/-! ## Files -/

/-- `str::as_bytes`. -/
def utf8 (s : String) : List UInt8 := s.toByteArray.data.toList

/-- `fs::read_to_string`, given the bytes of the file. -/
def readToString (bytes : List UInt8) : Result String :=
  match String.fromUTF8? ⟨bytes.toArray⟩ with
  | some text => .ok text
  | none => .error (.io "stream did not contain valid UTF-8")

theorem readToString_utf8 (s : String) : readToString (utf8 s) = .ok s := by
  have hutf8 : String.fromUTF8? ⟨(utf8 s).toArray⟩ = some s := by
    rw [utf8, Array.toArray_toList]
    exact dif_pos s.isValidUTF8
  rw [readToString, hutf8]

/-- The options of a database have been validated. -/
theorem pageSize_pos {options : DatabaseOptions} (h : options.validate = .ok ()) :
    0 < options.pageSize := by
  rw [DatabaseOptions.validate] at h
  split at h
  · cases h
  · rename_i hsize
    simp only [Bool.or_eq_true, Bool.not_eq_true', Bool.and_eq_false_iff, decide_eq_false_iff_not]
      at hsize
    omega

/-- The operations of `Database::persist` up to the renaming.  The directories above are created
only where the path names some; a failure to synchronise the directory afterwards is ignored. -/
def writeOps (options : DatabaseOptions) (catalog : Catalog) : List (FileOp UInt8) :=
  [.createDir, .create] ++ (chunks options.pageSize (utf8 catalog.encode)).map .write ++ [.sync]

/-- `Database::persist`: its result, unless the process ends. -/
def Database.persistFiles (db : Database) (files : Files UInt8) (fate : Fate Error) :
    Files UInt8 × Option (Result Unit) :=
  match db.path with
  | none => (files, some (.ok ()))
  | some _ => files.run (writeOps db.options db.catalog ++ [.rename]) fate

theorem tmp_writeOps {options : DatabaseOptions} (h : 0 < options.pageSize) (catalog : Catalog)
    (files : Files UInt8) :
    ((writeOps options catalog).foldl Files.apply files).tmp = some (utf8 catalog.encode) := by
  rw [writeOps, List.foldl_append, List.foldl_append]
  show (((chunks options.pageSize (utf8 catalog.encode)).map FileOp.write).foldl Files.apply
    ⟨files.file, some []⟩).tmp = _
  rw [Files.tmp_foldl_write, flatten_chunks h]
  rfl

/-- **What `persist` leaves in the file**: the catalog, when it succeeds; what was there, when it
fails; one of the two, when the process ends. -/
theorem Database.persistFiles_cases {db : Database} (hpath : db.path.isSome = true)
    (hpage : 0 < db.options.pageSize) (files : Files UInt8) (fate : Fate Error) :
    (∃ files', db.persistFiles files fate = (files', some (.ok ())) ∧
      files'.file = some (utf8 db.catalog.encode)) ∨
    (∃ files' error, db.persistFiles files fate = (files', some (.error error)) ∧
      files'.file = files.file) ∨
    ∃ files' step, db.persistFiles files fate = (files', none) ∧ fate = .crashes step ∧
      (files'.file = files.file ∨ files'.file = some (utf8 db.catalog.encode)) := by
  obtain ⟨path, hpath⟩ := Option.isSome_iff_exists.mp hpath
  have hops : ∀ op ∈ writeOps db.options db.catalog, op ≠ .rename := by
    intro op hop heq
    subst heq
    simp [writeOps] at hop
  have htmp := tmp_writeOps hpage db.catalog files
  rw [persistFiles, hpath]
  rcases @Files.run_rename _ _ files _ hops fate with
    ⟨files', hrun, hfile, -⟩ | ⟨files', error, hrun, hfile⟩ | ⟨files', step, hrun, hcrash, hfile⟩
  · exact .inl ⟨files', hrun, hfile.trans htmp⟩
  · exact .inr (.inl ⟨files', error, hrun, hfile⟩)
  · exact .inr (.inr ⟨files', step, hrun, hcrash, htmp ▸ hfile⟩)

/-! ## Calls -/

/-- A database and the files under its path. -/
structure Store where
  /-- The database. -/
  db : Database
  /-- The file and the temporary file. -/
  files : Files UInt8

/-- What becomes of a call. -/
inductive Call (α : Type)
  /-- It returns. -/
  | returned (result : α) (store : Store)
  /-- The process ends. -/
  | crashed (files : Files UInt8)

/-- The statement changes the committed catalog when it succeeds. -/
def Database.Commits (db : Database) (statement : Statement) : Prop :=
  statement = .commit ∨ statement.mutatesCatalog = true ∧ db.transaction = none

instance (db : Database) (statement : Statement) : Decidable (db.Commits statement) :=
  inferInstanceAs (Decidable (_ ∨ statement.mutatesCatalog = true ∧ db.transaction = none))

section Platform

variable [Platform]

/-- A statement that does not mutate the catalog leaves it alone. -/
theorem executeStatement_of_not_mutates {statement : Statement}
    (h : statement.mutatesCatalog = false) (catalog : Catalog) (options : TableRuntimeOptions) :
    (executeStatementWithOptions catalog statement options).2 = catalog := by
  cases statement with
  | select table projection filter order limit =>
    rw [executeStatementWithOptions]
    split <;> rfl
  | createTable | createIndex | insert | update | delete => cases h
  | _ => rfl

/-- A statement that is not to change the committed catalog leaves it alone. -/
theorem Database.catalog_executeCatalogStatement {db : Database} {statement : Statement}
    (h : ¬(statement.mutatesCatalog = true ∧ db.transaction = none)) (outcome : Option Error) :
    (db.executeCatalogStatement statement outcome).2.catalog = db.catalog := by
  rw [executeCatalogStatement]
  rcases htx : db.transaction with _ | transaction
  · have hmutates : ¬statement.mutatesCatalog = true := fun hm ↦ h ⟨hm, htx⟩
    simp only [hmutates]
    cases statement with
    | select table projection filter order limit =>
      show (executeStatementWithOptions db.catalog (.select ..) _).2 = _
      rw [executeStatementWithOptions]
      split <;> rfl
    | createTable | createIndex | insert | update | delete => exact absurd rfl hmutates
    | _ => rfl
  · rfl

namespace Store

/-- `Database::commit`. -/
def commit (store : Store) (fate : Fate Error) : Call (Result QueryResult) :=
  match store.db.transaction with
  | none => .returned (.error (execution "no active transaction")) store
  | some transaction =>
    match { store.db with catalog := transaction }.persistFiles store.files fate with
    | (files, none) => .crashed files
    | (files, some (.error error)) => .returned (.error error) { store with files }
    | (files, some (.ok ())) =>
      .returned (.ok (.ofMessage "transaction committed"))
        ⟨{ store.db with catalog := transaction, transaction := none }, files⟩

/-- `Database::execute_catalog_statement`. -/
def executeCatalogStatement (store : Store) (statement : Statement) (fate : Fate Error) :
    Call (Result QueryResult) :=
  if statement.mutatesCatalog = true ∧ store.db.transaction = none then
    match executeStatementWithOptions store.db.catalog statement
      (tableRuntimeOptions store.db.options) with
    | (.error error, _) => .returned (.error error) store
    | (.ok result, catalog) =>
      match { store.db with catalog }.persistFiles store.files fate with
      | (files, none) => .crashed files
      | (files, some (.error error)) => .returned (.error error) { store with files }
      | (files, some (.ok ())) => .returned (.ok result) ⟨{ store.db with catalog }, files⟩
  else
    let (result, db) := store.db.executeCatalogStatement statement none
    .returned result { store with db }

/-- `Database::execute_parsed`. -/
def executeParsed (store : Store) (statement : Statement) (fate : Fate Error) :
    Call (Result QueryResult) :=
  match statement with
  | .begin => .returned store.db.begin.1 { store with db := store.db.begin.2 }
  | .commit => store.commit fate
  | .rollback => .returned store.db.rollback.1 { store with db := store.db.rollback.2 }
  | .explain statement => .returned (store.db.explain statement) store
  | statement => store.executeCatalogStatement statement fate

/-- `Database::execute`. -/
def execute (store : Store) (sql : String) (log : LogOutcome) (fate : Fate Error) :
    Call (Parse QueryResult) :=
  match store.db.parseStatement sql with
  | (.error fault, db) => .returned (.error fault) { store with db }
  | (.ok statement, db) =>
    match db.logBefore statement log with
    | .error error => .returned (.error (.error error)) { store with db }
    | .ok () =>
      match { store with db }.executeParsed statement fate with
      | .crashed files => .crashed files
      | .returned (.error error) store => .returned (.error (.error error)) store
      | .returned (.ok result) store =>
        match store.db.logAfter statement log with
        | .error error => .returned (.error (.error error)) store
        | .ok () => .returned (.ok result) store

/-- `Database::open_with_options`. -/
def openWithOptions (path : Option String) (files : Files UInt8) (options : DatabaseOptions) :
    Result Store := do
  options.validate
  let catalog ← match files.file with
    | none | some [] => .ok .empty
    | some bytes => do
      let text ← readToString bytes
      Catalog.decodeWithOptions text (tableRuntimeOptions options)
  return ⟨⟨path, catalog, none, options, ∅⟩, files⟩

/-! ## What a call does -/

/-- **What a call that returns has done.**  Either it has left the committed catalog and the file
alone, and everything else when it was to change the committed catalog; or it has changed the
committed catalog and written it to the file. -/
inductive Effect (store : Store) (statement : Statement) :
    Result QueryResult → Store → Prop
  | kept {result : Result QueryResult} {store' : Store}
      (hfile : store'.files.file = store.files.file)
      (hcatalog : store'.db.catalog = store.db.catalog)
      (hcommits : store.db.Commits statement →
        store'.db = store.db ∧ ∃ error, result = .error error) :
      Effect store statement result store'
  | committed {result : QueryResult} {store' : Store} (hcommits : store.db.Commits statement)
      (htx : store'.db.transaction = none)
      (hfile : store'.files.file = some (utf8 store'.db.catalog.encode)) :
      Effect store statement (.ok result) store'

variable {store : Store} {statement : Statement} {fate : Fate Error}

omit [Platform] in
theorem commit_returned {store' : Store} {result : Result QueryResult}
    (hpath : store.db.path.isSome = true) (hpage : 0 < store.db.options.pageSize)
    (h : store.commit fate = .returned result store') :
    store.Effect .commit result store' ∧
      ∃ outcome, store.db.commit outcome = (result, store'.db) := by
  rw [commit] at h
  split at h
  · rename_i htx
    obtain ⟨rfl, rfl⟩ := Call.returned.inj h
    exact ⟨.kept rfl rfl fun _ ↦ ⟨rfl, _, rfl⟩, none, by rw [Database.commit, htx]⟩
  · rename_i transaction htx
    obtain ⟨path, hpath'⟩ := Option.isSome_iff_exists.mp hpath
    rcases @Database.persistFiles_cases { store.db with catalog := transaction } hpath hpage
      store.files fate with ⟨files, heq, hfile⟩ | ⟨files, error, heq, hfile⟩ | ⟨files, _, heq, -⟩
    · rw [heq] at h
      obtain ⟨rfl, rfl⟩ := Call.returned.inj h
      refine ⟨.committed (.inl rfl) rfl hfile, none, ?_⟩
      simp only [Database.commit, htx, Database.persist, hpath', appendOptionalLine]
    · rw [heq] at h
      obtain ⟨rfl, rfl⟩ := Call.returned.inj h
      refine ⟨.kept hfile rfl fun _ ↦ ⟨rfl, _, rfl⟩, some error, ?_⟩
      simp only [Database.commit, htx, Database.persist, hpath', appendOptionalLine]
    · rw [heq] at h
      cases h

theorem executeCatalogStatement_returned {store' : Store} {result : Result QueryResult}
    (hpath : store.db.path.isSome = true) (hpage : 0 < store.db.options.pageSize)
    (hstatement : statement ≠ .commit)
    (h : store.executeCatalogStatement statement fate = .returned result store') :
    store.Effect statement result store' ∧
      ∃ outcome, store.db.executeCatalogStatement statement outcome = (result, store'.db) := by
  rw [executeCatalogStatement] at h
  split at h
  · rename_i hcommits
    obtain ⟨hmutates, htx⟩ := hcommits
    have hcommits : store.db.Commits statement := .inr ⟨hmutates, htx⟩
    obtain ⟨path, hpath'⟩ := Option.isSome_iff_exists.mp hpath
    split at h
    · rename_i error _ hexecuted
      obtain ⟨rfl, rfl⟩ := Call.returned.inj h
      refine ⟨.kept rfl rfl fun _ ↦ ⟨rfl, _, rfl⟩, none, ?_⟩
      simp only [Database.executeCatalogStatement, htx, hexecuted, hmutates, if_true]
    · rename_i queryResult catalog hexecuted
      rcases @Database.persistFiles_cases { store.db with catalog } hpath hpage
        store.files fate with ⟨files, heq, hfile⟩ | ⟨files, error, heq, hfile⟩ | ⟨files, _, heq, -⟩
      · rw [heq] at h
        obtain ⟨rfl, rfl⟩ := Call.returned.inj h
        refine ⟨.committed hcommits htx hfile, none, ?_⟩
        simp only [Database.executeCatalogStatement, htx, hexecuted, hmutates, if_true,
          Database.persist, hpath', appendOptionalLine]
      · rw [heq] at h
        obtain ⟨rfl, rfl⟩ := Call.returned.inj h
        refine ⟨.kept hfile rfl fun _ ↦ ⟨rfl, _, rfl⟩, some error, ?_⟩
        simp only [Database.executeCatalogStatement, htx, hexecuted, hmutates, if_true,
          Database.persist, hpath', appendOptionalLine]
      · rw [heq] at h
        cases h
  · rename_i hcommits
    obtain ⟨rfl, rfl⟩ := Call.returned.inj h
    refine ⟨.kept rfl ?_ fun hc ↦ ?_, none, rfl⟩
    · exact Database.catalog_executeCatalogStatement hcommits none
    · rcases hc with hc | hc
      · exact absurd hc hstatement
      · exact absurd hc hcommits

/-- **What a call that returns does**, to the file and to the database. -/
theorem executeParsed_returned {store' : Store} {result : Result QueryResult}
    (hpath : store.db.path.isSome = true) (hpage : 0 < store.db.options.pageSize)
    (h : store.executeParsed statement fate = .returned result store') :
    store.Effect statement result store' ∧
      ∃ outcome, store.db.executeParsed statement outcome = (result, store'.db) := by
  cases statement with
  | begin =>
    obtain ⟨rfl, rfl⟩ := Call.returned.inj h
    refine ⟨.kept rfl ?_ fun hc ↦ ?_, none, rfl⟩
    · show store.db.begin.2.catalog = _
      rw [Database.begin]
      split <;> rfl
    · simp [Database.Commits, Statement.mutatesCatalog] at hc
  | commit => exact commit_returned hpath hpage h
  | rollback =>
    obtain ⟨rfl, rfl⟩ := Call.returned.inj h
    refine ⟨.kept rfl ?_ fun hc ↦ ?_, none, rfl⟩
    · show store.db.rollback.2.catalog = _
      rw [Database.rollback]
      split <;> rfl
    · simp [Database.Commits, Statement.mutatesCatalog] at hc
  | explain statement =>
    obtain ⟨rfl, rfl⟩ := Call.returned.inj h
    refine ⟨.kept rfl rfl fun hc ↦ ?_, none, rfl⟩
    simp [Database.Commits, Statement.mutatesCatalog] at hc
  | _ => exact @executeCatalogStatement_returned _ _ _ fate _ _ hpath hpage (by simp) h

/-- **What a call leaves in the file when the process ends**: the catalog before the call or the one
after it. -/
theorem executeParsed_crashed {files : Files UInt8} (hpath : store.db.path.isSome = true)
    (hpage : 0 < store.db.options.pageSize)
    (h : store.executeParsed statement fate = .crashed files) :
    files.file = store.files.file ∨ files.file =
      some (utf8 (store.db.executeParsed statement none).2.catalog.encode) := by
  have hcatalog (h : store.executeCatalogStatement statement fate = .crashed files) :
      files.file = store.files.file ∨ files.file =
        some (utf8 (store.db.executeCatalogStatement statement none).2.catalog.encode) := by
    rw [executeCatalogStatement] at h
    split at h
    · rename_i hcommits
      obtain ⟨hmutates, htx⟩ := hcommits
      split at h
      · cases h
      · rename_i result catalog hexecuted
        have hafter : (store.db.executeCatalogStatement statement none).2.catalog = catalog := by
          simp only [Database.executeCatalogStatement, htx, hexecuted, hmutates, if_true,
            Database.persist]
          rcases store.db.path with _ | _ <;> rfl
        rw [hafter]
        rcases @Database.persistFiles_cases { store.db with catalog } hpath hpage
          store.files fate with ⟨files, heq, -⟩ | ⟨files, error, heq, -⟩ | ⟨files, _, heq, -, hfile⟩
        · rw [heq] at h
          cases h
        · rw [heq] at h
          cases h
        · rw [heq] at h
          obtain rfl := Call.crashed.inj h
          exact hfile
    · cases h
  cases statement with
  | begin => cases h
  | commit =>
    rw [executeParsed, commit] at h
    split at h
    · cases h
    · rename_i transaction htx
      have hafter : (store.db.executeParsed .commit none).2.catalog = transaction := by
        simp only [Database.executeParsed, Database.commit, htx, Database.persist]
        rcases store.db.path with _ | _ <;> rfl
      rw [hafter]
      rcases @Database.persistFiles_cases { store.db with catalog := transaction } hpath hpage
        store.files fate with ⟨files, heq, -⟩ | ⟨files, error, heq, -⟩ | ⟨files, _, heq, -, hfile⟩
      · rw [heq] at h
        cases h
      · rw [heq] at h
        cases h
      · rw [heq] at h
        obtain rfl := Call.crashed.inj h
        exact hfile
  | rollback => cases h
  | explain statement => cases h
  | _ => exact hcatalog h

/-- A call that returns does to the database what it does without its files. -/
theorem execute_returned {store' : Store} {sql : String} {log : LogOutcome}
    {result : Parse QueryResult} (hpath : store.db.path.isSome = true)
    (hpage : 0 < store.db.options.pageSize)
    (h : store.execute sql log fate = .returned result store') :
    ∃ outcome, store.db.execute sql ⟨log, outcome⟩ = (result, store'.db) := by
  rw [execute] at h
  split at h
  · rename_i fault db hparse
    obtain ⟨rfl, rfl⟩ := Call.returned.inj h
    exact ⟨none, by rw [Database.execute, hparse]⟩
  · rename_i statement db hparse
    have hdb : (store.db.parseStatement sql).2 = db := by rw [hparse]
    split at h
    · rename_i error hlog
      obtain ⟨rfl, rfl⟩ := Call.returned.inj h
      exact ⟨none, by simp only [Database.execute, hparse, hlog]⟩
    · rename_i hlog
      split at h
      · cases h
      · rename_i error store₁ hexecuted
        obtain ⟨rfl, rfl⟩ := Call.returned.inj h
        obtain ⟨-, outcome, heq⟩ := executeParsed_returned (hdb ▸ hpath) (hdb ▸ hpage) hexecuted
        exact ⟨outcome, by simp only [Database.execute, hparse, hlog, heq]⟩
      · rename_i queryResult store₁ hexecuted
        obtain ⟨-, outcome, heq⟩ := executeParsed_returned (hdb ▸ hpath) (hdb ▸ hpage) hexecuted
        split at h
        · rename_i error hafter
          obtain ⟨rfl, rfl⟩ := Call.returned.inj h
          exact ⟨outcome, by simp only [Database.execute, hparse, hlog, heq, hafter]⟩
        · rename_i hafter
          obtain ⟨rfl, rfl⟩ := Call.returned.inj h
          exact ⟨outcome, by simp only [Database.execute, hparse, hlog, heq, hafter]⟩

end Store

end Platform

end Fsql
