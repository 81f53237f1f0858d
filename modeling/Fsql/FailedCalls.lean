import Fsql.Durable

/-!
# Which failed calls change something

A call can fail after its statement has been carried out: when a log record that is written
afterwards fails, and, inside a transaction, when the rebuild of the derived maps fails.  What it
leaves then is read off the change the statement makes before the rebuild (`Table.planned`), for an
arbitrary table: a rebuild depends on the data of the table alone (`Table.SameData.rebuild_eq`).

`Store.unchanged_iff` says for every database, text and pattern of failures when a call that fails
has changed nothing.
-/

set_option autoImplicit false

namespace Fsql

section Platform

variable [Platform]

namespace Table

/-! ## A rebuild depends on the data -/

/-- **A rebuild depends on the data of a table alone.** -/
theorem SameData.rebuild_eq {t t' : Table} (h : t.SameData t') (options : TableRuntimeOptions) :
    t'.rebuildIndexesWithOptions options = t.rebuildIndexesWithOptions options := by
  rw [rebuildIndexesWithOptions, rebuildIndexesWithOptions, h.primaryKey, h.rows,
    ← t'.indexColumns_cleared.1, ← t'.indexColumns_cleared.2, h.cleared_eq,
    t.indexColumns_cleared.1, t.indexColumns_cleared.2]

/-- The derived maps of a table are the ones a rebuild makes. -/
def Rebuilt (t : Table) (options : TableRuntimeOptions) : Prop :=
  (t.rebuildIndexesWithOptions options).2 = t

/-- **When a change and a rebuild leave a table as it was**: the change changes no data, and a
rebuild of the table changes nothing. -/
theorem rebuild_eq_iff {t changed : Table} {options : TableRuntimeOptions} :
    (changed.rebuildIndexesWithOptions options).2 = t ↔ t.SameData changed ∧ t.Rebuilt options := by
  constructor
  · intro h
    have hdata : t.SameData changed := by
      have := changed.rebuild_sameData options
      rw [h] at this
      exact this.symm
    exact ⟨hdata, by rw [Rebuilt, ← hdata.rebuild_eq options]; exact h⟩
  · rintro ⟨hdata, hrebuilt⟩
    rw [hdata.rebuild_eq options]
    exact hrebuilt

/-! ## What a statement does to a table -/

/-- **The change a statement makes to its table** before the derived maps are built anew; none when
it is refused. -/
def planned (t : Table) (options : TableRuntimeOptions) : Statement → Option Table
  | .createIndex name _ column true =>
    match t.column column with
    | .error _ => none
    | .ok columnRef =>
      if columnRef.ty ≠ .text ∨ name ∈ t.indexes ∨ name ∈ t.fulltextIndexes then none
      else some { t with fulltextIndexes := t.fulltextIndexes.insert name ⟨column, ∅⟩ }
  | .createIndex name _ column false =>
    match t.column column with
    | .error _ => none
    | .ok _ =>
      if name ∈ t.indexes ∨ name ∈ t.fulltextIndexes then none
      else some { t with indexes := t.indexes.insert name ⟨column, ∅⟩ }
  | .insert _ columns values => (t.insertRow columns values options).toOption.map t.stored
  | .update _ assignments filter =>
    (t.updatePlan assignments filter options).toOption.map fun plan ↦ t.assigned plan.1 plan.2
  | .delete _ filter => (t.matchingRowIdsForLock filter options).toOption.map t.erased
  | _ => none

/-- A rebuild succeeds: primary keys are present and distinct, indexed values finite. -/
def Rebuildable (t : Table) : Prop := t.KeysOk ∧ t.IndexesFinite

/-- What a statement does to its table. -/
def perform (t : Table) (options : TableRuntimeOptions) : Statement → Result Unit × Table
  | .createIndex name _ column fulltext => t.createAnyIndex name column fulltext options
  | .insert _ columns values => t.insertWithOptions columns values options
  | .update _ assignments filter =>
    ((t.updateWithOptions assignments filter options).1.map fun _ ↦ (),
      (t.updateWithOptions assignments filter options).2)
  | .delete _ filter =>
    ((t.deleteWithOptions filter options).1.map fun _ ↦ (), (t.deleteWithOptions filter options).2)
  | _ => (.ok (), t)

end Table

/-- The options of the rebuild after a statement: `CREATE INDEX` uses the default ones. -/
def Statement.rebuildOptions (statement : Statement) (options : TableRuntimeOptions) :
    TableRuntimeOptions :=
  match statement with
  | .createIndex _ _ _ false => {}
  | _ => options

/-- `UPDATE` puts the rows back when the rebuild fails. -/
def Statement.restores : Statement → Bool
  | .update .. => true
  | _ => false

/-- The table a statement changes. -/
def Statement.tableName : Statement → Option String
  | .createIndex _ table .. | .insert table .. | .update table .. | .delete table .. => some table
  | _ => none

namespace Table

/-- **What a statement does to its table**: it is refused, or makes its change and the rebuild
succeeds, or the rebuild fails. -/
theorem perform_cases (t : Table) (options : TableRuntimeOptions) {statement : Statement}
    (h : statement.tableName.isSome = true) :
    (t.planned options statement = none ∧
      ∃ error, t.perform options statement = (.error error, t)) ∨
    ∃ changed, t.planned options statement = some changed ∧
      (changed.Rebuildable ∧ t.perform options statement =
          (.ok (), (changed.rebuildIndexesWithOptions (statement.rebuildOptions options)).2) ∨
        ¬changed.Rebuildable ∧ ∃ error, t.perform options statement =
          (.error error, if statement.restores then (t.rebuildIndexesWithOptions options).2 else
            (changed.rebuildIndexesWithOptions (statement.rebuildOptions options)).2)) := by
  -- a change followed by a rebuild, whose result is that of the statement
  have hrebuild (changed : Table) (options : TableRuntimeOptions) :
      changed.Rebuildable ∧ changed.rebuildIndexesWithOptions options =
          (.ok (), (changed.rebuildIndexesWithOptions options).2) ∨
        ¬changed.Rebuildable ∧ ∃ error, changed.rebuildIndexesWithOptions options =
          (.error error, (changed.rebuildIndexesWithOptions options).2) := by
    rcases hresult : (changed.rebuildIndexesWithOptions options).1 with error | _
    · refine .inr ⟨fun hok ↦ ?_, error, Prod.ext hresult rfl⟩
      rw [(rebuild_ok_iff changed options).mpr hok] at hresult
      cases hresult
    · exact .inl ⟨(rebuild_ok_iff changed options).mp hresult, Prod.ext hresult rfl⟩
  cases statement with
  | createIndex name table column fulltext =>
    rw [perform, createAnyIndex]
    cases fulltext with
    | false =>
      rw [if_neg (by decide), planned, createIndex]
      rcases t.column column with error | columnRef
      · exact .inl ⟨rfl, error, rfl⟩
      · dsimp only
        split
        · exact .inl ⟨rfl, _, rfl⟩
        · exact .inr ⟨_, rfl, hrebuild _ {}⟩
    | true =>
      rw [if_pos rfl, planned, createFulltextIndexWithOptions]
      rcases t.column column with error | columnRef
      · exact .inl ⟨rfl, error, rfl⟩
      · dsimp only
        by_cases htext : columnRef.ty = .text
        · rw [if_neg (not_not.mpr htext)]
          by_cases hname : name ∈ t.indexes ∨ name ∈ t.fulltextIndexes
          · rw [if_pos hname, if_pos (.inr hname)]
            exact .inl ⟨rfl, _, rfl⟩
          · rw [if_neg hname, if_neg (not_or.mpr ⟨not_not.mpr htext, hname⟩)]
            exact .inr ⟨_, rfl, hrebuild _ options⟩
        · rw [if_pos htext, if_pos (.inl htext)]
          exact .inl ⟨rfl, _, rfl⟩
  | insert table columns values =>
    rw [perform, planned, insertWithOptions]
    rcases t.insertRow columns values options with error | row
    · exact .inl ⟨rfl, error, rfl⟩
    · exact .inr ⟨t.stored row, rfl, hrebuild (t.stored row) options⟩
  | update table assignments filter =>
    rw [perform, planned, updateWithOptions]
    rcases t.updatePlan assignments filter options with error | ⟨rowIds, normalized⟩
    · exact .inl ⟨rfl, error, rfl⟩
    · refine .inr ⟨t.assigned rowIds normalized, rfl, ?_⟩
      dsimp only
      rw [← assigned]
      rcases hrebuild (t.assigned rowIds normalized) options with ⟨hok, heq⟩ | ⟨hno, error, heq⟩
      · refine .inl ⟨hok, ?_⟩
        rw [heq]
        rfl
      · refine .inr ⟨hno, error, ?_⟩
        have hdata := sameData_restored ((t.assigned rowIds normalized).rebuild_sameData options)
        rw [heq, ← hdata.rebuild_eq options]
        rfl
  | delete table filter =>
    rw [perform, planned, deleteWithOptions]
    rcases t.matchingRowIdsForLock filter options with error | rowIds
    · exact .inl ⟨rfl, error, rfl⟩
    · refine .inr ⟨t.erased rowIds, rfl, ?_⟩
      dsimp only
      rw [← erased]
      rcases hrebuild (t.erased rowIds) options with ⟨hok, heq⟩ | ⟨hno, error, heq⟩
      · refine .inl ⟨hok, ?_⟩
        rw [heq]
        rfl
      · refine .inr ⟨hno, error, ?_⟩
        rw [heq]
        rfl
  | _ => cases h

/-- **A statement leaves its table as it is**, given the change it makes: the change changes no
data, or is taken back, and a rebuild changes nothing. -/
def Unchanged (t changed : Table) (statement : Statement) (options : TableRuntimeOptions) : Prop :=
  (t.SameData changed ∨ statement.restores = true ∧ ¬changed.Rebuildable) ∧
    t.Rebuilt (statement.rebuildOptions options)

theorem perform_eq_iff {t changed : Table} {options : TableRuntimeOptions} {statement : Statement}
    (hplanned : t.planned options statement = some changed) :
    (t.perform options statement).2 = t ↔ t.Unchanged changed statement options := by
  have htable : statement.tableName.isSome = true := by
    cases statement <;> first | rfl | cases hplanned
  rcases t.perform_cases options htable with
    ⟨hnone, -⟩ | ⟨changed', hchanged, ⟨hok, heq⟩ | ⟨hno, error, heq⟩⟩
  · rw [hplanned] at hnone
    cases hnone
  · obtain rfl := Option.some.inj (hplanned.symm.trans hchanged)
    rw [heq, rebuild_eq_iff, Unchanged]
    simp [hok]
  · obtain rfl := Option.some.inj (hplanned.symm.trans hchanged)
    rw [heq, Unchanged]
    by_cases hrestores : statement.restores = true
    · have hoptions : statement.rebuildOptions options = options := by
        cases statement <;> first | rfl | cases hrestores
      rw [if_pos hrestores, hoptions, Rebuilt]
      simp [hrestores, hno]
    · rw [if_neg hrestores, rebuild_eq_iff]
      simp [hrestores]

end Table

/-! ## What a statement does to a catalog -/

omit [Platform] in
theorem Catalog.insert_eq_iff {catalog : Catalog} {name : String} {t t' : Table}
    (h : catalog.tables[name]? = some t) :
    (⟨catalog.tables.insert name t'⟩ : Catalog) = catalog ↔ t' = t := by
  constructor
  · intro heq
    have hname := congrArg (fun c : Catalog ↦ c.tables[name]?) heq
    simp only [BTree.getElem?_insert, if_true, h, Option.some.injEq] at hname
    exact hname
  · rintro rfl
    refine congrArg Catalog.mk (Std.ExtTreeMap.ext_getElem? fun n ↦ ?_)
    rw [BTree.getElem?_insert]
    split
    · rename_i heq
      exact heq ▸ h.symm
    · rfl

/-- A statement on a table does to the catalog what it does to the table. -/
theorem executeStatement_of_tableName {catalog : Catalog} {statement : Statement} {name : String}
    (hname : statement.tableName = some name) (options : TableRuntimeOptions) :
    (∀ t, catalog.tables[name]? = some t →
      (executeStatementWithOptions catalog statement options).1.isOk =
          (t.perform options statement).1.isOk ∧
        (executeStatementWithOptions catalog statement options).2 =
          ⟨catalog.tables.insert name (t.perform options statement).2⟩) ∧
    (catalog.tables[name]? = none →
      (executeStatementWithOptions catalog statement options).1.isOk = false ∧
        (executeStatementWithOptions catalog statement options).2 = catalog) := by
  have hisOk {α β : Type} (x : Result α) (g : α → β) : (x.map g).isOk = x.isOk := by
    rcases x with _ | _ <;> rfl
  have hmodify {α β : Type} (f : Table → Result α × Table) (g : α → β) :
      (∀ t, catalog.tables[name]? = some t →
        ((catalog.modifyTable name f).1.map g).isOk = (f t).1.isOk ∧
          (catalog.modifyTable name f).2 = ⟨catalog.tables.insert name (f t).2⟩) ∧
      (catalog.tables[name]? = none → ((catalog.modifyTable name f).1.map g).isOk = false ∧
        (catalog.modifyTable name f).2 = catalog) := by
    refine ⟨fun t ht ↦ ?_, fun hnone ↦ ?_⟩
    · rw [Catalog.modifyTable_self f ht]
      exact ⟨hisOk _ g, rfl⟩
    · rw [Catalog.modifyTable, hnone]
      exact ⟨rfl, rfl⟩
  cases statement with
  | createIndex index table column fulltext =>
    obtain rfl := Option.some.inj hname
    exact hmodify _ _
  | insert table columns values =>
    obtain rfl := Option.some.inj hname
    exact hmodify _ _
  | update table assignments filter =>
    obtain rfl := Option.some.inj hname
    simp only [Table.perform, hisOk]
    exact hmodify (·.updateWithOptions assignments filter options) _
  | delete table filter =>
    obtain rfl := Option.some.inj hname
    simp only [Table.perform, hisOk]
    exact hmodify (·.deleteWithOptions filter options) _
  | _ => cases hname

/-- **What a statement on a table does to a catalog**, by the change it makes. -/
theorem executeStatement_planned {catalog : Catalog} {statement : Statement} {name : String}
    (hname : statement.tableName = some name) (options : TableRuntimeOptions) :
    ((∀ t changed, catalog.tables[name]? = some t → t.planned options statement ≠ some changed) ∧
      (executeStatementWithOptions catalog statement options).1.isOk = false ∧
        (executeStatementWithOptions catalog statement options).2 = catalog) ∨
    ∃ t changed, catalog.tables[name]? = some t ∧ t.planned options statement = some changed ∧
      ((executeStatementWithOptions catalog statement options).1.isOk = true ↔
        changed.Rebuildable) ∧
      ((executeStatementWithOptions catalog statement options).2 = catalog ↔
        t.Unchanged changed statement options) ∧
      (changed.Rebuildable → (executeStatementWithOptions catalog statement options).2 =
        ⟨catalog.tables.insert name
          (changed.rebuildIndexesWithOptions (statement.rebuildOptions options)).2⟩) := by
  have hsome : statement.tableName.isSome = true := by rw [hname]; rfl
  obtain ⟨htable, hnone⟩ := @executeStatement_of_tableName _ catalog statement name hname options
  rcases ht : catalog.tables[name]? with _ | t
  · exact .inl ⟨by simp, hnone ht⟩
  · obtain ⟨hok, hsnd⟩ := htable t ht
    rcases t.perform_cases options hsome with
      ⟨hplanned, error, heq⟩ | ⟨changed, hplanned, hcases⟩
    · refine .inl ⟨fun t' changed ht' ↦ ?_, by rw [hok, heq]; rfl, ?_⟩
      · obtain rfl := Option.some.inj ht'
        rw [hplanned]
        simp
      · rw [hsnd, heq, Catalog.insert_eq_iff ht]
    · refine .inr ⟨t, changed, rfl, hplanned, ?_, ?_, fun hrebuildable ↦ ?_⟩
      · rw [hok]
        rcases hcases with ⟨hrebuildable, heq⟩ | ⟨hrebuildable, error, heq⟩ <;> rw [heq] <;>
          simp [hrebuildable, Except.isOk, Except.toBool]
      · rw [hsnd, Catalog.insert_eq_iff ht, Table.perform_eq_iff hplanned]
      · rcases hcases with ⟨-, heq⟩ | ⟨hno, -⟩
        · rw [hsnd, heq]
        · exact absurd hrebuildable hno

/-! ## Calls -/

namespace Store

/-- The committed catalog, the transaction and the file are the same. -/
def Same (store store' : Store) : Prop :=
  store'.db.catalog = store.db.catalog ∧ store'.db.transaction = store.db.transaction ∧
    store'.files.file = store.files.file

/-- A catalog can be made durable: there is no file, or no operation on it fails. -/
def Writes (store : Store) (catalog : Catalog) (fate : Fate Error) : Prop :=
  store.db.path = none ∨ ∀ step written error, fate = .fails step written error →
    (writeOps store.db.options catalog).length < step

/-- The file is what would be written of the committed catalog. -/
def Current (store : Store) : Prop :=
  store.db.path = none ∨ store.files.file = some (utf8 store.db.catalog.encode)

/-- A log record that is written after the statement fails. -/
def LogFails (store : Store) (statement : Statement) (log : LogOutcome) : Prop :=
  store.db.logAfter statement log ≠ .ok ()

/-- **A statement on a table that a failed call leaves behind**: it changes something, and a log
record fails after it, or the rebuild inside a transaction. -/
def SpoilsTable (store : Store) (statement : Statement) (log : LogOutcome) (fate : Fate Error)
    (name : String) (t changed : Table) : Prop :=
  let options := tableRuntimeOptions store.db.options
  (changed.Rebuildable → store.LogFails statement log ∧
    (store.db.transaction = none → store.Writes ⟨store.db.catalog.tables.insert name
      (changed.rebuildIndexesWithOptions (statement.rebuildOptions options)).2⟩ fate)) ∧
    (¬changed.Rebuildable → store.db.transaction ≠ none) ∧
    ¬(t.Unchanged changed statement options ∧ (store.db.transaction = none → store.Current))

/-- **What a failed call leaves behind.**  A log record fails after a statement that has been
carried out, or a rebuild fails inside a transaction. -/
def Spoils (store : Store) (statement : Statement) (log : LogOutcome) (fate : Fate Error) : Prop :=
  match statement with
  | .begin => store.db.transaction = none ∧ store.LogFails .begin log
  | .rollback => store.db.transaction ≠ none ∧ store.LogFails .rollback log
  | .commit => ∃ transaction, store.db.transaction = some transaction ∧
      store.Writes transaction fate ∧ store.LogFails .commit log
  | .createTable name columns => name ∉ store.db.activeCatalog.tables ∧
      ∃ t, Table.new name columns = .ok t ∧
        (store.db.transaction = none → store.Writes ⟨store.db.catalog.tables.insert name t⟩ fate) ∧
          store.LogFails (.createTable name columns) log
  | statement => ∃ name t changed, statement.tableName = some name ∧
      store.db.activeCatalog.tables[name]? = some t ∧
        t.planned (tableRuntimeOptions store.db.options) statement = some changed ∧
          store.SpoilsTable statement log fate name t changed

variable {store : Store} {statement : Statement} {log : LogOutcome} {fate : Fate Error}

omit [Platform] in
theorem Same.refl (store : Store) : store.Same store := ⟨rfl, rfl, rfl⟩

omit [Platform] in
/-- A catalog is made durable, or nothing happens to the file. -/
theorem persistFiles_writes (hpage : 0 < store.db.options.pageSize)
    (hfate : ∀ step, fate ≠ .crashes step) (catalog : Catalog) :
    (store.Writes catalog fate ∧ ∃ files,
        { store.db with catalog }.persistFiles store.files fate = (files, some (.ok ())) ∧
          (store.db.path = none → files.file = store.files.file) ∧
            (store.db.path ≠ none → files.file = some (utf8 catalog.encode))) ∨
    (¬store.Writes catalog fate ∧ ∃ files error,
      { store.db with catalog }.persistFiles store.files fate = (files, some (.error error)) ∧
        files.file = store.files.file) := by
  rcases hpath : store.db.path with _ | path
  · refine .inl ⟨.inl hpath, store.files, ?_, fun _ ↦ rfl, fun h ↦ absurd rfl h⟩
    rw [Database.persistFiles]
    simp only [hpath]
  · have hsome : store.db.path.isSome = true := by rw [hpath]; rfl
    have hrun : { store.db with catalog }.persistFiles store.files fate =
        store.files.run (writeOps store.db.options catalog ++ [.rename]) fate := by
      rw [Database.persistFiles]
      simp only [hpath]
    have hwrites : store.Writes catalog fate ↔
        ({ store.db with catalog }.persistFiles store.files fate).2 = some (.ok ()) := by
      rw [hrun, Files.run_isOk_iff hfate, Writes, hpath, List.length_append, List.length_singleton]
      exact or_iff_right (Option.some_ne_none path)
    rcases @Database.persistFiles_cases { store.db with catalog } hsome hpage store.files fate with
      ⟨files, heq, hfile⟩ | ⟨files, error, heq, hfile⟩ | ⟨_, step, -, hcrash, -⟩
    · exact .inl ⟨hwrites.mpr (by rw [heq]), files, heq, by simp, fun _ ↦ hfile⟩
    · exact .inr
        ⟨fun h ↦ by rw [heq] at hwrites; simpa using hwrites.mp h, files, error, heq, hfile⟩
    · exact absurd hcrash (hfate step)

/-- The call fails and leaves something behind. -/
def Leaves (store : Store) (statement : Statement) (log : LogOutcome) (result : Result QueryResult)
    (store' : Store) : Prop :=
  (result.isOk = true → store.LogFails statement log) ∧ ¬store.Same store'

/-- A statement inside a transaction. -/
theorem executeCatalogStatement_of_open {transaction : Catalog}
    (htx : store.db.transaction = some transaction) (fate : Fate Error) :
    ∃ result store', store.executeCatalogStatement statement fate = .returned result store' ∧
      store'.db.options = store.db.options ∧
      result.isOk = (executeStatementWithOptions transaction statement
        (tableRuntimeOptions store.db.options)).1.isOk ∧
      (store.Same store' ↔ (executeStatementWithOptions transaction statement
        (tableRuntimeOptions store.db.options)).2 = transaction) := by
  have hnot : ¬(statement.mutatesCatalog = true ∧ store.db.transaction = none) := by
    rw [htx]
    simp
  have hexecute : store.db.executeCatalogStatement statement none =
      ((executeStatementWithOptions transaction statement (tableRuntimeOptions store.db.options)).1,
        { store.db with transaction := some (executeStatementWithOptions transaction statement
          (tableRuntimeOptions store.db.options)).2 }) := by
    rw [Database.executeCatalogStatement, htx]
  rw [executeCatalogStatement, if_neg hnot, hexecute]
  refine ⟨_, _, rfl, rfl, rfl, ?_⟩
  rw [Same, htx]
  simp

/-- A statement outside a transaction. -/
theorem executeCatalogStatement_of_closed (hpage : 0 < store.db.options.pageSize)
    (hfate : ∀ step, fate ≠ .crashes step) (htx : store.db.transaction = none)
    (hmutates : statement.mutatesCatalog = true) :
    ∃ result store', store.executeCatalogStatement statement fate = .returned result store' ∧
      store'.db.options = store.db.options ∧
      (result.isOk = true ↔ (executeStatementWithOptions store.db.catalog statement
          (tableRuntimeOptions store.db.options)).1.isOk = true ∧
        store.Writes (executeStatementWithOptions store.db.catalog statement
          (tableRuntimeOptions store.db.options)).2 fate) ∧
      (store.Same store' ↔ (result.isOk = true → (executeStatementWithOptions store.db.catalog
        statement (tableRuntimeOptions store.db.options)).2 = store.db.catalog ∧
          store.Current)) := by
  rw [executeCatalogStatement, if_pos ⟨hmutates, htx⟩]
  rcases executeStatementWithOptions store.db.catalog statement
    (tableRuntimeOptions store.db.options) with ⟨error | result, catalog⟩
  · exact ⟨_, _, rfl, rfl, by simp [Except.isOk, Except.toBool],
      by simp [Same.refl, Except.isOk, Except.toBool]⟩
  · rcases persistFiles_writes hpage hfate catalog with
      ⟨hwrites, files, heq, hnone, hsome⟩ | ⟨hwrites, files, error, heq, hfile⟩
    · dsimp only
      rw [heq]
      refine ⟨_, _, rfl, rfl, by simp [Except.isOk, Except.toBool, hwrites], ?_⟩
      rw [Same, Current]
      by_cases hpath : store.db.path = none
      · simp [hnone hpath, hpath, Except.isOk, Except.toBool]
      · rw [hsome hpath]
        simp only [hpath, false_or, true_and, Except.isOk, Except.toBool, true_implies]
        constructor
        · rintro ⟨rfl, hfile⟩
          exact ⟨rfl, hfile.symm⟩
        · rintro ⟨rfl, hfile⟩
          exact ⟨rfl, hfile.symm⟩
    · dsimp only
      rw [heq]
      refine ⟨_, _, rfl, rfl, by simp [Except.isOk, Except.toBool, hwrites], ?_⟩
      simp [Same, hfile, Except.isOk, Except.toBool]

/-- **What a failed call leaves behind**, for a statement on a catalog. -/
theorem executeCatalogStatement_leaves (hpage : 0 < store.db.options.pageSize)
    (hfate : ∀ step, fate ≠ .crashes step) {name : String}
    (hname : statement.tableName = some name) :
    ∃ result store', store.executeCatalogStatement statement fate = .returned result store' ∧
      store'.db.options = store.db.options ∧
      (store.Leaves statement log result store' ↔
        ∃ name t changed, statement.tableName = some name ∧
          store.db.activeCatalog.tables[name]? = some t ∧
            t.planned (tableRuntimeOptions store.db.options) statement = some changed ∧
              store.SpoilsTable statement log fate name t changed) := by
  have hmutates : statement.mutatesCatalog = true := by
    cases statement <;> first | rfl | cases hname
  -- the statement determines its table, and that the change
  have hspoils {catalog : Catalog} {t changed : Table} {P : String → Table → Table → Prop}
      (ht : catalog.tables[name]? = some t)
      (hplanned : t.planned (tableRuntimeOptions store.db.options) statement = some changed) :
      (∃ name t changed, statement.tableName = some name ∧ catalog.tables[name]? = some t ∧
        t.planned (tableRuntimeOptions store.db.options) statement = some changed ∧
          P name t changed) ↔ P name t changed := by
    constructor
    · rintro ⟨name', t', changed', hname', ht', hplanned', hP⟩
      obtain rfl := Option.some.inj (hname.symm.trans hname')
      obtain rfl := Option.some.inj (ht.symm.trans ht')
      obtain rfl := Option.some.inj (hplanned.symm.trans hplanned')
      exact hP
    · exact fun hP ↦ ⟨name, t, changed, hname, ht, hplanned, hP⟩
  have hnot {catalog : Catalog} {P : String → Table → Table → Prop}
      (hno : ∀ t changed, catalog.tables[name]? = some t →
        t.planned (tableRuntimeOptions store.db.options) statement ≠ some changed) :
      ¬∃ name t changed, statement.tableName = some name ∧ catalog.tables[name]? = some t ∧
        t.planned (tableRuntimeOptions store.db.options) statement = some changed ∧
          P name t changed := by
    rintro ⟨name', t', changed', hname', ht', hplanned', -⟩
    obtain rfl := Option.some.inj (hname.symm.trans hname')
    exact hno t' changed' ht' hplanned'
  rcases htx : store.db.transaction with _ | transaction
  · obtain ⟨result, store', heq, hoptions, hok, hsame⟩ :=
      executeCatalogStatement_of_closed hpage hfate htx hmutates
    have hactive : store.db.activeCatalog = store.db.catalog := by
      rw [Database.activeCatalog, htx, Option.getD_none]
    refine ⟨result, store', heq, hoptions, ?_⟩
    rw [hactive, Leaves, hsame]
    rcases @executeStatement_planned _ store.db.catalog _ _ hname
      (tableRuntimeOptions store.db.options) with
      ⟨hno, hfailed, -⟩ | ⟨t, changed, ht, hplanned, hrebuildable, hunchanged, hafter⟩
    · rw [hfailed] at hok
      simp only [Bool.false_eq_true, false_and, iff_false] at hok
      exact iff_of_false (fun h ↦ h.2 fun h' ↦ absurd h' hok) (hnot hno)
    · rw [hspoils ht hplanned, SpoilsTable, htx, hok, hrebuildable, hunchanged]
      by_cases hr : changed.Rebuildable
      · rw [hafter hr]
        generalize store.Writes _ fate = writes
        constructor
        · rintro ⟨hlog, hnot⟩
          have hwrites : writes := by
            by_contra hno
            exact hnot fun h ↦ absurd h.2 hno
          exact ⟨fun _ ↦ ⟨hlog ⟨hr, hwrites⟩, fun _ ↦ hwrites⟩, absurd hr,
            fun h ↦ hnot fun _ ↦ ⟨h.1, h.2 rfl⟩⟩
        · rintro ⟨hlog, -, hnot⟩
          exact ⟨fun _ ↦ (hlog hr).1, fun h ↦ hnot
            ⟨(h ⟨hr, (hlog hr).2 rfl⟩).1, fun _ ↦ (h ⟨hr, (hlog hr).2 rfl⟩).2⟩⟩
      · exact iff_of_false (fun h ↦ h.2 fun h' ↦ absurd h'.1 hr) (fun h ↦ h.2.1 hr rfl)
  · obtain ⟨result, store', heq, hoptions, hok, hsame⟩ :=
      executeCatalogStatement_of_open htx fate
    have hactive : store.db.activeCatalog = transaction := by
      rw [Database.activeCatalog, htx, Option.getD_some]
    refine ⟨result, store', heq, hoptions, ?_⟩
    rw [hactive, Leaves, hsame, hok]
    rcases @executeStatement_planned _ transaction _ _ hname
      (tableRuntimeOptions store.db.options) with
      ⟨hno, -, hsnd⟩ | ⟨t, changed, ht, hplanned, hrebuildable, hunchanged, -⟩
    · exact iff_of_false (fun h ↦ h.2 hsnd) (hnot hno)
    · rw [hspoils ht hplanned, SpoilsTable, htx, hrebuildable, hunchanged]
      simp

/-- A new table is not the catalog without it. -/
theorem createTable_leaves (hpage : 0 < store.db.options.pageSize)
    (hfate : ∀ step, fate ≠ .crashes step) (name : String) (columns : List Column) :
    ∃ result store', store.executeCatalogStatement (.createTable name columns) fate =
        .returned result store' ∧
      store'.db.options = store.db.options ∧
      (store.Leaves (.createTable name columns) log result store' ↔
        store.Spoils (.createTable name columns) log fate) := by
  -- what the statement does to a catalog
  have hexecuted (catalog : Catalog) (options : TableRuntimeOptions) :
      (¬(name ∉ catalog.tables ∧ ∃ t, Table.new name columns = .ok t) ∧
        (executeStatementWithOptions catalog (.createTable name columns) options).1.isOk = false ∧
          (executeStatementWithOptions catalog (.createTable name columns) options).2 = catalog) ∨
      ∃ t, name ∉ catalog.tables ∧ Table.new name columns = .ok t ∧
        (executeStatementWithOptions catalog (.createTable name columns) options).1.isOk = true ∧
          (executeStatementWithOptions catalog (.createTable name columns) options).2 =
            ⟨catalog.tables.insert name t⟩ := by
    rw [executeStatementWithOptions]
    by_cases hname : name ∈ catalog.tables
    · rw [if_pos hname]
      exact .inl ⟨fun h ↦ h.1 hname, rfl, rfl⟩
    · rw [if_neg hname]
      rcases Table.new name columns with error | t
      · refine .inl ⟨?_, rfl, rfl⟩
        rintro ⟨-, t, h⟩
        cases h
      · exact .inr ⟨t, hname, rfl, rfl, rfl⟩
  have hne {catalog : Catalog} (hname : name ∉ catalog.tables) (t : Table) :
      (⟨catalog.tables.insert name t⟩ : Catalog) ≠ catalog := by
    intro heq
    refine hname ?_
    rw [← heq, BTree.mem_iff_exists]
    exact ⟨t, by rw [BTree.getElem?_insert, if_pos rfl]⟩
  rcases htx : store.db.transaction with _ | transaction
  · obtain ⟨result, store', heq, hoptions, hok, hsame⟩ :=
      @executeCatalogStatement_of_closed _ store (.createTable name columns) fate hpage hfate
        htx rfl
    have hactive : store.db.activeCatalog = store.db.catalog := by
      rw [Database.activeCatalog, htx, Option.getD_none]
    refine ⟨result, store', heq, hoptions, ?_⟩
    rw [Leaves, hsame, Spoils, hactive, hok, htx]
    rcases hexecuted store.db.catalog (tableRuntimeOptions store.db.options) with
      ⟨hno, hfailed, -⟩ | ⟨t, hname, hnew, hexecutes, hafter⟩
    · refine iff_of_false (fun h ↦ h.2 fun h' ↦ ?_) ?_
      · rw [hfailed] at h'
        exact absurd h'.1 (by decide)
      · rintro ⟨hname, t, ht, -⟩
        exact hno ⟨hname, t, ht⟩
    · rw [hexecutes, hafter]
      constructor
      · rintro ⟨hlog, hnot⟩
        have hwrites : store.Writes ⟨store.db.catalog.tables.insert name t⟩ fate := by
          by_contra hno
          exact hnot fun h ↦ absurd h.2 hno
        exact ⟨hname, t, hnew, fun _ ↦ hwrites, hlog ⟨rfl, hwrites⟩⟩
      · rintro ⟨-, t', ht', hwrites, hlog⟩
        obtain rfl := Except.ok.inj (hnew.symm.trans ht')
        exact ⟨fun _ ↦ hlog, fun h ↦ hne hname t (h ⟨rfl, hwrites rfl⟩).1⟩
  · obtain ⟨result, store', heq, hoptions, hok, hsame⟩ :=
      @executeCatalogStatement_of_open _ store (.createTable name columns) _ htx fate
    have hactive : store.db.activeCatalog = transaction := by
      rw [Database.activeCatalog, htx, Option.getD_some]
    refine ⟨result, store', heq, hoptions, ?_⟩
    rw [Leaves, hsame, Spoils, hactive, hok, htx]
    rcases hexecuted transaction (tableRuntimeOptions store.db.options) with
      ⟨hno, -, hsnd⟩ | ⟨t, hname, hnew, hexecutes, hafter⟩
    · refine iff_of_false (fun h ↦ h.2 hsnd) ?_
      rintro ⟨hname, t, ht, -⟩
      exact hno ⟨hname, t, ht⟩
    · rw [hexecutes, hafter]
      constructor
      · rintro ⟨hlog, -⟩
        exact ⟨hname, t, hnew, by simp, hlog rfl⟩
      · rintro ⟨-, t', ht', -, hlog⟩
        exact ⟨fun _ ↦ hlog, hne hname t⟩

omit [Platform] in
/-- A commit ends the transaction. -/
theorem commit_leaves (hpage : 0 < store.db.options.pageSize)
    (hfate : ∀ step, fate ≠ .crashes step) :
    ∃ result store', store.commit fate = .returned result store' ∧
      store'.db.options = store.db.options ∧
      (store.Leaves .commit log result store' ↔ ∃ transaction,
        store.db.transaction = some transaction ∧ store.Writes transaction fate ∧
          store.LogFails .commit log) := by
  rw [commit]
  rcases htx : store.db.transaction with _ | transaction
  · exact ⟨_, _, rfl, rfl, iff_of_false (fun h ↦ h.2 (.refl store)) (by simp)⟩
  · dsimp only
    rcases persistFiles_writes hpage hfate transaction with
      ⟨hwrites, files, heq, -⟩ | ⟨hwrites, files, error, heq, hfile⟩
    · rw [heq]
      refine ⟨_, _, rfl, rfl, ?_⟩
      constructor
      · rintro ⟨hlog, -⟩
        exact ⟨transaction, rfl, hwrites, hlog rfl⟩
      · rintro ⟨_, -, -, hlog⟩
        refine ⟨fun _ ↦ hlog, fun hsame ↦ ?_⟩
        have hnone : none = store.db.transaction := hsame.2.1
        rw [htx] at hnone
        cases hnone
    · rw [heq]
      refine ⟨_, _, rfl, rfl, iff_of_false (fun h ↦ h.2 ⟨rfl, rfl, hfile⟩) ?_⟩
      rintro ⟨transaction', htx', hwrites', -⟩
      obtain rfl := Option.some.inj htx'
      exact hwrites hwrites'

/-- **What a failed call leaves behind**, for every statement. -/
theorem executeParsed_leaves (hpage : 0 < store.db.options.pageSize)
    (hfate : ∀ step, fate ≠ .crashes step) (statement : Statement) :
    ∃ result store', store.executeParsed statement fate = .returned result store' ∧
      store'.db.options = store.db.options ∧
      (store.Leaves statement log result store' ↔ store.Spoils statement log fate) := by
  -- a statement that mutates nothing
  have hreads (hmutates : statement.mutatesCatalog = false)
      (hspoils : ¬store.Spoils statement log fate) :
      ∃ result store', store.executeCatalogStatement statement fate = .returned result store' ∧
        store'.db.options = store.db.options ∧
        (store.Leaves statement log result store' ↔ store.Spoils statement log fate) := by
    have hnot : ¬(statement.mutatesCatalog = true ∧ store.db.transaction = none) := by
      rw [hmutates]
      simp
    have hexecuted : (store.db.executeCatalogStatement statement none).2 = store.db := by
      rw [Database.executeCatalogStatement]
      rcases htx : store.db.transaction with _ | transaction
      · simp only [hmutates, Bool.false_eq_true, if_false,
          executeStatement_of_not_mutates hmutates, ← htx]
      · simp only [executeStatement_of_not_mutates hmutates, ← htx]
    rw [executeCatalogStatement, if_neg hnot]
    dsimp only
    rw [hexecuted]
    exact ⟨_, _, rfl, rfl, iff_of_false (fun h ↦ h.2 (.refl store)) hspoils⟩
  cases statement with
  | begin =>
    refine ⟨_, _, rfl, ?_, ?_⟩
    · rw [Database.begin]
      split <;> rfl
    · rw [Leaves, Same, Database.begin, Spoils]
      rcases htx : store.db.transaction with _ | transaction
      · simp [Except.isOk, Except.toBool]
      · simp [htx]
  | commit => exact commit_leaves hpage hfate
  | rollback =>
    refine ⟨_, _, rfl, ?_, ?_⟩
    · rw [Database.rollback]
      split <;> rfl
    · rw [Leaves, Same, Database.rollback, Spoils]
      rcases htx : store.db.transaction with _ | transaction
      · simp [htx]
      · simp [Except.isOk, Except.toBool]
  | explain statement =>
    refine ⟨_, _, rfl, rfl, iff_of_false (fun h ↦ h.2 (.refl store)) ?_⟩
    simp [Spoils, Statement.tableName]
  | createTable name columns => exact createTable_leaves hpage hfate name columns
  | createIndex | insert | update | delete =>
    exact executeCatalogStatement_leaves hpage hfate rfl
  | select | parsedOnly => exact hreads rfl (by simp [Spoils, Statement.tableName])

/-- **When a call that fails has changed nothing.** -/
theorem unchanged_iff (store : Store) (hvalid : store.db.options.validate = .ok ()) (sql : String)
    (log : LogOutcome) (hfate : ∀ step, fate ≠ .crashes step) :
    (∀ fault store', store.execute sql log fate = .returned (.error fault) store' →
      store.Same store') ↔
    ∀ statement, (store.db.parseStatement sql).1 = .ok statement →
      store.db.logBefore statement log = .ok () → ¬store.Spoils statement log fate := by
  have hpage := pageSize_pos hvalid
  rw [execute]
  rcases hparse : store.db.parseStatement sql with ⟨fault | statement, db⟩
  · refine iff_of_true (fun _ _ heq ↦ ?_) (by simp)
    obtain ⟨-, rfl⟩ := Call.returned.inj heq
    have hdb : (store.db.parseStatement sql).2 = db := by rw [hparse]
    exact hdb ▸ .refl store
  · have hdb : (store.db.parseStatement sql).2 = db := by rw [hparse]
    subst hdb
    have hlog : (store.db.parseStatement sql).2.logBefore statement log =
      store.db.logBefore statement log := rfl
    have hspoils : Spoils { store with db := (store.db.parseStatement sql).2 } statement log fate ↔
      store.Spoils statement log fate := by cases statement <;> exact Iff.rfl
    dsimp only
    rw [hlog]
    rcases hbefore : store.db.logBefore statement log with error | _
    · refine iff_of_true (fun _ _ heq ↦ ?_) fun statement' hparse' hbefore' ↦ ?_
      · obtain ⟨-, rfl⟩ := Call.returned.inj heq
        exact .refl store
      · obtain rfl := Except.ok.inj hparse'
        rw [hbefore] at hbefore'
        cases hbefore'
    · obtain ⟨result, store', heq, hoptions, hleaves⟩ :=
        @executeParsed_leaves _ { store with db := (store.db.parseStatement sql).2 } log _ hpage
          hfate
          statement
      have hafter : store'.db.logAfter statement log = store.db.logAfter statement log := by
        rw [Database.logAfter, hoptions]
        rfl
      -- the call fails and leaves something behind, or it does not
      have hiff : (∀ statement', Except.ok statement = Except.ok (ε := Fault) statement' →
          store.db.logBefore statement' log = .ok () → ¬store.Spoils statement' log fate) ↔
          ((result.isOk = true → store.LogFails statement log) → store.Same store') := by
        rw [hspoils] at hleaves
        constructor
        · intro h hfails
          by_contra hnot
          exact h statement rfl hbefore (hleaves.mp ⟨hfails, hnot⟩)
        · rintro h statement' hparse' - hspoiled
          obtain rfl := Except.ok.inj hparse'
          obtain ⟨hfails, hnot⟩ := hleaves.mpr hspoiled
          exact hnot (h hfails)
      rw [hiff, heq]
      dsimp only
      rcases result with error | result
      · simp [Except.isOk, Except.toBool]
      · dsimp only
        rw [hafter]
        rcases hlogged : store.db.logAfter statement log with error | _
        · simp [LogFails, hlogged]
        · simp [LogFails, hlogged, Except.isOk, Except.toBool]

end Store

end Platform

namespace Store

/-- A database with a binlog, on a file that does not exist. -/
abbrev logged : Store :=
  ⟨⟨some "f", .empty, none, { binlogPath := some "b" }, ∅⟩, ⟨none, none⟩⟩

/-- `BEGIN`, whose binlog record fails, leaves its transaction behind. -/
theorem unchanged_iff_logged : ¬∀ (fault : Fault) (store' : Store),
    @execute Platform.ascii logged "BEGIN" { binlog := some (.io "full") } .completes =
      .returned (.error fault) store' → logged.Same store' := by
  rw [@unchanged_iff Platform.ascii .completes logged (by decide) "BEGIN" _ (by simp)]
  intro h
  have hparse : (logged.db.parseStatement "BEGIN").1 = .ok .begin := by decide +kernel
  exact h .begin hparse (by decide) ⟨rfl, by rw [LogFails]; decide⟩

/-- **A call that fails has created a table, and written it**: only its binlog record has failed. -/
theorem not_unchanged : ¬∀ [Platform] (store : Store) (sql : String) (log : LogOutcome)
    (fate : Fate Error) (fault : Fault) (store' : Store),
      store.execute sql log fate = .returned (.error fault) store' → store.Same store' := by
  intro h
  have hcheck : (match @execute Platform.ascii logged "CREATE TABLE t (a INT)"
      { binlog := some (.io "full") } .completes with
    | .returned (.error _) store' =>
      decide ("t" ∈ store'.db.catalog.tables) && store'.files.file.isSome
    | _ => false) = true := by decide +kernel
  split at hcheck
  · rename_i fault store' heq
    obtain ⟨hcatalog, -⟩ := @h Platform.ascii _ _ _ _ _ _ heq
    rw [hcatalog] at hcheck
    simp [Catalog.empty] at hcheck
  · cases hcheck

end Store

end Fsql
