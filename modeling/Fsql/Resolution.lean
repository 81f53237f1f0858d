import Fsql.Library.Layers
import Fsql.Library.Occurrence
import Fsql.Sql.Literal
import Fsql.EngineInvariant

/-!
# Names that are resolved to themselves

A name is normalized when it is parsed and again when a table looks it up.  The second time changes
it if the first one has left a blank or a quote at one of its ends, that is, unless the name is
written as a core inside of blanks, backquotes, double quotes and single quotes in this order
(`normalizeIdentifier_idempotent_iff`).  A table finds a column by its stored name exactly if that
is `Bare`.

`resolution_iff` says what follows for the statements of a run: which columns an `INSERT` without a
column list finds, and whether the rows of a `SELECT` have all the columns that it lists.
-/

set_option autoImplicit false

namespace Fsql

open Text

/-! ## Normalizing twice -/

/-- What `normalize_identifier` trims, in its order: blanks, backquotes, double quotes and single
quotes.  All other characters have rank 4. -/
def quoteLayer (c : Char) : Nat :=
  if isWhitespace c then 0 else if c = '`' then 1 else if c = '"' then 2 else if c = '\'' then 3
  else 4

theorem normalizeIdentifier_peel (input : String) :
    normalizeIdentifier input = String.ofList (lower (peel quoteLayer 4 input.toList)) := by
  have hblank : isWhitespace = fun c ↦ quoteLayer c == 0 := by
    funext c
    rw [Bool.eq_iff_iff, beq_iff_eq, quoteLayer]
    repeat' split
    all_goals simp_all
  have hquote (q : Char) (k : Nat) (hk : quoteLayer q = k) (hne : k ≠ 4) (hzero : k ≠ 0) :
      (· == q) = fun c ↦ quoteLayer c == k := by
    funext c
    rw [Bool.eq_iff_iff, beq_iff_eq, beq_iff_eq]
    refine ⟨fun h ↦ h ▸ hk, fun h ↦ ?_⟩
    rw [← hk] at h hne hzero
    unfold quoteLayer at h hne hzero
    repeat' split at h
    all_goals simp_all
  rw [normalizeIdentifier, trim, trimMatches, trimMatches, trimMatches, hblank,
    hquote '`' 1 rfl (by decide) (by decide), hquote '"' 2 rfl (by decide) (by decide),
    hquote '\'' 3 rfl (by decide) (by decide)]
  rfl

/-- The case of a letter is none of the layers. -/
theorem quoteLayer_toLower (c : Char) : quoteLayer c.toLower = quoteLayer c := by
  rcases toLower_eq_or_capital c with heq | ⟨n, hlt, hlo, rfl⟩
  · rw [heq]
  · have key : ∀ n < 91, 64 < n →
        quoteLayer (Char.ofNat n).toLower = quoteLayer (Char.ofNat n) := by decide
    exact key n hlt hlo

theorem lower_lower (l : List Char) : lower (lower l) = lower l := by
  rw [lower, lower, List.map_map]
  refine List.map_congr_left fun c _ ↦ ?_
  show c.toLower.toLower = c.toLower
  rcases toLower_eq_or_capital c with heq | ⟨n, hlt, hlo, rfl⟩
  · rw [heq, heq]
  · have key : ∀ n < 91, 64 < n → (Char.ofNat n).toLower.toLower = (Char.ofNat n).toLower := by
      decide
    exact key n hlt hlo

/-- **The name is written as it is stored**: in lower case, and without blanks or quotes at its
ends. -/
structure Bare (name : String) : Prop where
  lower_eq : lower name.toList = name.toList
  core : Core quoteLayer 4 name.toList

/-- **What is not changed by normalizing.** -/
theorem normalizeIdentifier_eq_self_iff {name : String} :
    normalizeIdentifier name = name ↔ Bare name := by
  rw [normalizeIdentifier_peel, ← String.toList_inj, String.toList_ofList]
  constructor
  · intro h
    have hpeel : peel quoteLayer 4 name.toList = name.toList := by
      refine (peel_sublist quoteLayer 4 name.toList).eq_of_length ?_
      rw [← length_lower (peel quoteLayer 4 name.toList), h]
    rw [hpeel] at h
    exact ⟨h, peel_eq_self_iff.mp hpeel⟩
  · intro h
    rw [peel_eq_self_iff.mpr h.core, h.lower_eq]

/-- **Which identifiers are stored bare**: those that are written in order. -/
theorem bare_normalizeIdentifier_iff (input : String) :
    Bare (normalizeIdentifier input) ↔ Wrapped quoteLayer 4 input.toList := by
  rw [← core_peel_iff, normalizeIdentifier_peel]
  have hlayer (c : Option Char) : (∀ d ∈ c.map Char.toLower, 4 ≤ quoteLayer d) ↔
      ∀ d ∈ c, 4 ≤ quoteLayer d := by
    rcases c with _ | c
    · simp
    · simp [quoteLayer_toLower]
  have hcore (l : List Char) : Core quoteLayer 4 (lower l) ↔ Core quoteLayer 4 l := by
    constructor
    · rintro ⟨hhead, hlast⟩
      rw [lower, List.head?_map, hlayer] at hhead
      rw [lower, List.getLast?_map, hlayer] at hlast
      exact ⟨hhead, hlast⟩
    · rintro ⟨hhead, hlast⟩
      refine ⟨?_, ?_⟩
      · rwa [lower, List.head?_map, hlayer]
      · rwa [lower, List.getLast?_map, hlayer]
  constructor
  · intro h
    have hstored := h.core
    rwa [String.toList_ofList, hcore] at hstored
  · intro h
    refine ⟨?_, ?_⟩
    · rw [String.toList_ofList, lower_lower]
    · rw [String.toList_ofList, hcore]
      exact h

/-- **When normalizing twice is normalizing once.** -/
theorem normalizeIdentifier_idempotent_iff (input : String) :
    normalizeIdentifier (normalizeIdentifier input) = normalizeIdentifier input ↔
      Wrapped quoteLayer 4 input.toList := by
  rw [normalizeIdentifier_eq_self_iff, bare_normalizeIdentifier_iff]

/-! ## Columns of a table -/

namespace Table

/-- **The rows of the table have its columns.** -/
structure Filled (options : TableRuntimeOptions) (t : Table) : Prop where
  /-- Column names are distinct. -/
  columns_nodup : (t.columns.map (·.name)).Nodup
  /-- A row has exactly the columns of the table, and a value of its type in each. -/
  rows (rowId : RowId) (row : Row) : t.rows[rowId]? = some row → RowTyped options t.columns row

/-- **A column is found by its stored name exactly if that is bare.** -/
theorem column_name_iff {t : Table} (hnodup : (t.columns.map (·.name)).Nodup) {column : Column}
    (hmem : column ∈ t.columns) : t.column column.name = .ok column ↔ Bare column.name := by
  rw [← normalizeIdentifier_eq_self_iff]
  constructor
  · exact fun h ↦ (column_eq_ok h).2.symm
  · intro h
    rw [Table.column, h]
    split
    · rename_i found hfind
      have hname : found.name = column.name := by simpa using List.find?_some hfind
      rw [eq_of_name_eq hnodup (List.mem_of_find?_eq_some hfind) hmem hname]
    · rename_i hnone
      exact absurd (List.find?_eq_none.mp hnone column hmem) (by simp)

/-- What an `INSERT` without a column list looks up: the names of all columns, each of which is
found to be its column. -/
def ResolvesAll (t : Table) : Prop := (t.columns.map (·.name)).mapM t.column = .ok t.columns

/-- **An `INSERT` without a column list finds all columns exactly if their names are bare.** -/
theorem resolvesAll_iff {t : Table} (hnodup : (t.columns.map (·.name)).Nodup) :
    t.ResolvesAll ↔ ∀ column ∈ t.columns, Bare column.name := by
  have hlist : ∀ columns ⊆ t.columns, (columns.map (·.name)).mapM t.column = .ok columns ↔
      ∀ column ∈ columns, Bare column.name := by
    intro columns hsubset
    induction columns with
    | nil => simp [pure, Except.pure]
    | cons column columns ih =>
      rw [List.cons_subset] at hsubset
      rw [List.forall_mem_cons, ← ih hsubset.2, ← column_name_iff hnodup hsubset.1, List.map_cons,
        List.mapM_cons]
      constructor
      · intro h
        obtain ⟨found, hfound, h⟩ := bind_eq_ok_iff.mp h
        obtain ⟨rest, hrest, h⟩ := bind_eq_ok_iff.mp h
        obtain ⟨rfl, rfl⟩ := List.cons.inj (Except.ok.inj h)
        exact ⟨hfound, hrest⟩
      · rintro ⟨hfound, hrest⟩
        exact bind_eq_ok_iff.mpr ⟨column, hfound, bind_eq_ok_iff.mpr ⟨columns, hrest, rfl⟩⟩
  exact hlist t.columns (List.Subset.refl _)

/-! ## The rows of a `SELECT` -/

/-- A listed column is in a projected row with the value that it has in the stored one. -/
theorem getElem?_projectRow (row : Row) (columns : List String) (name : String) :
    (projectRow row (.columns columns))[name]? = if name ∈ columns then row[name]? else none := by
  induction columns using List.reverseRecOn with
  | nil => rfl
  | append_singleton columns column ih =>
    rw [projectRow] at ih ⊢
    rw [List.foldl_append, List.foldl_cons, List.foldl_nil]
    by_cases heq : column = name
    · subst heq
      rcases hvalue : row[column]? with _ | value
      · dsimp only
        rw [ih, hvalue, ite_self, ite_self]
      · simp
    · rcases row[column]? with _ | value
      · simp only [ih, List.mem_append, List.mem_singleton, Ne.symm heq, or_false]
      · simp only [ih, List.mem_append, List.mem_singleton, Ne.symm heq, or_false,
          BTree.getElem?_insert, if_neg heq]

section Platform

variable [Platform] {options : TableRuntimeOptions}

/-- **Every row of a `SELECT` of the columns has all of them.** -/
def Answers (t : Table) (options : TableRuntimeOptions) (columns : List String) : Prop :=
  ∀ filter order limit rows,
    t.selectWithOptions (.columns columns) filter order limit options = .ok rows →
      ∀ row ∈ rows, ∀ column ∈ columns, ∃ value, row[column]? = some value

/-- The rows of a `SELECT` are stored rows, projected. -/
theorem mem_of_selectWithOptions {t : Table} {projection : Projection} {filter : Option Filter}
    {order : Option Order} {limit : Option Nat} {rows : List Row}
    (h : t.selectWithOptions projection filter order limit options = .ok rows) {row : Row}
    (hrow : row ∈ rows) : ∃ (rowId : RowId) (stored : Row), t.rows[rowId]? = some stored ∧
      row = projectRow stored projection := by
  obtain ⟨-, -, h⟩ := bind_eq_ok_iff.mp h
  obtain ⟨normalized, -, h⟩ := bind_eq_ok_iff.mp h
  obtain ⟨found, -, h⟩ := bind_eq_ok_iff.mp h
  have hids : ∃ rowIds : List RowId, rows =
      rowIds.filterMap fun rowId ↦ t.rows[rowId]?.map (projectRow · projection) := by
    rcases order with _ | ⟨column, target, descending⟩
    · exact ⟨_, (Except.ok.inj h).symm⟩
    · obtain ⟨columnRef, -, h⟩ := bind_eq_ok_iff.mp h
      dsimp only at h
      split at h
      · cases h
      · split at h
        · split at h
          · cases h
          · obtain ⟨scored, -, h⟩ := bind_eq_ok_iff.mp h
            exact ⟨_, (Except.ok.inj h).symm⟩
        · obtain ⟨scored, -, h⟩ := bind_eq_ok_iff.mp h
          exact ⟨_, (Except.ok.inj h).symm⟩
  obtain ⟨rowIds, rfl⟩ := hids
  obtain ⟨rowId, -, hrow⟩ := List.mem_filterMap.mp hrow
  obtain ⟨stored, hstored, rfl⟩ := Option.map_eq_some_iff.mp hrow
  exact ⟨rowId, stored, hstored, rfl⟩

/-- A `SELECT` without conditions returns all rows. -/
theorem selectWithOptions_all {t : Table} {projection : Projection}
    (h : t.validateProjection projection = .ok ()) :
    t.selectWithOptions projection none none none options =
      .ok (t.rows.keys.filterMap fun rowId ↦ t.rows[rowId]?.map (projectRow · projection)) := by
  rw [selectWithOptions, h]
  rfl

omit [Platform] in
/-- The listed names are found. -/
theorem exists_column_of_validateProjection {t : Table} {columns : List String}
    (h : t.validateProjection (.columns columns) = .ok ()) {name : String}
    (hname : name ∈ columns) : ∃ column, t.column name = .ok column := by
  rw [validateProjection] at h
  induction columns with
  | nil => cases hname
  | cons first columns ih =>
    obtain ⟨_, hfirst, hrest⟩ := bind_eq_ok_iff.mp h
    obtain ⟨column, hcolumn, -⟩ := bind_eq_ok_iff.mp hfirst
    rcases List.mem_cons.mp hname with rfl | hname
    · exact ⟨column, hcolumn⟩
    · exact ih hrest hname

/-- **When a `SELECT` returns what it lists**: if every listed name is bare, or is the stored name
of a column all the same. -/
theorem answers_iff {t : Table} (ht : t.Filled options) {columns : List String}
    (h : t.validateProjection (.columns columns) = .ok ()) :
    t.Answers options columns ↔
      t.rows = ∅ ∨ ∀ name ∈ columns, Bare name ∨ ∃ column ∈ t.columns, column.name = name := by
  constructor
  · intro hanswers
    rcases hrows : t.rows.toList with _ | ⟨⟨rowId, stored⟩, rest⟩
    · exact .inl (Std.ExtTreeMap.toList_eq_nil_iff.mp hrows)
    · refine .inr fun name hname ↦ .inr ?_
      have hstored : t.rows[rowId]? = some stored :=
        (DerivedIndex.mem_toList_iff t.rows rowId stored).mp (hrows ▸ List.mem_cons_self)
      have hmem : projectRow stored (.columns columns) ∈
          t.rows.keys.filterMap fun rowId ↦
            t.rows[rowId]?.map (projectRow · (.columns columns)) := by
        refine List.mem_filterMap.mpr ⟨rowId, ?_, by rw [hstored]; rfl⟩
        rw [Std.ExtTreeMap.mem_keys, Std.ExtTreeMap.mem_iff_isSome_getElem?, hstored]
        rfl
      obtain ⟨value, hvalue⟩ := hanswers _ _ _ _ (selectWithOptions_all h) _ hmem name hname
      rw [getElem?_projectRow, if_pos hname] at hvalue
      exact ((ht.rows rowId stored hstored).rowColumns name).mp ⟨value, hvalue⟩
  · rintro hcases filter order limit rows hselect row hrow name hname
    obtain ⟨rowId, stored, hstored, rfl⟩ := mem_of_selectWithOptions hselect hrow
    rcases hcases with hempty | hcases
    · rw [hempty] at hstored
      cases hstored
    · rw [getElem?_projectRow, if_pos hname, (ht.rows rowId stored hstored).rowColumns]
      rcases hcases name hname with hbare | hcolumn
      · -- The column is found, and by a bare name only under this name.
        obtain ⟨column, hfound⟩ := exists_column_of_validateProjection h hname
        obtain ⟨hmem, heq⟩ := column_eq_ok hfound
        exact ⟨column, hmem, heq.trans (normalizeIdentifier_eq_self_iff.mpr hbare)⟩
      · exact hcolumn

/-! ## The tables of a run -/

omit [Platform] in
theorem SameData.filled {t t' : Table} (h : t.SameData t') (ht : t.Filled options) :
    t'.Filled options where
  columns_nodup := h.columns ▸ ht.columns_nodup
  rows rowId row hrow := by
    rw [h.columns]
    exact ht.rows rowId row (h.rows ▸ hrow)

/-- **The rows of a table keep its columns**, whatever is done to it. -/
theorem preserved_filled (options : TableRuntimeOptions) :
    Table.Preserved options fun t ↦ t.Coherent ∧ t.Filled options where
  new h := by
    have hnew : Table.WellFormed options _ := new_wellFormed h
    exact ⟨hnew.coherent, hnew.typed.columns_nodup, fun rowId row ↦ hnew.typed.rowTyped⟩
  insert columns values h := by
    obtain ⟨hcoherent, hfilled⟩ := h
    rcases hrow : Table.insertRow _ columns values options with error | row
    · rw [insertWithOptions_error hrow]
      exact ⟨hcoherent, hfilled⟩
    · obtain ⟨t', heq, hcoherent', hdata⟩ := insertWithOptions_ok hcoherent hrow
      rw [heq]
      refine ⟨hcoherent', hdata.filled ⟨hfilled.columns_nodup, fun rowId r hr ↦ ?_⟩⟩
      rw [Table.stored, BTree.getElem?_insert] at hr
      split at hr
      · exact Option.some.inj hr ▸ insertRow_rowTyped hfilled.columns_nodup hrow
      · exact hfilled.rows rowId r hr
  update assignments filter h := by
    obtain ⟨hcoherent, hfilled⟩ := h
    rcases updateWithOptions_cases hcoherent assignments filter options with
      ⟨error, -, heq⟩ |
      ⟨rowIds, normalized, t', hplan, hcoherent', ⟨-, hdata, heq⟩ | ⟨-, hdata, _, heq⟩⟩
    · rw [heq]
      exact ⟨hcoherent, hfilled⟩
    · rw [heq]
      refine ⟨hcoherent', hdata.filled ⟨hfilled.columns_nodup, fun rowId r hr ↦ ?_⟩⟩
      rw [Table.assigned, getElem?_assignRows] at hr
      split at hr
      · obtain ⟨r', hr', rfl⟩ := Option.map_eq_some_iff.mp hr
        exact assign_rowTyped hfilled.columns_nodup (updatePlan_eq_ok hplan).2
          (hfilled.rows rowId r' hr')
      · exact hfilled.rows rowId r hr
    · rw [heq]
      exact ⟨hcoherent', hdata.filled hfilled⟩
  delete filter h := by
    obtain ⟨hcoherent, hfilled⟩ := h
    rcases deleteWithOptions_cases hcoherent filter options with
      ⟨error, -, heq⟩ | ⟨rowIds, t', -, hcoherent', hdata, heq⟩
    · rw [heq]
      exact ⟨hcoherent, hfilled⟩
    · rw [heq]
      exact ⟨hcoherent', hdata.filled ⟨hfilled.columns_nodup, fun rowId r hr ↦
        hfilled.rows rowId r (getElem?_erased_eq_some hr)⟩⟩

theorem Filled.createAnyIndex {t : Table} (hcoherent : t.Coherent) (h : t.Filled options)
    (name column : String) (fulltext : Bool) :
    (t.createAnyIndex name column fulltext options).2.Filled options := by
  rw [Table.createAnyIndex]
  split
  · rcases createFulltextIndexWithOptions_cases hcoherent name column options with
      ⟨error, heq⟩ | ⟨_, t', -, -, -, -, -, hdata, heq⟩
    · rw [heq]
      exact h
    · rw [heq]
      exact hdata.filled ⟨h.columns_nodup, h.rows⟩
  · rcases createIndex_cases hcoherent name column with
      ⟨error, heq⟩ | ⟨_, t', -, -, -, -, hdata, heq⟩
    · rw [heq]
      exact h
    · rw [heq]
      exact hdata.filled ⟨h.columns_nodup, h.rows⟩

end Platform

end Table

section Platform

variable [Platform] {options : DatabaseOptions}

/-- **The rows of every table of a run have its columns.** -/
theorem Database.filled_of_reachable {db : Database} (h : (fresh options).Reachable db) :
    db.All fun t ↦ t.Filled (tableRuntimeOptions options) := by
  have hholds : db.Holds fun catalog ↦ catalog.All fun t ↦
      t.Coherent ∧ t.Filled (tableRuntimeOptions options) := by
    refine (holds_of_fresh (Catalog.all_empty _) ?_ h).2
    intro db action _ _ statement _ hall
    refine executeStatement_all (Table.preserved_filled _) ?_ hall
    cases statement with
    | createIndex name table column fulltext =>
      exact fun t _ ht ↦ ⟨ht.1.createAnyIndex name column fulltext _,
        ht.2.createAnyIndex ht.1 name column fulltext⟩
    | _ => trivial
  exact ⟨fun n t ht ↦ (hholds.1 n t ht).2, fun transaction htx n t ht ↦
    (hholds.2 transaction htx n t ht).2⟩

/-- **When identifiers are resolved to themselves.** -/
theorem resolution_iff :
    (∀ input : String, normalizeIdentifier (normalizeIdentifier input) = normalizeIdentifier input ↔
      Wrapped quoteLayer 4 input.toList) ∧
    ∀ db : Database, (Database.fresh options).Reachable db → ∀ (name : String) (t : Table),
      db.activeCatalog.tables[name]? = some t →
        (∀ column ∈ t.columns, t.column column.name = .ok column ↔ Bare column.name) ∧
        (t.ResolvesAll ↔ ∀ column ∈ t.columns, Bare column.name) ∧
        ∀ columns : List String, t.validateProjection (.columns columns) = .ok () →
          (t.Answers (tableRuntimeOptions options) columns ↔
            t.rows = ∅ ∨ ∀ listed ∈ columns,
              Bare listed ∨ ∃ column ∈ t.columns, column.name = listed) := by
  refine ⟨normalizeIdentifier_idempotent_iff, fun db hdb name t ht ↦ ?_⟩
  have hfilled := (Database.filled_of_reachable hdb).activeCatalog name t ht
  exact ⟨fun column ↦ Table.column_name_iff hfilled.columns_nodup,
    Table.resolvesAll_iff hfilled.columns_nodup, fun columns ↦ Table.answers_iff hfilled⟩

end Platform

/-- The columns of a table that is declared in order. -/
theorem resolution_wrapped : ∃ t, ((@Database.fresh Platform.ascii {}).after
    ⟨none, .empty, none, {}, ∅⟩ [("CREATE TABLE t (`\"a\"` INTEGER)", {})]
      ).activeCatalog.tables["t"]? = some t ∧
        (t.ResolvesAll ↔ ∀ column ∈ t.columns, Bare column.name) := by
  have hsome : (((@Database.fresh Platform.ascii {}).after ⟨none, .empty, none, {}, ∅⟩
      [("CREATE TABLE t (`\"a\"` INTEGER)", {})]).activeCatalog.tables["t"]?).isSome = true := by
    decide +kernel
  obtain ⟨t, ht⟩ := Option.isSome_iff_exists.mp hsome
  have hinit : (@Database.fresh Platform.ascii {}).Reachable ⟨none, .empty, none, {}, ∅⟩ :=
    .init ⟨by decide, none, rfl⟩
  have hreachable := Machine.reachableVia_after hinit
    (Machine.stepsSatisfy_true _ [("CREATE TABLE t (`\"a\"` INTEGER)", {})])
  exact ⟨t, ht, ((@resolution_iff Platform.ascii {}).2 _ hreachable "t" t ht).2.1⟩

/-- **A quote inside of another one**: the second time, normalizing takes off the backquotes that
are inside of single quotes.  So a column that is declared with both is not found under its name, an
`INSERT` without a column list fails, and a `SELECT` that lists a column in this way returns rows
without it. -/
theorem not_resolution :
    normalizeIdentifier (normalizeIdentifier "'`a`'") ≠ normalizeIdentifier "'`a`'" ∧
    (∃ t, (Database.afterTexts ["CREATE TABLE t ('`a`' INTEGER)"]).catalog.tables["t"]? = some t ∧
      (∃ column ∈ t.columns, t.column column.name ≠ .ok column) ∧ ¬t.ResolvesAll ∧
      @Table.insertRow Platform.ascii t none [.integer 1] (tableRuntimeOptions {}) =
        .error (execution "unknown column a")) ∧
    ∃ t, (Database.afterTexts ["CREATE TABLE t (a INTEGER)", "INSERT INTO t VALUES (1)"]
      ).catalog.tables["t"]? = some t ∧
        t.validateProjection (.columns [normalizeIdentifier "'`a`'"]) = .ok () ∧
        ¬@Table.Answers Platform.ascii t (tableRuntimeOptions {})
          [normalizeIdentifier "'`a`'"] := by
  refine ⟨by decide, ?_, ?_⟩
  · have hcheck : (Database.afterTexts ["CREATE TABLE t ('`a`' INTEGER)"]).catalog.tables["t"]?.any
        (fun t ↦ t.columns.map (·.name) = ["`a`"] ∧
          t.column "`a`" = .error (execution "unknown column a") ∧
          @Table.insertRow Platform.ascii t none [.integer 1] (tableRuntimeOptions {}) =
            .error (execution "unknown column a")) = true := by decide +kernel
    simp only [Option.any_eq_true, decide_eq_true_eq] at hcheck
    obtain ⟨t, ht, hnames, hcolumn, hinsert⟩ := hcheck
    obtain ⟨column, hcolumns, hname⟩ := List.map_eq_singleton_iff.mp hnames
    refine ⟨t, ht, ⟨column, hcolumns ▸ List.mem_singleton_self _, ?_⟩, ?_, hinsert⟩
    · rw [hname, hcolumn]
      exact fun h ↦ nomatch h
    · rw [Table.ResolvesAll, hnames, List.mapM_cons, hcolumn]
      exact fun h ↦ nomatch h
  · have hcheck : (Database.afterTexts ["CREATE TABLE t (a INTEGER)", "INSERT INTO t VALUES (1)"]
        ).catalog.tables["t"]?.any (fun t ↦
          t.validateProjection (.columns [normalizeIdentifier "'`a`'"]) = .ok () ∧
          @Table.selectWithOptions Platform.ascii t (.columns [normalizeIdentifier "'`a`'"]) none
            none none (tableRuntimeOptions {}) = .ok [∅]) = true := by decide +kernel
    simp only [Option.any_eq_true, decide_eq_true_eq] at hcheck
    obtain ⟨t, ht, hvalid, hselect⟩ := hcheck
    refine ⟨t, ht, hvalid, fun h ↦ ?_⟩
    obtain ⟨value, hvalue⟩ := h none none none _ hselect ∅ (List.mem_singleton_self _) _
      (List.mem_singleton_self _)
    cases hvalue

end Fsql
