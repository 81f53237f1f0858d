import Fsql.EngineInvariant

/-!
# Lookups through an index

An equality filter on the primary key, or on the column of a secondary index, is answered from a
map that is keyed by the text of the value, and otherwise by comparing values.  The two agree on
every value but one: `0.0` and `-0.0` are equal, and their texts differ.

`Database.lookup_of_reachable` says so for every table of every state of a database: the lookup is
the scan exactly when no stored value differs from the literal in the sign of a zero only, and then
no statement tells whether an index exists.
-/

set_option autoImplicit false

namespace Fsql

open Table

section Platform

variable [Platform]

/-- **Two tables answer the statements with a filter alike**: with the same rows, the same errors
and the same rows left. -/
structure Table.SameAnswers (options : TableRuntimeOptions) (filter : Option Filter)
    (t t' : Table) : Prop where
  select (projection : Projection) (order : Option Order) (limit : Option Nat) :
    t'.selectWithOptions projection filter order limit options =
      t.selectWithOptions projection filter order limit options
  update (assignments : List (String × Value)) :
    (t'.updateWithOptions assignments filter options).1 =
        (t.updateWithOptions assignments filter options).1 ∧
      (t'.updateWithOptions assignments filter options).2.rows =
        (t.updateWithOptions assignments filter options).2.rows
  delete :
    (t'.deleteWithOptions filter options).1 = (t.deleteWithOptions filter options).1 ∧
      (t'.deleteWithOptions filter options).2.rows = (t.deleteWithOptions filter options).2.rows

/-- Creating an index keeps the rows. -/
theorem Table.Coherent.sameRows_createAnyIndex {t : Table} (h : t.Coherent) (name column : String)
    (fulltext : Bool) (options : TableRuntimeOptions) :
    t.SameRows (t.createAnyIndex name column fulltext options).2 := by
  rw [Table.createAnyIndex]
  split
  · rcases createFulltextIndexWithOptions_cases h name column options with
      ⟨error, heq⟩ | ⟨_, t', -, -, -, -, -, hdata, heq⟩
    · rw [heq]
      exact ⟨rfl, rfl, rfl, rfl⟩
    · rw [heq]
      exact ⟨hdata.columns, hdata.rows, hdata.nextRowId, hdata.primaryKey⟩
  · rcases createIndex_cases h name column with
      ⟨error, heq⟩ | ⟨_, t', -, -, -, -, hdata, heq⟩
    · rw [heq]
      exact ⟨rfl, rfl, rfl, rfl⟩
    · rw [heq]
      exact ⟨hdata.columns, hdata.rows, hdata.nextRowId, hdata.primaryKey⟩

/-- **Where no zero gets in the way, the indexes of a table do not matter.** -/
theorem Table.sameAnswers_of_sameRows {t t' : Table} (h : t.SameRows t') (hc : t.Coherent)
    (hc' : t'.Coherent) {options : TableRuntimeOptions} {column columnName : String}
    {value literal : Value}
    (hnormal : t.normalizeFilter (some (.equals column value)) options =
      .ok (some (.equals columnName literal)))
    (hzeros : t.ZerosAgree columnName literal) :
    t.SameAnswers options (some (.equals column value)) t' where
  select := selectWithOptions_congr h hc hc' hnormal hzeros
  update := updateWithOptions_congr h hc hc' hnormal hzeros
  delete := deleteWithOptions_congr h hc hc' hnormal hzeros

namespace Database

omit [Platform] in
/-- A table of the committed or of the working catalog. -/
def HasTable (db : Database) (t : Table) : Prop :=
  ∃ name : String, db.catalog.tables[name]? = some t ∨
    ∃ transaction, db.transaction = some transaction ∧ transaction.tables[name]? = some t

omit [Platform] in
theorem All.of_hasTable {P : Table → Prop} {db : Database} (h : db.All P) {t : Table}
    (ht : db.HasTable t) : P t := by
  obtain ⟨name, ht | ⟨transaction, htx, ht⟩⟩ := ht
  · exact h.1 name t ht
  · exact h.2 transaction htx name t ht

/-- **A lookup through an index is a scan** exactly when no stored value differs from the literal
in the sign of a zero only; and then the indexes of the table do not matter. -/
theorem lookup_of_reachable {options : DatabaseOptions} {db : Database}
    (h : (machine options).Reachable db) {t : Table} (ht : db.HasTable t)
    {column columnName : String} {value literal : Value}
    (hnormal : t.normalizeFilter (some (.equals column value)) (tableRuntimeOptions options) =
      .ok (some (.equals columnName literal)))
    (hindexed : t.primaryKey = some columnName ∨ (indexOn t.indexes columnName).isSome = true) :
    ∃ rowIds path, t.matchingRowIds (some (.equals columnName literal))
          (tableRuntimeOptions options) = .ok (rowIds, path) ∧ path ≠ .tableScan ∧
      rowIds.Pairwise (compare · · = .lt) ∧
      (rowIds = t.scan (equalsMatches columnName literal) ↔ t.ZerosAgree columnName literal) ∧
      (t.ZerosAgree columnName literal →
        (∀ t' : Table, t'.Coherent → t.SameRows t' →
          t.SameAnswers (tableRuntimeOptions options) (some (.equals column value)) t') ∧
        ∀ (name indexed : String) (fulltext : Bool),
          t.SameAnswers (tableRuntimeOptions options) (some (.equals column value))
            (t.createAnyIndex name indexed fulltext (tableRuntimeOptions options)).2) := by
  have hc : t.Coherent := (coherent_of_reachable h).of_hasTable ht
  have hfinite := isFinite_of_normalizeFilter hnormal
  obtain ⟨rowIds, path, hmatch, -, hpath⟩ :=
    @matchingRowIds_equals _ t columnName literal (tableRuntimeOptions options) hfinite
  refine ⟨rowIds, path, hmatch, hpath hindexed, (lookup_spec hc hmatch (hpath hindexed)).1,
    lookup_eq_scan_iff hc hfinite hmatch (hpath hindexed), fun hzeros ↦ ⟨?_, ?_⟩⟩
  · intro t' hc' hsame
    exact sameAnswers_of_sameRows hsame hc hc' hnormal hzeros
  · intro name indexed fulltext
    exact sameAnswers_of_sameRows (hc.sameRows_createAnyIndex name indexed fulltext _) hc
      (hc.createAnyIndex name indexed fulltext _) hnormal hzeros

end Database

end Platform

namespace Database

/-- A table with an indexed column of floating-point numbers and one row. -/
abbrev floats (literal : String) : Database :=
  afterTexts ["CREATE TABLE t (x FLOAT)", "CREATE INDEX i ON t (x)",
    "INSERT INTO t VALUES (" ++ literal ++ ")"]

theorem reachable_floats (literal : String) :
    (@machine Platform.ascii {}).Reachable (floats literal) :=
  reachableVia_afterTexts _ (Machine.stepsSatisfy_true _ _)

/-- The filter `x = 1.5` on a table with the row `1.5`. -/
theorem lookup_floats : ∃ t, (floats "1.5").HasTable t ∧ ∃ rowIds path,
    @matchingRowIds Platform.ascii t (some (.equals "x" (.float ⟨0x3ff8000000000000⟩)))
        (tableRuntimeOptions {}) = .ok (rowIds, path) ∧ path ≠ .tableScan ∧
      (rowIds = t.scan (equalsMatches "x" (.float ⟨0x3ff8000000000000⟩)) ↔
        t.ZerosAgree "x" (.float ⟨0x3ff8000000000000⟩)) := by
  have hcheck : (floats "1.5").catalog.tables["t"]?.any (fun t ↦
      @normalizeFilter Platform.ascii t (some (.equals "x" (.float ⟨0x3ff8000000000000⟩)))
          (tableRuntimeOptions {}) = .ok (some (.equals "x" (.float ⟨0x3ff8000000000000⟩))) ∧
        (indexOn t.indexes "x").isSome = true) = true := by decide +kernel
  simp only [Option.any_eq_true, decide_eq_true_eq] at hcheck
  obtain ⟨t, ht, hnormal, hindexed⟩ := hcheck
  have htable : (floats "1.5").HasTable t := ⟨"t", .inl ht⟩
  obtain ⟨rowIds, path, hmatch, hpath, -, hscan, -⟩ := @lookup_of_reachable Platform.ascii {} _
    (reachable_floats "1.5") t htable _ _ _ _ hnormal (.inr hindexed)
  exact ⟨t, htable, rowIds, path, hmatch, hpath, hscan⟩

/-- **A lookup through an index can miss a row**: with a stored `-0.0`, the filter `x = 0.0`. -/
theorem not_lookup_of_reachable : ¬∀ [Platform] (options : DatabaseOptions) (db : Database)
    (t : Table) (column columnName : String) (value literal : Value) (rowIds : List RowId)
    (path : AccessPath), (machine options).Reachable db → db.HasTable t →
      t.normalizeFilter (some (.equals column value)) (tableRuntimeOptions options) =
        .ok (some (.equals columnName literal)) →
      t.matchingRowIds (some (.equals columnName literal)) (tableRuntimeOptions options) =
        .ok (rowIds, path) → path ≠ .tableScan →
      rowIds = t.scan (equalsMatches columnName literal) := by
  intro h
  have hcheck : (floats "-0.0").catalog.tables["t"]?.any (fun t ↦
      @normalizeFilter Platform.ascii t (some (.equals "x" (.float ⟨0⟩)))
          (tableRuntimeOptions {}) = .ok (some (.equals "x" (.float ⟨0⟩))) ∧
        @matchingRowIds Platform.ascii t (some (.equals "x" (.float ⟨0⟩)))
          (tableRuntimeOptions {}) = .ok ([], .secondaryIndex "i") ∧
        t.scan (equalsMatches "x" (.float ⟨0⟩)) = [1]) = true := by decide +kernel
  simp only [Option.any_eq_true, decide_eq_true_eq] at hcheck
  obtain ⟨t, ht, hnormal, hmatch, hscan⟩ := hcheck
  have hempty := @h Platform.ascii {} _ t _ _ _ _ _ _ (reachable_floats "-0.0") ⟨"t", .inl ht⟩
    hnormal hmatch (by simp)
  rw [hscan] at hempty
  cases hempty

end Database

end Fsql
