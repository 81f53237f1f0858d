import Fsql.IndexLookup
import Fsql.Storage.Fulltext

/-!
# `MATCH` through an index

The full-text indexes of a database are those of the tokenizer it was opened with, in every state of
a run that meets one condition: `CREATE INDEX`, which rebuilds the full-text indexes of its table
with the simple tokenizer, is executed only where the simple tokenizer and the configured one find
the same tokens in the stored texts (`Database.KeepsTokens`).  Then `MATCH` finds through an index
what it finds without one (`Database.match_of_reachableVia`).
-/

set_option autoImplicit false

namespace Fsql

open Table

section Platform

variable [Platform]

/-- A coherent table whose full-text indexes are those of a tokenizer. -/
structure Table.FulltextCoherent (tokenizer : FullTextTokenizer) (t : Table) : Prop where
  /-- The other derived maps are those of the rows. -/
  coherent : t.Coherent
  /-- The full-text indexes are, too. -/
  exact : t.FulltextExact tokenizer

/-- Every operation but the creation of an index keeps the full-text indexes right. -/
theorem Table.preserved_fulltextCoherent (options : TableRuntimeOptions) :
    Table.Preserved options (FulltextCoherent options.fulltextTokenizer) where
  new h := ⟨(coherent_new h).1, fulltextExact_new h⟩
  insert columns values h := ⟨(preserved_coherent options).insert columns values h.coherent,
    fulltextExact_insert h.coherent h.exact columns values⟩
  update assignments filter h := ⟨(preserved_coherent options).update assignments filter h.coherent,
    fulltextExact_update h.coherent h.exact assignments filter⟩
  delete filter h := ⟨(preserved_coherent options).delete filter h.coherent,
    fulltextExact_delete h.coherent h.exact filter⟩

namespace Database

/-- **A secondary index that gets created is created where the simple tokenizer does**: on a table
in whose texts it finds the tokens that the configured one finds. -/
def KeepsTokens (db : Database) : Statement → Prop
  | .createIndex name table column false =>
    ∀ t ∈ db.activeCatalog.tables[table]?, (t.column column).toOption.isSome →
      name ∉ t.indexes → name ∉ t.fulltextIndexes →
        ∀ entry ∈ t.fulltextIndexes.toList,
          TokensAgree .simple db.options.fulltextTokenizer t.rows entry.2.column
  | _ => True

/-- The same of the statement a call comes to execute. -/
def CallKeepsTokens (db : Database) (action : String × Outcome) : Prop :=
  ∀ statement ∈ (db.parseStatement action.1).1.toOption,
    db.logBefore statement action.2.log = .ok () → db.KeepsTokens statement

instance decidableKeepsTokens (db : Database) : ∀ statement, Decidable (db.KeepsTokens statement)
  | .createIndex name table column false =>
    inferInstanceAs (Decidable (∀ t ∈ db.activeCatalog.tables[table]?,
      (t.column column).toOption.isSome → name ∉ t.indexes → name ∉ t.fulltextIndexes →
        ∀ entry ∈ t.fulltextIndexes.toList,
          TokensAgree .simple db.options.fulltextTokenizer t.rows entry.2.column))
  | .createIndex _ _ _ true | .createTable .. | .insert .. | .select .. | .update .. | .delete ..
  | .explain _ | .begin | .commit | .rollback | .parsedOnly .. => isTrue trivial

instance decidableCallKeepsTokens (db : Database) (action : String × Outcome) :
    Decidable (db.CallKeepsTokens action) :=
  inferInstanceAs (Decidable (∀ statement ∈ (db.parseStatement action.1).1.toOption,
    db.logBefore statement action.2.log = .ok () → db.KeepsTokens statement))

theorem KeepsTokens.indexPreserves {db : Database} {statement : Statement}
    (h : db.KeepsTokens statement) :
    IndexPreserves (tableRuntimeOptions db.options)
      (FulltextCoherent db.options.fulltextTokenizer) db.activeCatalog statement := by
  cases statement with
  | createIndex name table column fulltext =>
    intro t ht hexact
    refine ⟨hexact.coherent.createAnyIndex name column fulltext _, ?_⟩
    rw [createAnyIndex]
    cases fulltext with
    | true => exact fulltextExact_createFulltextIndex hexact.coherent hexact.exact name column
    | false =>
      rw [if_neg (by decide)]
      rcases createIndex_cases hexact.coherent name column with
        ⟨error, heq⟩ | ⟨c, t', hcolumn, hname, hfulltext, -, -, heq⟩
      · rw [heq]
        exact hexact.exact
      · have hok : (t.createIndex name column).1 = .ok () := by rw [heq]
        refine (createIndex_fulltextExact_iff hexact.coherent hok).mpr fun n index hindex ↦ ?_
        exact h t ht (by rw [hcolumn]; rfl) hname hfulltext (n, index)
          ((DerivedIndex.mem_toList_iff t.fulltextIndexes n index).mpr hindex)
  | _ => trivial

/-! ## Runs -/

variable {options : DatabaseOptions}

/-- **`MATCH` finds through an index what it finds without one**: the rows whose text has every
token of the query, and none when the query has no token. -/
theorem match_of_reachableVia {db : Database}
    (h : (fresh options).ReachableVia CallKeepsTokens db) {t : Table} (ht : db.HasTable t)
    (column query : String) :
    (t.matchFulltext column query (tableRuntimeOptions options)).1 =
        (t.withoutFulltext.matchFulltext column query (tableRuntimeOptions options)).1 ∧
      (∀ rowId, rowId ∈ (t.matchFulltext column query (tableRuntimeOptions options)).1 ↔
        ∃ row, t.rows[rowId]? = some row ∧
          HasTokens options.fulltextTokenizer column query row) ∧
      ∀ (projection : Projection) (order : Option Order) (limit : Option Nat),
        t.selectWithOptions projection (some (.fullText column query)) order limit
            (tableRuntimeOptions options) =
          t.withoutFulltext.selectWithOptions projection (some (.fullText column query)) order limit
            (tableRuntimeOptions options) := by
  have hall : db.All (FulltextCoherent options.fulltextTokenizer) := by
    refine (holds_of_fresh (Catalog.all_empty _) ?_ h).2
    intro db action hkeeps hoptions statement ⟨hparse, hlog⟩
    have hpreserves := (hkeeps statement (by rw [hparse]; rfl) hlog).indexPreserves
    rw [hoptions] at hpreserves
    exact executeStatement_all (preserved_fulltextCoherent (tableRuntimeOptions options)) hpreserves
  have hexact := (hall.of_hasTable ht).exact
  have heq : (t.matchFulltext column query (tableRuntimeOptions options)).1 =
      (t.withoutFulltext.matchFulltext column query (tableRuntimeOptions options)).1 :=
    matchFulltext_eq hexact column query
  refine ⟨heq, fun rowId ↦ ?_, fun projection order limit ↦
    selectWithOptions_fulltext hexact projection column query order limit⟩
  rw [heq]
  exact mem_matchFulltext_scan (t.indexOn_withoutFulltext column) rowId

end Database

end Platform

namespace Database

/-- The options with the tokenizer that splits at blanks only. -/
abbrev whitespaceOptions : DatabaseOptions := { fulltextTokenizer := .whitespace }

/-- A table with a full-text index and one text, on which then a secondary index is created. -/
def indexedText (text : String) : Database :=
  ((@fresh Platform.ascii whitespaceOptions).runFrom ⟨none, .empty, none, whitespaceOptions, ∅⟩
    (["CREATE TABLE t (a TEXT)", "INSERT INTO t VALUES ('" ++ text ++ "')",
      "CREATE FULLTEXT INDEX f ON t (a)", "CREATE INDEX i ON t (a)"].map (·, {}))).getD
    ⟨none, .empty, none, whitespaceOptions, ∅⟩

theorem reachableVia_indexedText {C : Database → String × Outcome → Prop} (text : String)
    (hC : (@fresh Platform.ascii whitespaceOptions).StepsSatisfy C
      ⟨none, .empty, none, whitespaceOptions, ∅⟩
      (["CREATE TABLE t (a TEXT)", "INSERT INTO t VALUES ('" ++ text ++ "')",
        "CREATE FULLTEXT INDEX f ON t (a)", "CREATE INDEX i ON t (a)"].map (·, {}))) :
    (@fresh Platform.ascii whitespaceOptions).ReachableVia C (indexedText text) := by
  have hinit : (@fresh Platform.ascii whitespaceOptions).ReachableVia C
      ⟨none, .empty, none, whitespaceOptions, ∅⟩ := .init ⟨by decide, none, rfl⟩
  rw [indexedText]
  cases hrun : (@fresh Platform.ascii whitespaceOptions).runFrom
      ⟨none, .empty, none, whitespaceOptions, ∅⟩ _ with
  | none => exact hinit
  | some db => exact Machine.reachableVia_of_runFrom hinit hC hrun

/-- Both tokenizers find the tokens of `x y`. -/
theorem match_indexedText : ∃ t, (indexedText "x y").HasTable t ∧
    (@matchFulltext Platform.ascii t "a" "y" (tableRuntimeOptions whitespaceOptions)).1 =
      (@matchFulltext Platform.ascii t.withoutFulltext "a" "y"
        (tableRuntimeOptions whitespaceOptions)).1 := by
  have hsome : ((indexedText "x y").catalog.tables["t"]?).isSome = true := by decide +kernel
  obtain ⟨t, ht⟩ := Option.isSome_iff_exists.mp hsome
  have htable : (indexedText "x y").HasTable t := ⟨"t", .inl ht⟩
  exact ⟨t, htable, (@match_of_reachableVia Platform.ascii whitespaceOptions _
    (reachableVia_indexedText _ (by decide +kernel)) t htable "a" "y").1⟩

/-- **Creating a secondary index changes what `MATCH` finds**: the token `x-y` is gone. -/
theorem not_match_of_reachable : ¬∀ [Platform] (options : DatabaseOptions) (db : Database)
    (t : Table) (column query : String), (fresh options).Reachable db → db.HasTable t →
      (t.matchFulltext column query (tableRuntimeOptions options)).1 =
        (t.withoutFulltext.matchFulltext column query (tableRuntimeOptions options)).1 := by
  intro h
  have hcheck : (indexedText "x-y").catalog.tables["t"]?.any (fun t ↦
      (@matchFulltext Platform.ascii t "a" "x-y" (tableRuntimeOptions whitespaceOptions)) =
          ([], .fullTextIndex "f") ∧
        (@matchFulltext Platform.ascii t.withoutFulltext "a" "x-y"
          (tableRuntimeOptions whitespaceOptions)).1 = [1]) = true := by decide +kernel
  simp only [Option.any_eq_true, decide_eq_true_eq] at hcheck
  obtain ⟨t, ht, hindex, hscan⟩ := hcheck
  have heq := @h Platform.ascii whitespaceOptions _ t "a" "x-y"
    (reachableVia_indexedText _ (Machine.stepsSatisfy_true _ _)) ⟨"t", .inl ht⟩
  rw [hindex, hscan] at heq
  cases heq

end Database

end Fsql
