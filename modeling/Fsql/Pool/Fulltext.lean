import Fsql.FulltextLookup
import Fsql.Pool.History

/-!
# Full-text indexes after a merge

A merge rebuilds every table of the working catalog with default options, and so with the simple
tokenizer.  `ConnectionPool.fulltextRebuilt_iff_of_commit` says when a `COMMIT` leaves full-text
indexes that are those of the tokenizer the pool is configured with.
-/

set_option autoImplicit false

namespace Fsql

open Table

section Platform

variable [Platform] {lockedRows : List String}

/-- A merged table has the full-text indexes of the simple tokenizer. -/
theorem mergeTable_fulltextExact {tableName : String} {target staged merged : Table}
    (h : mergeTable tableName target staged lockedRows = .ok merged) :
    merged.FulltextExact .simple := by
  obtain ⟨rows, -, h⟩ := bind_eq_ok h
  generalize { target with
    rows := appendRows staged
      (List.range' target.nextRowId (staged.nextRowId - target.nextRowId)) rows
    nextRowId := max target.nextRowId staged.nextRowId } = joined at h
  dsimp only at h
  rcases hok : (joined.rebuildIndexesWithOptions {}).1 with error | _
  · rw [hok] at h
    cases h
  · rw [hok] at h
    obtain rfl := Except.ok.inj h
    exact fulltextExact_rebuild hok

theorem mergeTables_fulltextExact {l : List (String × Table)} (hnodup : (l.map Prod.fst).Nodup)
    {base merged : Catalog} (h : mergeTables lockedRows l base = .ok merged)
    (hbase : ∀ p ∈ l, ∃ target, base.tables[p.1]? = some target) :
    (∀ name ∉ l.map Prod.fst, merged.tables[name]? = base.tables[name]?) ∧
      ∀ p ∈ l, ∃ m, merged.tables[p.1]? = some m ∧ m.FulltextExact .simple := by
  induction l generalizing base with
  | nil =>
    obtain rfl := Except.ok.inj h
    exact ⟨fun _ _ ↦ rfl, by simp⟩
  | cons p l ih =>
    obtain ⟨name, t⟩ := p
    rw [List.map_cons, List.nodup_cons] at hnodup
    rw [List.forall_mem_cons] at hbase
    obtain ⟨⟨target, htarget⟩, hbase⟩ := hbase
    rw [mergeTables, htarget] at h
    dsimp only at h
    rcases hm : mergeTable name target t lockedRows with error | m <;> rw [hm] at h
    · cases h
    · obtain ⟨hkept, hall⟩ := ih hnodup.2 h fun p hp ↦ by
        rw [BTree.getElem?_insert]
        split
        · exact ⟨m, rfl⟩
        · exact hbase p hp
      refine ⟨fun n hn ↦ ?_, List.forall_mem_cons.mpr ⟨⟨m, ?_, mergeTable_fulltextExact hm⟩, hall⟩⟩
      · rw [List.map_cons, List.mem_cons, not_or] at hn
        rw [hkept n hn.2, BTree.getElem?_insert, if_neg (Ne.symm hn.1)]
      · rw [hkept name hnodup.1, BTree.getElem?_insert, if_pos rfl]

/-- **The tables of a merge** have the full-text indexes of the simple tokenizer. -/
theorem mergeCatalogs_fulltextExact {base staged merged : Catalog} {lockedRows : BTreeSet String}
    (h : MergeInput base staged lockedRows)
    (hok : mergeCatalogs base staged lockedRows = .ok merged) {name : String} {t m : Table}
    (ht : staged.tables[name]? = some t) (hm : merged.tables[name]? = some m) :
    m.FulltextExact .simple := by
  obtain ⟨-, hall⟩ := mergeTables_fulltextExact (BTree.nodup_keys_toList staged.tables) hok
    fun p hp ↦ by
      obtain ⟨target, htarget, -⟩ :=
        h.below p.1 p.2 ((DerivedIndex.mem_toList_iff staged.tables p.1 p.2).mp hp)
      exact ⟨target, htarget⟩
  obtain ⟨m', hm', hexact⟩ :=
    hall (name, t) ((DerivedIndex.mem_toList_iff staged.tables name t).mpr ht)
  obtain rfl := Option.some.inj (hm.symm.trans hm')
  exact hexact

namespace ConnectionPool

variable {pool pool' : ConnectionPool}

/-- **The merge keeps the tokens**: in the texts of a merged table, the simple tokenizer finds the
tokens that the configured one finds; and the full-text indexes of the tables that are not merged
are right. -/
def MergeKeepsTokens (pool : ConnectionPool) (state : TransactionState) : Prop :=
  ∀ p ∈ pool.committed.tables.toList,
    match state.catalog.tables[p.1]? with
    | some staged => ∀ entry ∈ p.2.fulltextIndexes.toList,
        TokensAgree .simple pool.options.fulltextTokenizer
          (mergedRows p.1 p.2 staged state.lockedRows) entry.2.column
    | none => p.2.FulltextRebuilt pool.options

/-- **A `COMMIT` leaves full-text indexes that a rebuild would not change** exactly when the merge
keeps the tokens; and where a rebuild would not change them, `MATCH` finds through an index what it
finds without one. -/
theorem fulltextRebuilt_iff_of_commit (h : machine.Reachable pool) {c : Nat}
    {persist : Option Error} {state : TransactionState}
    (hcommit : pool.Commits c state persist pool') :
    ((∀ (name : String) (t : Table), pool'.committed.tables[name]? = some t →
        t.FulltextRebuilt pool.options) ↔ pool.MergeKeepsTokens state) ∧
      ∀ (name : String) (t : Table), pool'.committed.tables[name]? = some t →
        t.FulltextRebuilt pool.options → ∀ column query : String,
          (t.matchFulltext column query pool.options).1 =
            (t.withoutFulltext.matchFulltext column query pool.options).1 := by
  have hinv := inv_of_reachableVia h
  have hinput := (hinv.states c state hcommit.transaction).mergeInput hinv.shared
  have hmerged := mergeCatalogs_of_commit hcommit
  obtain ⟨hcoherent, hkept, hnew⟩ := mergeCatalogs_spec hinput hmerged
  constructor
  · constructor
    · intro hrebuilt p hp
      have htarget := (DerivedIndex.mem_toList_iff pool.committed.tables p.1 p.2).mp hp
      rcases hstaged : state.catalog.tables[p.1]? with _ | staged
      · exact hrebuilt p.1 p.2 ((hkept p.1 hstaged).trans htarget)
      · obtain ⟨target, m, htarget', hm, hfrom⟩ := hnew p.1 staged hstaged
        obtain rfl := Option.some.inj (htarget.symm.trans htarget')
        have hexact := (fulltextRebuilt_iff (hcoherent p.1 m hm)).mp (hrebuilt p.1 m hm)
        rw [(mergeCatalogs_fulltextExact hinput hmerged hstaged hm).iff_tokensAgree,
          hfrom.tokensAgree_iff] at hexact
        exact fun entry hentry ↦ hexact entry.1 entry.2
          ((DerivedIndex.mem_toList_iff p.2.fulltextIndexes entry.1 entry.2).mp hentry)
    · intro hkeeps name t ht
      rcases hstaged : state.catalog.tables[name]? with _ | staged
      · have htarget := (hkept name hstaged).symm.trans ht
        have := hkeeps (name, t)
          ((DerivedIndex.mem_toList_iff pool.committed.tables name t).mpr htarget)
        rw [hstaged] at this
        exact this
      · obtain ⟨target, m, htarget, hm, hfrom⟩ := hnew name staged hstaged
        obtain rfl := Option.some.inj (hm.symm.trans ht)
        have hagree := hkeeps (name, target)
          ((DerivedIndex.mem_toList_iff pool.committed.tables name target).mpr htarget)
        rw [hstaged] at hagree
        rw [fulltextRebuilt_iff (hcoherent name m hm),
          (mergeCatalogs_fulltextExact hinput hmerged hstaged hm).iff_tokensAgree,
          hfrom.tokensAgree_iff]
        exact fun n index hindex ↦ hagree (n, index)
          ((DerivedIndex.mem_toList_iff target.fulltextIndexes n index).mpr hindex)
  · intro name t ht hrebuilt column query
    exact matchFulltext_eq ((fulltextRebuilt_iff (hcoherent name t ht)).mp hrebuilt) column query

end ConnectionPool

end Platform

namespace ConnectionPool

/-- A pool whose tokenizer splits at blanks only. -/
def whitespaceMemory : ConnectionPool :=
  ⟨⟨⟨none, .empty, none, Database.whitespaceOptions, ∅⟩, ∅⟩, 1, 1, 1, ∅⟩

/-- A text is inserted in a transaction into a table with a full-text index. -/
def insertText (text : String) : List PoolAction :=
  .get 0 :: long 0 "CREATE TABLE t (a TEXT)" ++ long 0 "CREATE FULLTEXT INDEX f ON t (a)"
    ++ short 0 "BEGIN" ++ long 0 ("INSERT INTO t VALUES ('" ++ text ++ "')")
    ++ [.call 0 "COMMIT" {}]

/-- The pool before the transaction commits. -/
def insertedText (text : String) : ConnectionPool :=
  (@machine Platform.ascii).after whitespaceMemory (insertText text)

theorem reachable_insertedText (text : String) :
    (@machine Platform.ascii).Reachable (insertedText text) :=
  Machine.reachableVia_after (.init ⟨whitespaceMemory.shared.database, 1, Catalog.all_empty _, rfl,
    rfl⟩) (Machine.stepsSatisfy_true _ _)

/-- Both tokenizers find the tokens of `x y`. -/
theorem fulltextRebuilt_insertedText : ∃ (state : TransactionState) (pool' : ConnectionPool),
    (∀ (name : String) (t : Table), pool'.committed.tables[name]? = some t →
      @FulltextRebuilt Platform.ascii (insertedText "x y").options t) ↔
    @MergeKeepsTokens Platform.ascii (insertedText "x y") state := by
  have hcommits : commitsWith (insertedText "x y") 0 (fun _ _ ↦ true) = true := by decide +kernel
  obtain ⟨state, pool', hcommit, -⟩ := exists_of_commitsWith hcommits
  exact ⟨state, pool', (@fulltextRebuilt_iff_of_commit Platform.ascii _ _
    (reachable_insertedText "x y") 0 none state hcommit).1⟩

/-- **A `COMMIT` can leave a full-text index that a rebuild would change**: the token `x-y` is
missing. -/
theorem not_fulltextRebuilt_of_commit : ¬∀ [Platform] (pool pool' : ConnectionPool) (c : Nat)
    (persist : Option Error) (state : TransactionState), machine.Reachable pool →
      pool.Commits c state persist pool' → ∀ (name : String) (t : Table),
        pool'.committed.tables[name]? = some t → t.FulltextRebuilt pool.options := by
  intro h
  have hcommits : commitsWith (insertedText "x-y") 0 (fun _ pool' ↦
      pool'.committed.tables["t"]?.any fun t ↦
        (@rebuildIndexesWithOptions Platform.ascii t (insertedText "x-y").options).2.fulltextIndexes
          ≠ t.fulltextIndexes) = true := by decide +kernel
  obtain ⟨state, pool', hcommit, htest⟩ := exists_of_commitsWith hcommits
  rw [Option.any_eq_true] at htest
  obtain ⟨t, ht, hne⟩ := htest
  rw [decide_eq_true_eq] at hne
  exact hne (@h Platform.ascii _ _ 0 none state (reachable_insertedText "x-y") hcommit "t" t ht).2

end ConnectionPool

end Fsql
