import Fsql.Engine

/-!
# The statement cache

`parse_with_cache` keeps parsed statements by their stripped text, although the parser is given the
text as it is.  That is the same: parsing depends on the stripped text alone
(`parseSqlWithDialect_eq`), so a cached statement is the one the text parses to, whatever else the
cache holds (`parseWithCache_eq`), and a sequence of calls returns what the parser returns
(`ParsedStatementCache.transparent`).
-/

set_option autoImplicit false

namespace Fsql

open Text

/-! ## Parsing depends on the stripped text -/

/-- **Parsing depends on the stripped text alone**, once there is fuel for all of the text. -/
theorem parseSqlFuel_eq {fuel fuel' : Nat} {l l' : List Char} (h : l.length < fuel)
    (h' : l'.length < fuel') (hstrip : stripStatement l = stripStatement l')
    (dialect : SqlDialect) : parseSqlFuel fuel l dialect = parseSqlFuel fuel' l' dialect := by
  induction fuel generalizing fuel' l l' with
  | zero => exact absurd h (Nat.not_lt_zero _)
  | succ fuel ih =>
    rcases fuel' with _ | fuel'
    · exact absurd h' (Nat.not_lt_zero _)
    · have hlength := length_stripStatement_le l
      have hlength' := length_stripStatement_le l'
      rw [parseSqlFuel, parseSqlFuel]
      rw [← hstrip] at hlength' ⊢
      split
      · rfl
      · split
        · rename_i hexplain
          have hshorter := length_explained_lt hexplain
          split
          · rfl
          · rw [@ih fuel' (explained (stripStatement l)) (explained (stripStatement l)) (by omega)
              (by omega) rfl]
        · rfl

theorem parseSqlWithDialect_eq {sql sql' : String}
    (h : stripStatement sql.toList = stripStatement sql'.toList) (dialect : SqlDialect) :
    parseSqlWithDialect sql dialect = parseSqlWithDialect sql' dialect := by
  rw [parseSqlWithDialect, parseSqlWithDialect]
  exact parseSqlFuel_eq (by rw [String.length_toList]; omega) (by rw [String.length_toList]; omega)
    h dialect

/-! ## The cache -/

/-- **A cached statement is the one its text parses to.** -/
def CacheOk (dialect : SqlDialect) (cache : BTreeMap String Statement) : Prop :=
  ∀ (key : String) (statement : Statement), cache[key]? = some statement →
    ∀ sql : String, String.ofList (stripStatement sql.toList) = key →
      parseSqlWithDialect sql dialect = .ok statement

theorem cacheOk_empty (dialect : SqlDialect) : CacheOk dialect ∅ := by
  intro key statement h
  simp at h

/-- A statement less. -/
theorem CacheOk.erase {cache : BTreeMap String Statement} {dialect : SqlDialect}
    (h : CacheOk dialect cache) (key : String) : CacheOk dialect (cache.erase key) := by
  intro key' statement hkey
  rw [BTree.getElem?_erase] at hkey
  split at hkey
  · cases hkey
  · exact h key' statement hkey

/-- A statement more. -/
theorem CacheOk.insert {cache : BTreeMap String Statement} {dialect : SqlDialect}
    (h : CacheOk dialect cache) {sql : String} {statement : Statement}
    (hparse : parseSqlWithDialect sql dialect = .ok statement) :
    CacheOk dialect (cache.insert (String.ofList (stripStatement sql.toList)) statement) := by
  intro key statement' hkey sql' hsql'
  rw [BTree.getElem?_insert] at hkey
  split at hkey
  · rename_i heq
    obtain rfl := Option.some.inj hkey
    rw [← hparse]
    exact parseSqlWithDialect_eq (String.ofList_injective (hsql'.trans heq.symm)) dialect
  · exact h key statement' hkey sql' hsql'

/-- **The cache makes no difference**, and stays as it should be. -/
theorem parseWithCache_eq {cache : BTreeMap String Statement} {dialect : SqlDialect}
    (h : CacheOk dialect cache) (capacity : Nat) (sql : String) :
    (parseWithCache cache capacity sql dialect).1 = parseSqlWithDialect sql dialect ∧
      CacheOk dialect (parseWithCache cache capacity sql dialect).2 := by
  rcases hparse : parseSqlWithDialect sql dialect with fault | statement
  · rw [parseWithCache, hparse]
    split
    · exact ⟨rfl, h⟩
    · dsimp only
      split
      · rename_i statement hcached
        rw [h _ statement hcached sql rfl] at hparse
        cases hparse
      · exact ⟨rfl, h⟩
  · rw [parseWithCache, hparse]
    split
    · exact ⟨rfl, h⟩
    · dsimp only
      split
      · rename_i statement' hcached
        rw [h _ statement' hcached sql rfl] at hparse
        exact ⟨hparse, h⟩
      · refine ⟨rfl, CacheOk.insert ?_ hparse⟩
        split
        · split
          · exact h.erase _
          · exact h
        · exact h

/-- **The cache does not outgrow its capacity.** -/
theorem size_parseWithCache_le {cache : BTreeMap String Statement} {capacity : Nat}
    (h : cache.size ≤ capacity) (sql : String) (dialect : SqlDialect) :
    (parseWithCache cache capacity sql dialect).2.size ≤ capacity := by
  rw [parseWithCache]
  split
  · exact h
  · rename_i hcapacity
    dsimp only
    split
    · exact h
    · split
      · exact h
      · rename_i statement _
        -- one statement is given up for the new one where there is no room
        have hroom (evicted : BTreeMap String Statement) (hevicted : evicted.size < capacity) :
            (evicted.insert (String.ofList (stripStatement sql.toList)) statement).size ≤
              capacity :=
          Std.ExtTreeMap.size_insert_le.trans hevicted
        refine hroom _ ?_
        split
        · split
          · rename_i firstKey hfirst
            have hmem : firstKey ∈ cache := by
              rw [← Std.ExtTreeMap.mem_keys]
              exact List.mem_of_mem_head? hfirst
            have hpos : cache.size ≠ 0 := by
              rw [← Std.ExtTreeMap.length_keys]
              exact fun hzero ↦ by
                rw [List.length_eq_zero_iff.mp hzero] at hfirst
                cases hfirst
            rw [Std.ExtTreeMap.size_erase, if_pos (Std.ExtTreeMap.mem_iff_contains.mp hmem)]
            omega
          · rename_i hnone
            have hzero : cache.size = 0 := by
              rw [← Std.ExtTreeMap.length_keys, List.head?_eq_none_iff.mp hnone, List.length_nil]
            omega
        · rename_i hsize
          omega

/-! ## `ParsedStatementCache` -/

/-- `ParsedStatementCache`. -/
structure ParsedStatementCache where
  /-- The number of statements that are kept at most. -/
  capacity : Nat
  /-- The statements parsed so far, by their stripped text. -/
  statements : BTreeMap String Statement

namespace ParsedStatementCache

/-- `ParsedStatementCache::new`. -/
def new (capacity : Nat) : ParsedStatementCache := ⟨capacity, ∅⟩

/-- `ParsedStatementCache::parse`, which does with its own map what `parse_with_cache` does with
the caller's. -/
def parse (cache : ParsedStatementCache) (sql : String) (dialect : SqlDialect) :
    Parse Statement × ParsedStatementCache :=
  let (result, statements) := parseWithCache cache.statements cache.capacity sql dialect
  (result, { cache with statements })

/-- What the calls with a list of texts return, and what each leaves. -/
def calls (dialect : SqlDialect) (cache : ParsedStatementCache) :
    List String → List (Parse Statement × ParsedStatementCache)
  | [] => []
  | sql :: texts => cache.parse sql dialect :: calls dialect (cache.parse sql dialect).2 texts

end ParsedStatementCache

/-- What the calls of `parse_with_cache` with a list of texts return, and what each leaves in the
map they share. -/
def callsWithCache (capacity : Nat) (dialect : SqlDialect) (cache : BTreeMap String Statement) :
    List String → List (Parse Statement × BTreeMap String Statement)
  | [] => []
  | sql :: texts => parseWithCache cache capacity sql dialect ::
      callsWithCache capacity dialect (parseWithCache cache capacity sql dialect).2 texts

theorem callsWithCache_eq {capacity : Nat} {dialect : SqlDialect}
    {cache : BTreeMap String Statement} (hok : CacheOk dialect cache)
    (hsize : cache.size ≤ capacity) (texts : List String) :
    (callsWithCache capacity dialect cache texts).map Prod.fst =
        texts.map (parseSqlWithDialect · dialect) ∧
      ∀ call ∈ callsWithCache capacity dialect cache texts, call.2.size ≤ capacity := by
  induction texts generalizing cache with
  | nil => exact ⟨rfl, by simp [callsWithCache]⟩
  | cons sql texts ih =>
    obtain ⟨hparse, hok'⟩ := parseWithCache_eq hok capacity sql
    have hsize' := size_parseWithCache_le hsize sql dialect
    obtain ⟨hrest, hsizes⟩ := ih hok' hsize'
    rw [callsWithCache, List.map_cons, List.map_cons, hparse, hrest, List.forall_mem_cons]
    exact ⟨rfl, hsize', hsizes⟩

/-- The calls on a `ParsedStatementCache` are those with its map. -/
theorem ParsedStatementCache.calls_eq (dialect : SqlDialect) (cache : ParsedStatementCache)
    (texts : List String) : cache.calls dialect texts =
      (callsWithCache cache.capacity dialect cache.statements texts).map fun call ↦
        (call.1, ⟨cache.capacity, call.2⟩) := by
  induction texts generalizing cache with
  | nil => rfl
  | cons sql texts ih =>
    rw [calls, ih, callsWithCache, List.map_cons]
    rfl

/-- **The statement cache is transparent and bounded**, that of `ParsedStatementCache::parse` and
the one passed to `parse_with_cache`: every call returns what the parser returns, and no more
statements are kept than there is room for. -/
theorem ParsedStatementCache.transparent (capacity : Nat) (dialect : SqlDialect)
    (texts : List String) :
    (((new capacity).calls dialect texts).map Prod.fst =
        texts.map (parseSqlWithDialect · dialect) ∧
      ∀ call ∈ (new capacity).calls dialect texts, call.2.statements.size ≤ capacity) ∧
    ((callsWithCache capacity dialect ∅ texts).map Prod.fst =
        texts.map (parseSqlWithDialect · dialect) ∧
      ∀ call ∈ callsWithCache capacity dialect ∅ texts, call.2.size ≤ capacity) := by
  obtain ⟨hresults, hsizes⟩ := @callsWithCache_eq capacity dialect ∅ (cacheOk_empty dialect)
    (Nat.zero_le _) texts
  refine ⟨⟨?_, ?_⟩, hresults, hsizes⟩
  · rw [calls_eq, List.map_map]
    exact hresults
  · rw [calls_eq]
    intro call hcall
    obtain ⟨call', hcall', rfl⟩ := List.mem_map.mp hcall
    exact hsizes call' hcall'

end Fsql
