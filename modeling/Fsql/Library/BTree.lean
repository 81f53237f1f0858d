import Std.Data.ExtTreeMap
import Std.Data.ExtTreeSet
import Mathlib.Data.List.Nodup

/-!
# Ordered maps and sets

`BTreeMap` and `BTreeSet` are the ordered maps and sets of the development: Std's extensional tree
maps at the comparison of the key type.  Two of them are equal as soon as they hold the same
entries, and iterating over one visits the keys in ascending order, which is all a client of an
ordered map may rely on.

What is here on top of Std:

* `BTree.getElem?_insert`, `BTree.getElem?_erase`, `BTree.getElem?_modify`,
  `BTree.getElem?_alter` — Std's lookup lemmas with `k = a` in place of `compare k a = .eq`, so
  that they rewrite under the equalities the proofs have at hand;
* `BTree.eq_of_ordered` — two strictly ascending lists with the same members are equal;
* `BTree.overlay` — one map laid over another at some of the keys;
* `BTree.getElem?_foldl_erase` and `BTree.getElem?_foldl_modify` — what is left of a map after a
  loop that erases, or rewrites, the entries of a list of keys;
* `BTree.getElem?_foldl_insert_toList` — a map is rebuilt from the entries its iteration lists;
* `BTree.toList_insert_of_lt`, `BTree.toList_eq_map` and `BTree.toList_eq_filter` — what iteration
  lists after an entry has been put behind all others, after values have been rewritten, and after
  entries have been taken out;
* `MultiMap` — a map from keys to sets that is filled one pair at a time, the shape of every
  inverted index.  `MultiMap.mem_lookup_insert` is the only thing a client needs, and
  `MultiMap.ext_lookup` says that a multimap without empty sets is determined by its relation.
-/

set_option autoImplicit false
set_option linter.unusedSectionVars false

open Std

/-- An ordered map. -/
abbrev BTreeMap (κ : Type) (ν : Type) [Ord κ] := Std.ExtTreeMap κ ν compare

/-- An ordered set. -/
abbrev BTreeSet (κ : Type) [Ord κ] := Std.ExtTreeSet κ compare

namespace BTree

variable {κ ν : Type} [Ord κ] [TransOrd κ] [LawfulEqOrd κ] [DecidableEq κ]

/-! ## Lookups after one operation -/

theorem getElem?_insert (m : BTreeMap κ ν) (k a : κ) (v : ν) :
    (m.insert k v)[a]? = if k = a then some v else m[a]? := by
  rw [ExtTreeMap.getElem?_insert]
  simp only [LawfulEqCmp.compare_eq_iff_eq]

theorem getElem?_erase (m : BTreeMap κ ν) (k a : κ) :
    (m.erase k)[a]? = if k = a then none else m[a]? := by
  rw [ExtTreeMap.getElem?_erase]
  simp only [LawfulEqCmp.compare_eq_iff_eq]

theorem getElem?_modify (m : BTreeMap κ ν) (k a : κ) (f : ν → ν) :
    (m.modify k f)[a]? = if k = a then m[k]?.map f else m[a]? := by
  rw [ExtTreeMap.getElem?_modify]
  simp only [LawfulEqCmp.compare_eq_iff_eq]

theorem getElem?_alter (m : BTreeMap κ ν) (k a : κ) (f : Option ν → Option ν) :
    (m.alter k f)[a]? = if k = a then f m[k]? else m[a]? := by
  rw [ExtTreeMap.getElem?_alter]
  simp only [LawfulEqCmp.compare_eq_iff_eq]

theorem mem_iff_exists (m : BTreeMap κ ν) (k : κ) : k ∈ m ↔ ∃ v, m[k]? = some v := by
  rw [ExtTreeMap.mem_iff_isSome_getElem?, Option.isSome_iff_exists]

theorem size_insert_of_mem {m : BTreeMap κ ν} {k : κ} (h : k ∈ m) (v : ν) :
    (m.insert k v).size = m.size := by
  rw [ExtTreeMap.size_insert, if_pos (ExtTreeMap.contains_iff_mem.mpr h)]

theorem size_insert_of_not_mem {m : BTreeMap κ ν} {k : κ} (h : k ∉ m) (v : ν) :
    (m.insert k v).size = m.size + 1 := by
  rw [ExtTreeMap.size_insert, if_neg (mt ExtTreeMap.contains_iff_mem.mp h)]

theorem size_erase_of_mem {m : BTreeMap κ ν} {k : κ} (h : k ∈ m) :
    (m.erase k).size + 1 = m.size := by
  have hpos : m.size ≠ 0 := by
    intro hzero
    rw [ExtTreeMap.eq_empty_iff_size_eq_zero.mpr hzero] at h
    exact ExtTreeMap.not_mem_empty h
  rw [ExtTreeMap.size_erase, if_pos (ExtTreeMap.contains_iff_mem.mpr h)]
  omega

theorem mem_insert_set (s : BTreeSet κ) (k a : κ) : a ∈ s.insert k ↔ k = a ∨ a ∈ s := by
  rw [ExtTreeSet.mem_insert, LawfulEqCmp.compare_eq_iff_eq]

/-- The entries of a map, as its iteration lists them, have distinct keys. -/
theorem nodup_keys_toList (m : BTreeMap κ ν) : (m.toList.map Prod.fst).Nodup := by
  rw [ExtTreeMap.map_fst_toList_eq_keys]
  exact ExtTreeMap.nodup_keys

/-- Two lists that ascend strictly by a key, and have the same members, are equal. -/
theorem eq_of_ordered_by {α : Type} (key : α → κ) {l l' : List α}
    (h : l.Pairwise (fun a b ↦ compare (key a) (key b) = .lt))
    (h' : l'.Pairwise (fun a b ↦ compare (key a) (key b) = .lt)) (hmem : ∀ a, a ∈ l ↔ a ∈ l') :
    l = l' := by
  have hnodup {l : List α} (hl : l.Pairwise (fun a b ↦ compare (key a) (key b) = .lt)) :
      l.Nodup :=
    hl.imp fun hab heq ↦ by simp [heq] at hab
  refine List.Perm.eq_of_pairwise ?_ h h'
    ((List.perm_ext_iff_of_nodup (hnodup h) (hnodup h')).mpr hmem)
  intro a b _ _ hab hba
  exact absurd (OrientedCmp.gt_of_lt hab) (by rw [hba]; decide)

/-- Two strictly ascending lists with the same members are equal. -/
theorem eq_of_ordered {l l' : List κ} (h : l.Pairwise (compare · · = .lt))
    (h' : l'.Pairwise (compare · · = .lt)) (hmem : ∀ a, a ∈ l ↔ a ∈ l') : l = l' :=
  eq_of_ordered_by id h h' hmem

/-- The entries of `s` at the keys satisfying `p`, and those of `m` elsewhere. -/
def overlay (p : κ → Bool) (s m : BTreeMap κ ν) : BTreeMap κ ν :=
  (m.filter fun k _ ↦ !p k) ∪ s.filter fun k _ ↦ p k

theorem getElem?_overlay (p : κ → Bool) (s m : BTreeMap κ ν) (k : κ) :
    (overlay p s m)[k]? = if p k then s[k]? else m[k]? := by
  rw [overlay, ExtTreeMap.getElem?_union, ExtTreeMap.getElem?_filter', ExtTreeMap.getElem?_filter']
  cases hp : p k <;> cases s[k]? <;> cases m[k]? <;> simp

/-- A map is what it was if none of its entries changes. -/
theorem map_eq_self {m : BTreeMap κ ν} {f : ν → ν}
    (h : ∀ (k : κ) (v : ν), m[k]? = some v → f v = v) : (m.map fun _ v ↦ f v) = m := by
  refine ExtTreeMap.ext_getElem? fun k ↦ ?_
  rw [ExtTreeMap.getElem?_map]
  rcases hk : m[k]? with _ | v
  · rfl
  · exact congrArg some (h k v hk)

/-! ## Lookups after a loop over a list of keys -/

theorem getElem?_foldl_erase (ks : List κ) (m : BTreeMap κ ν) (a : κ) :
    (ks.foldl (fun m k ↦ m.erase k) m)[a]? = if a ∈ ks then none else m[a]? := by
  induction ks generalizing m with
  | nil => simp
  | cons k ks ih =>
    rw [List.foldl_cons, ih, getElem?_erase]
    by_cases hk : k = a
    · simp [hk]
    · simp [hk, Ne.symm hk]

/-- Rewriting the entries of a list of keys with an idempotent function rewrites each of them
once, however often the list names it. -/
theorem getElem?_foldl_modify {f : ν → ν} (hf : ∀ v, f (f v) = f v) (ks : List κ)
    (m : BTreeMap κ ν) (a : κ) :
    (ks.foldl (fun m k ↦ m.modify k f) m)[a]? = if a ∈ ks then m[a]?.map f else m[a]? := by
  induction ks generalizing m with
  | nil => simp
  | cons k ks ih =>
    rw [List.foldl_cons, ih, getElem?_modify]
    by_cases hk : k = a
    · subst hk
      cases m[k]? <;> simp [hf]
    · simp [hk, Ne.symm hk]

theorem getElem?_foldl_insert {l : List (κ × ν)} (hnodup : (l.map Prod.fst).Nodup)
    (m : BTreeMap κ ν) (k : κ) (v : ν) :
    (l.foldl (fun m p ↦ m.insert p.1 p.2) m)[k]? = some v ↔
      (k, v) ∈ l ∨ (k ∉ l.map Prod.fst ∧ m[k]? = some v) := by
  induction l generalizing m with
  | nil => simp
  | cons p l ih =>
    rw [List.map_cons, List.nodup_cons] at hnodup
    rw [List.foldl_cons, ih hnodup.2, getElem?_insert, List.map_cons, List.mem_cons, List.mem_cons]
    by_cases hk : p.1 = k
    · subst hk
      simp only [if_pos, Option.some_inj, hnodup.1, not_false_eq_true, true_and, not_true,
        false_and, or_false]
      constructor
      · rintro (hmem | rfl)
        · exact .inr hmem
        · exact .inl rfl
      · rintro (heq | hmem)
        · exact .inr (congrArg Prod.snd heq).symm
        · exact .inl hmem
    · have hne : (k, v) ≠ p := fun h ↦ hk (congrArg Prod.fst h).symm
      simp [hk, hne, Ne.symm hk]

/-- **A map is rebuilt from its entries**, with a function applied to each value. -/
theorem getElem?_foldl_insert_toList {ν' : Type} (f : ν → ν') (m : BTreeMap κ ν) (k : κ) :
    (m.toList.foldl (fun m p ↦ m.insert p.1 (f p.2)) (∅ : BTreeMap κ ν'))[k]? = m[k]?.map f := by
  have hfold : m.toList.foldl (fun m p ↦ m.insert p.1 (f p.2)) (∅ : BTreeMap κ ν') =
      (m.toList.map fun p ↦ (p.1, f p.2)).foldl (fun m p ↦ m.insert p.1 p.2) ∅ := by
    rw [List.foldl_map]
  have hkeys : ((m.toList.map fun p ↦ (p.1, f p.2)).map Prod.fst).Nodup := by
    rw [List.map_map]
    exact nodup_keys_toList m
  refine Option.ext fun v ↦ ?_
  rw [hfold, getElem?_foldl_insert hkeys, Option.map_eq_some_iff]
  simp only [List.mem_map, Prod.mk.injEq, ExtTreeMap.getElem?_empty, reduceCtorEq, and_false,
    or_false, Prod.exists, ExtTreeMap.mem_toList_iff_getElem?_eq_some]
  constructor
  · rintro ⟨a, b, hab, rfl, rfl⟩
    exact ⟨b, hab, rfl⟩
  · rintro ⟨b, hkb, rfl⟩
    exact ⟨k, b, hkb, rfl, rfl⟩

/-! ## Iteration -/

/-- A map lists what a list says it does, if that ascends. -/
theorem toList_eq_of_mem {m : BTreeMap κ ν} {l : List (κ × ν)}
    (h : l.Pairwise fun a b ↦ compare a.1 b.1 = .lt)
    (hmem : ∀ k v, m[k]? = some v ↔ (k, v) ∈ l) : m.toList = l := by
  refine eq_of_ordered_by Prod.fst ExtTreeMap.ordered_keys_toList h fun p ↦ ?_
  rw [ExtTreeMap.mem_toList_iff_getElem?_eq_some, hmem]

/-- An entry behind all others is listed last. -/
theorem toList_insert_of_lt {m : BTreeMap κ ν} {n : κ} (v : ν)
    (h : ∀ k v, m[k]? = some v → compare k n = .lt) :
    (m.insert n v).toList = m.toList ++ [(n, v)] := by
  refine toList_eq_of_mem ?_ fun k w ↦ ?_
  · rw [List.pairwise_append]
    refine ⟨ExtTreeMap.ordered_keys_toList, List.pairwise_singleton _ _, ?_⟩
    intro a ha b hb
    obtain rfl := List.mem_singleton.mp hb
    exact h a.1 a.2 (ExtTreeMap.mem_toList_iff_getElem?_eq_some.mp ha)
  · rw [getElem?_insert, List.mem_append, List.mem_singleton,
      ExtTreeMap.mem_toList_iff_getElem?_eq_some, Prod.mk.injEq]
    by_cases hk : n = k
    · subst hk
      rw [if_pos rfl, Option.some_inj]
      constructor
      · rintro rfl
        exact .inr ⟨rfl, rfl⟩
      · rintro (hold | ⟨-, rfl⟩)
        · have hlt := h n w hold
          have heq : compare n n = .eq := ReflCmp.compare_self
          rw [heq] at hlt
          cases hlt
        · rfl
    · rw [if_neg hk]
      exact ⟨.inl, fun hor ↦ hor.resolve_right fun heq ↦ hk heq.1.symm⟩

/-- Rewriting the values rewrites what is listed. -/
theorem toList_eq_map {m m' : BTreeMap κ ν} (f : κ → ν → ν)
    (h : ∀ k : κ, m'[k]? = m[k]?.map (f k)) :
    m'.toList = m.toList.map fun p ↦ (p.1, f p.1 p.2) := by
  refine toList_eq_of_mem ?_ fun k v ↦ ?_
  · rw [List.pairwise_map]
    exact ExtTreeMap.ordered_keys_toList
  · rw [h, Option.map_eq_some_iff, List.mem_map]
    constructor
    · rintro ⟨w, hw, rfl⟩
      exact ⟨(k, w), ExtTreeMap.mem_toList_iff_getElem?_eq_some.mpr hw, rfl⟩
    · rintro ⟨⟨k', w⟩, hw, heq⟩
      obtain ⟨rfl, rfl⟩ := Prod.mk.inj heq
      exact ⟨w, ExtTreeMap.mem_toList_iff_getElem?_eq_some.mp hw, rfl⟩

/-- Entries that are taken out are not listed. -/
theorem toList_eq_filter {m m' : BTreeMap κ ν} (p : κ → Bool)
    (h : ∀ k : κ, m'[k]? = if p k then m[k]? else none) :
    m'.toList = m.toList.filter fun entry ↦ p entry.1 := by
  refine toList_eq_of_mem (ExtTreeMap.ordered_keys_toList.filter _) fun k v ↦ ?_
  rw [h, List.mem_filter, ExtTreeMap.mem_toList_iff_getElem?_eq_some]
  split
  · rename_i hp
    simp [hp]
  · rename_i hp
    simp [hp]

end BTree

/-! ## Multimaps -/

/-- A map from keys to sets of values. -/
abbrev MultiMap (κ : Type) (ι : Type) [Ord κ] [Ord ι] := BTreeMap κ (BTreeSet ι)

namespace MultiMap

variable {κ ι : Type} [Ord κ] [Ord ι]

/-- Add one pair, creating the key's set when it has none. -/
def insert (m : MultiMap κ ι) [TransOrd κ] [TransOrd ι] (k : κ) (i : ι) : MultiMap κ ι :=
  m.alter k fun s ↦ some ((s.getD ∅).insert i)

/-- The set of a key, empty when the key has none. -/
def lookup [TransOrd κ] [TransOrd ι] (m : MultiMap κ ι) (k : κ) : BTreeSet ι := m[k]?.getD ∅

/-- No key is kept with an empty set. -/
def Tight [TransOrd κ] [TransOrd ι] (m : MultiMap κ ι) : Prop :=
  ∀ (k : κ) (s : BTreeSet ι), m[k]? = some s → ∃ i, i ∈ s

variable [TransOrd κ] [LawfulEqOrd κ] [DecidableEq κ]
variable [TransOrd ι] [LawfulEqOrd ι]

@[simp] theorem lookup_empty (k : κ) : lookup (∅ : MultiMap κ ι) k = ∅ := by
  simp [lookup]

/-- **What one insertion adds.** -/
theorem mem_lookup_insert [DecidableEq ι] (m : MultiMap κ ι) (k k' : κ) (i i' : ι) :
    i' ∈ (m.insert k i).lookup k' ↔ (k = k' ∧ i = i') ∨ i' ∈ m.lookup k' := by
  rw [lookup, lookup, insert, BTree.getElem?_alter]
  by_cases hk : k = k'
  · subst hk
    simp
  · simp [hk]

theorem tight_empty : Tight (∅ : MultiMap κ ι) := by
  intro k s h
  simp at h

theorem Tight.insert {m : MultiMap κ ι} (h : m.Tight) (k : κ) (i : ι) : (m.insert k i).Tight := by
  intro k' s hs
  rw [MultiMap.insert, BTree.getElem?_alter] at hs
  split at hs
  · obtain rfl := Option.some.inj hs
    exact ⟨i, ExtTreeSet.mem_insert_self⟩
  · exact h k' s hs

/-- **A multimap without empty sets is determined by the relation it stores.** -/
theorem ext_lookup {m m' : MultiMap κ ι} (h : m.Tight) (h' : m'.Tight)
    (heq : ∀ k i, i ∈ m.lookup k ↔ i ∈ m'.lookup k) : m = m' := by
  refine ExtTreeMap.ext_getElem? fun k ↦ ?_
  have hset : m.lookup k = m'.lookup k := ExtTreeSet.ext_mem fun i ↦ heq k i
  cases hm : m[k]? with
  | none =>
    cases hm' : m'[k]? with
    | none => rfl
    | some s =>
      obtain ⟨i, hi⟩ := h' k s hm'
      rw [lookup, lookup, hm, hm'] at hset
      simp only [Option.getD_none, Option.getD_some] at hset
      rw [← hset] at hi
      exact absurd hi ExtTreeSet.not_mem_empty
  | some s =>
    cases hm' : m'[k]? with
    | none =>
      obtain ⟨i, hi⟩ := h k s hm
      rw [lookup, lookup, hm, hm'] at hset
      simp only [Option.getD_none, Option.getD_some] at hset
      rw [hset] at hi
      exact absurd hi ExtTreeSet.not_mem_empty
    | some s' =>
      rw [lookup, lookup, hm, hm'] at hset
      simpa using hset

end MultiMap
