import Mathlib.Data.List.Pairwise
import Fsql.Library.BTree

/-!
# Indexes derived from a map of rows

A table keeps, beside its rows, maps that can be recomputed from them.  There are two kinds:

* an **inverted index** lists under each key the ids of the rows that have it
  (`Inverts`), a row having any number of keys;
* a **unique index** sends each key to the one row that has it (`UniqueIndex`), every row having
  exactly one.

Both are built by a loop over the rows.  `inverts_foldl_enter` and `uniqueIndex_foldl_enterUnique`
say that the loop builds what the definition asks for; `admits_toList` says when the second loop,
which stops at a row without a key or with a key already present, gets to its end.  An index that
satisfies its definition is determined by the rows (`Inverts.unique`, `UniqueIndex.unique`).
-/

set_option autoImplicit false
set_option linter.unusedSectionVars false

open Std

namespace DerivedIndex

variable {ι κ ρ : Type} [Ord ι] [TransOrd ι] [LawfulEqOrd ι] [DecidableEq ι]
variable [Ord κ] [TransOrd κ] [LawfulEqOrd κ] [DecidableEq κ]

theorem mem_toList_iff (rows : BTreeMap ι ρ) (i : ι) (r : ρ) :
    (i, r) ∈ rows.toList ↔ rows[i]? = some r := by
  rw [ExtTreeMap.mem_toList_iff_getElem?_eq_some]

/-! ## Inverted indexes -/

/-- Enter one row into a multimap: its id under each of its keys. -/
def enter (keys : ρ → List κ) (i : ι) (r : ρ) (m : MultiMap κ ι) : MultiMap κ ι :=
  (keys r).foldl (fun m k ↦ m.insert k i) m

/-- **An inverted index** of the rows: under each key, the ids of the rows that have it, and no
key without an id. -/
structure Inverts (keys : ρ → List κ) (rows : BTreeMap ι ρ) (m : MultiMap κ ι) : Prop where
  /-- No key is kept without an id. -/
  tight : m.Tight
  /-- The ids under a key are those of the rows that have it. -/
  mem_lookup (k : κ) (i : ι) : i ∈ m.lookup k ↔ ∃ r, rows[i]? = some r ∧ k ∈ keys r

theorem tight_foldl_insert (ks : List κ) (i : ι) {m : MultiMap κ ι} (h : m.Tight) :
    (ks.foldl (fun m k ↦ m.insert k i) m).Tight := by
  induction ks generalizing m with
  | nil => exact h
  | cons k ks ih => exact ih (h.insert k i)

theorem mem_lookup_enter (keys : ρ → List κ) (i j : ι) (r : ρ) (k : κ) (m : MultiMap κ ι) :
    j ∈ (enter keys i r m).lookup k ↔ (k ∈ keys r ∧ i = j) ∨ j ∈ m.lookup k := by
  rw [enter]
  induction keys r generalizing m with
  | nil => simp
  | cons k' ks ih =>
    rw [List.foldl_cons, ih, MultiMap.mem_lookup_insert, List.mem_cons]
    grind

theorem tight_foldl_enter (keys : ρ → List κ) (l : List (ι × ρ)) {m : MultiMap κ ι}
    (h : m.Tight) : (l.foldl (fun m p ↦ enter keys p.1 p.2 m) m).Tight := by
  induction l generalizing m with
  | nil => exact h
  | cons p l ih => exact ih (tight_foldl_insert _ _ h)

theorem mem_lookup_foldl_enter (keys : ρ → List κ) (l : List (ι × ρ)) (m : MultiMap κ ι) (k : κ)
    (i : ι) :
    i ∈ (l.foldl (fun m p ↦ enter keys p.1 p.2 m) m).lookup k ↔
      (∃ r, (i, r) ∈ l ∧ k ∈ keys r) ∨ i ∈ m.lookup k := by
  induction l generalizing m with
  | nil => simp
  | cons p l ih =>
    rw [List.foldl_cons, ih, mem_lookup_enter]
    obtain ⟨j, s⟩ := p
    simp only [List.mem_cons, Prod.mk.injEq]
    grind

/-- **The loop that enters every row builds the inverted index of the rows.** -/
theorem inverts_foldl_enter (keys : ρ → List κ) (rows : BTreeMap ι ρ) :
    Inverts keys rows (rows.toList.foldl (fun m p ↦ enter keys p.1 p.2 m) ∅) := by
  refine ⟨tight_foldl_enter keys _ MultiMap.tight_empty, fun k i ↦ ?_⟩
  rw [mem_lookup_foldl_enter, MultiMap.lookup_empty]
  simp only [mem_toList_iff, ExtTreeSet.not_mem_empty, or_false]

/-- An inverted index is determined by the rows. -/
theorem Inverts.unique {keys : ρ → List κ} {rows : BTreeMap ι ρ} {m m' : MultiMap κ ι}
    (h : Inverts keys rows m) (h' : Inverts keys rows m') : m = m' :=
  MultiMap.ext_lookup h.tight h'.tight fun k i ↦ by rw [h.mem_lookup, h'.mem_lookup]

/-- Two functions that give every row the same keys have the same inverted indexes. -/
theorem Inverts.congr {keys keys' : ρ → List κ} {rows : BTreeMap ι ρ} {m : MultiMap κ ι}
    (h : Inverts keys rows m)
    (heq : ∀ (i : ι) (r : ρ), rows[i]? = some r → ∀ k, k ∈ keys' r ↔ k ∈ keys r) :
    Inverts keys' rows m := by
  refine ⟨h.tight, fun k i ↦ ?_⟩
  rw [h.mem_lookup]
  exact exists_congr fun r ↦ and_congr_right fun hr ↦ (heq i r hr k).symm

/-- The ids listed under a key, in ascending order, are those of the rows that have it. -/
theorem Inverts.toList_lookup {keys : ρ → List κ} {rows : BTreeMap ι ρ} {m : MultiMap κ ι}
    (h : Inverts keys rows m) (k : κ) :
    (m.lookup k).toList.Pairwise (compare · · = .lt) ∧
      ∀ i, i ∈ (m.lookup k).toList ↔ ∃ r, rows[i]? = some r ∧ k ∈ keys r := by
  refine ⟨ExtTreeSet.ordered_toList, fun i ↦ ?_⟩
  rw [ExtTreeSet.mem_toList, h.mem_lookup]

/-! ## Unique indexes -/

/-- **A unique index** of the rows: the row of each key. -/
def UniqueIndex (key : ρ → Option κ) (rows : BTreeMap ι ρ) (m : BTreeMap κ ι) : Prop :=
  ∀ (k : κ) (i : ι), m[k]? = some i ↔ ∃ r, rows[i]? = some r ∧ key r = some k

/-- The rows have distinct keys. -/
structure DistinctKeys (key : ρ → Option κ) (rows : BTreeMap ι ρ) : Prop where
  /-- Every row has a key. -/
  isSome (i : ι) (r : ρ) : rows[i]? = some r → ∃ k, key r = some k
  /-- Two rows with one key are the same row. -/
  inj (i j : ι) (r s : ρ) : rows[i]? = some r → rows[j]? = some s → key r = key s → i = j

theorem UniqueIndex.unique {key : ρ → Option κ} {rows : BTreeMap ι ρ} {m m' : BTreeMap κ ι}
    (h : UniqueIndex key rows m) (h' : UniqueIndex key rows m') : m = m' := by
  refine ExtTreeMap.ext_getElem? fun k ↦ Option.ext fun i ↦ ?_
  rw [h, h']

/-- The rows of a list can be entered one after the other: each has a key that no earlier row and
no entry of `m` has. -/
def Admits (key : ρ → Option κ) : List (ι × ρ) → BTreeMap κ ι → Prop
  | [], _ => True
  | (i, r) :: l, m => ∃ k, key r = some k ∧ k ∉ m ∧ Admits key l (m.insert k i)

theorem admits_iff (key : ρ → Option κ) (l : List (ι × ρ)) (m : BTreeMap κ ι) :
    Admits key l m ↔
      (∀ p ∈ l, ∃ k, key p.2 = some k ∧ k ∉ m) ∧ l.Pairwise fun p q ↦ key p.2 ≠ key q.2 := by
  induction l generalizing m with
  | nil => simp [Admits]
  | cons p l ih =>
    obtain ⟨i, r⟩ := p
    simp only [Admits, ih, List.mem_cons, forall_eq_or_imp, List.pairwise_cons,
      ExtTreeMap.mem_insert, LawfulEqCmp.compare_eq_iff_eq, not_or]
    constructor
    · rintro ⟨k, hk, hkm, hall, hpair⟩
      refine ⟨⟨⟨k, hk, hkm⟩, fun q hq ↦ ?_⟩, fun q hq heq ↦ ?_, hpair⟩
      · obtain ⟨k', hk', -, hkm'⟩ := hall q hq
        exact ⟨k', hk', hkm'⟩
      · obtain ⟨k', hk', hne, -⟩ := hall q hq
        rw [hk, hk', Option.some_inj] at heq
        exact hne heq
    · rintro ⟨⟨⟨k, hk, hkm⟩, hall⟩, hne, hpair⟩
      refine ⟨k, hk, hkm, fun q hq ↦ ?_, hpair⟩
      obtain ⟨k', hk', hkm'⟩ := hall q hq
      refine ⟨k', hk', fun heq ↦ hne q hq ?_, hkm'⟩
      rw [hk, hk', heq]

/-- **The loop gets through all rows exactly when their keys are distinct.** -/
theorem admits_toList (key : ρ → Option κ) (rows : BTreeMap ι ρ) :
    Admits key rows.toList ∅ ↔ DistinctKeys key rows := by
  have hnodup : rows.toList.Nodup := (BTree.nodup_keys_toList rows).of_map
  have hmem : ∀ {i r}, rows[i]? = some r → (i, r) ∈ rows.toList :=
    fun h ↦ (mem_toList_iff rows _ _).mpr h
  rw [admits_iff]
  constructor
  · rintro ⟨hall, hpair⟩
    refine ⟨fun i r hr ↦ ?_, fun i j r s hr hs heq ↦ ?_⟩
    · obtain ⟨k, hk, -⟩ := hall (i, r) (hmem hr)
      exact ⟨k, hk⟩
    · by_contra hij
      have hne : (i, r) ≠ (j, s) := fun h ↦ hij (congrArg Prod.fst h)
      have : Std.Symm fun p q : ι × ρ ↦ key p.2 ≠ key q.2 := ⟨fun _ _ h ↦ h.symm⟩
      exact hpair.forall (hmem hr) (hmem hs) hne heq
  · rintro ⟨hsome, hinj⟩
    refine ⟨fun p hp ↦ ?_, hnodup.pairwise_of_forall_ne fun p hp q hq hne heq ↦ hne ?_⟩
    · obtain ⟨k, hk⟩ := hsome p.1 p.2 ((mem_toList_iff rows _ _).mp hp)
      exact ⟨k, hk, ExtTreeMap.not_mem_empty⟩
    · have hp' := (mem_toList_iff rows p.1 p.2).mp hp
      have hq' := (mem_toList_iff rows q.1 q.2).mp hq
      have hfst := hinj p.1 q.1 p.2 q.2 hp' hq' heq
      rw [hfst, hq', Option.some_inj] at hp'
      exact Prod.ext hfst hp'.symm

instance decidableAdmits (key : ρ → Option κ) :
    ∀ (l : List (ι × ρ)) (m : BTreeMap κ ι), Decidable (Admits key l m)
  | [], _ => isTrue trivial
  | (i, r) :: l, m =>
    match h : key r with
    | none => isFalse fun ⟨k, hk, _⟩ ↦ by
      rw [h] at hk
      cases hk
    | some k =>
      have : Decidable (Admits key l (m.insert k i)) := decidableAdmits key l (m.insert k i)
      decidable_of_iff (k ∉ m ∧ Admits key l (m.insert k i)) (by
        rw [Admits, h]
        simp)

instance decidableDistinctKeys (key : ρ → Option κ) (rows : BTreeMap ι ρ) :
    Decidable (DistinctKeys key rows) :=
  decidable_of_iff _ (admits_toList key rows)

/-- Enter one row into a unique index, if it has a key. -/
def enterUnique (key : ρ → Option κ) (i : ι) (r : ρ) (m : BTreeMap κ ι) : BTreeMap κ ι :=
  match key r with
  | some k => m.insert k i
  | none => m

theorem getElem?_foldl_enterUnique {key : ρ → Option κ} {l : List (ι × ρ)} {m : BTreeMap κ ι}
    (h : Admits key l m) (k : κ) (i : ι) :
    (l.foldl (fun m p ↦ enterUnique key p.1 p.2 m) m)[k]? = some i ↔
      (∃ r, (i, r) ∈ l ∧ key r = some k) ∨ m[k]? = some i := by
  induction l generalizing m with
  | nil => simp
  | cons p l ih =>
    obtain ⟨j, s⟩ := p
    obtain ⟨k', hk', hkm, h⟩ := h
    have hm : m[k']? = none := ExtTreeMap.getElem?_eq_none hkm
    rw [List.foldl_cons, enterUnique, hk', ih h, BTree.getElem?_insert]
    simp only [List.mem_cons, Prod.mk.injEq]
    grind

/-- **The loop that enters every row builds the unique index of the rows.** -/
theorem uniqueIndex_foldl_enterUnique {key : ρ → Option κ} {rows : BTreeMap ι ρ}
    (h : DistinctKeys key rows) :
    UniqueIndex key rows (rows.toList.foldl (fun m p ↦ enterUnique key p.1 p.2 m) ∅) := by
  intro k i
  rw [getElem?_foldl_enterUnique ((admits_toList key rows).mpr h)]
  simp only [mem_toList_iff, ExtTreeMap.getElem?_empty, reduceCtorEq, or_false]

end DerivedIndex
