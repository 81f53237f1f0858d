import Fsql.Library.BTree

/-!
# Exclusive locks

A `LockTable` says who holds each key.  Beside it every owner keeps the set of the keys it holds;
the table is what the owners share, the sets are what they release by.

* `LockTable.acquire` takes a list of keys one by one and stops at the first that somebody else
  holds.  What was taken before stays taken.
* `LockTable.release` gives back a set of keys, skipping those that are not the owner's.
* `LockTable.Holds` — the owner's set is in the table.  It is what `acquire` and the owner's own
  bookkeeping maintain (`LockTable.acquire_holds`), and what makes locks exclusive
  (`LockTable.Holds.eq_of_mem`).
* `LockTable.Frame` — nobody else's entries changed.  Every operation of an owner is a frame for
  the others (`LockTable.acquire_frame`, `LockTable.insert_frame`, `LockTable.release_frame`).
-/

set_option autoImplicit false
set_option linter.unusedSectionVars false

/-- Who holds each key. -/
abbrev LockTable (κ ω : Type) [Ord κ] := BTreeMap κ ω

namespace LockTable

variable {κ ω : Type} [Ord κ] [Std.TransOrd κ] [Std.LawfulEqOrd κ] [DecidableEq κ] [DecidableEq ω]

/-! ## Operations -/

/-- Take the keys of a list in order, entering them into the table and into the owner's set.  The
first key that somebody else holds ends it, and is reported. -/
def acquire (owner : ω) : List κ → LockTable κ ω → BTreeSet κ →
    Except κ Unit × LockTable κ ω × BTreeSet κ
  | [], locks, held => (.ok (), locks, held)
  | key :: keys, locks, held =>
    if ∃ other ∈ locks[key]?, other ≠ owner then (.error key, locks, held)
    else acquire owner keys (locks.insert key owner) (held.insert key)

/-- Give back the keys of a list that are the owner's. -/
def release (owner : ω) (keys : List κ) (locks : LockTable κ ω) : LockTable κ ω :=
  keys.foldl (fun locks key ↦ if locks[key]? = some owner then locks.erase key else locks) locks

/-! ## What an owner holds -/

/-- The keys of a set are held by the owner. -/
def Holds (owner : ω) (held : BTreeSet κ) (locks : LockTable κ ω) : Prop :=
  ∀ key ∈ held, locks[key]? = some owner

/-- The entries of everybody but the owner are the same. -/
def Frame (owner : ω) (locks locks' : LockTable κ ω) : Prop :=
  ∀ (key : κ) (other : ω), other ≠ owner → (locks'[key]? = some other ↔ locks[key]? = some other)

/-- **Locks are exclusive.** -/
theorem Holds.eq_of_mem {owner owner' : ω} {held held' : BTreeSet κ} {locks : LockTable κ ω}
    (h : Holds owner held locks) (h' : Holds owner' held' locks) {key : κ} (hkey : key ∈ held)
    (hkey' : key ∈ held') : owner = owner' :=
  Option.some.inj ((h key hkey).symm.trans (h' key hkey'))

theorem Frame.refl (owner : ω) (locks : LockTable κ ω) : Frame owner locks locks :=
  fun _ _ _ ↦ Iff.rfl

theorem Frame.trans {owner : ω} {locks locks' locks'' : LockTable κ ω}
    (h : Frame owner locks locks') (h' : Frame owner locks' locks'') : Frame owner locks locks'' :=
  fun key other hne ↦ (h' key other hne).trans (h key other hne)

/-- Entering a key that nobody else holds is a frame. -/
theorem insert_frame {owner : ω} {locks : LockTable κ ω} {key : κ}
    (h : ∀ other, locks[key]? = some other → other = owner) :
    Frame owner locks (locks.insert key owner) := by
  intro k other hne
  rw [BTree.getElem?_insert]
  split
  · rename_i hk
    subst hk
    rw [Option.some_inj]
    exact ⟨fun heq ↦ absurd heq.symm hne, fun heq ↦ absurd (h other heq) hne⟩
  · rfl

theorem Holds.insert {owner : ω} {held : BTreeSet κ} {locks : LockTable κ ω}
    (h : Holds owner held locks) (key : κ) :
    Holds owner (held.insert key) (locks.insert key owner) := by
  intro k hk
  rw [BTree.getElem?_insert]
  split
  · rfl
  · rename_i hne
    rw [BTree.mem_insert_set] at hk
    exact h k (hk.resolve_left hne)

/-! ## Acquiring -/

/-- A key that is not refused is free or the owner's. -/
theorem eq_owner_of_not_refused {owner : ω} {locks : LockTable κ ω} {key : κ}
    (h : ¬∃ other ∈ locks[key]?, other ≠ owner) (other : ω) (hother : locks[key]? = some other) :
    other = owner := by
  by_contra hne
  exact h ⟨other, hother, hne⟩

theorem acquire_frame (owner : ω) (keys : List κ) (locks : LockTable κ ω) (held : BTreeSet κ) :
    Frame owner locks (acquire owner keys locks held).2.1 := by
  induction keys generalizing locks held with
  | nil => exact Frame.refl owner locks
  | cons key keys ih =>
    rw [acquire]
    split
    · exact Frame.refl owner locks
    · rename_i hfree
      exact (insert_frame (eq_owner_of_not_refused hfree)).trans (ih _ _)

theorem acquire_holds {owner : ω} (keys : List κ) {locks : LockTable κ ω} {held : BTreeSet κ}
    (h : Holds owner held locks) :
    Holds owner (acquire owner keys locks held).2.2 (acquire owner keys locks held).2.1 := by
  induction keys generalizing locks held with
  | nil => exact h
  | cons key keys ih =>
    rw [acquire]
    split
    · exact h
    · exact ih (h.insert key)

/-- What is held afterwards was held before or is in the list. -/
theorem mem_acquire {owner : ω} {keys : List κ} {locks : LockTable κ ω} {held : BTreeSet κ}
    {key : κ} (h : key ∈ (acquire owner keys locks held).2.2) : key ∈ held ∨ key ∈ keys := by
  induction keys generalizing locks held with
  | nil => exact .inl h
  | cons k keys ih =>
    rw [acquire] at h
    split at h
    · exact .inl h
    · rcases ih h with hheld | hkeys
      · rw [BTree.mem_insert_set] at hheld
        rcases hheld with rfl | hheld
        · exact .inr List.mem_cons_self
        · exact .inl hheld
      · exact .inr (List.mem_cons_of_mem _ hkeys)

/-- What was held is held. -/
theorem mem_acquire_of_mem {owner : ω} (keys : List κ) (locks : LockTable κ ω) {held : BTreeSet κ}
    {key : κ} (h : key ∈ held) : key ∈ (acquire owner keys locks held).2.2 := by
  induction keys generalizing locks held with
  | nil => exact h
  | cons k keys ih =>
    rw [acquire]
    split
    · exact h
    · exact ih _ ((BTree.mem_insert_set held k key).mpr (.inr h))

/-- **When no key is refused, all are held.** -/
theorem mem_acquire_of_ok {owner : ω} {keys : List κ} {locks : LockTable κ ω} {held : BTreeSet κ}
    (h : (acquire owner keys locks held).1 = .ok ()) {key : κ} (hkey : key ∈ keys) :
    key ∈ (acquire owner keys locks held).2.2 := by
  induction keys generalizing locks held with
  | nil => simp at hkey
  | cons k keys ih =>
    rw [acquire] at h ⊢
    split at h
    · cases h
    · rename_i hfree
      rw [if_neg hfree]
      rcases List.mem_cons.mp hkey with rfl | hkey
      · exact mem_acquire_of_mem keys _ ((BTree.mem_insert_set held key key).mpr (.inl rfl))
      · exact ih h hkey

/-- An entry of the table afterwards was there before, or is a key of the list and the owner's. -/
theorem getElem?_acquire {owner : ω} {keys : List κ} {locks : LockTable κ ω} {held : BTreeSet κ}
    {key : κ} {other : ω} (h : (acquire owner keys locks held).2.1[key]? = some other) :
    locks[key]? = some other ∨ key ∈ keys ∧ other = owner := by
  induction keys generalizing locks held with
  | nil => exact .inl h
  | cons k keys ih =>
    rw [acquire] at h
    split at h
    · exact .inl h
    · rcases ih h with hlocks | ⟨hkeys, rfl⟩
      · rw [BTree.getElem?_insert] at hlocks
        split at hlocks
        · rename_i hk
          exact .inr ⟨hk ▸ List.mem_cons_self, (Option.some.inj hlocks).symm⟩
        · exact .inl hlocks
      · exact .inr ⟨List.mem_cons_of_mem _ hkeys, rfl⟩

/-- **A key is refused because somebody else holds it.** -/
theorem exists_of_acquire_error {owner : ω} {keys : List κ} {locks : LockTable κ ω}
    {held : BTreeSet κ} {key : κ} (h : (acquire owner keys locks held).1 = .error key) :
    ∃ other, locks[key]? = some other ∧ other ≠ owner := by
  induction keys generalizing locks held with
  | nil => cases h
  | cons k keys ih =>
    rw [acquire] at h
    split at h
    · rename_i hrefused
      obtain rfl := Except.error.inj h
      exact hrefused
    · obtain ⟨other, hother, hne⟩ := ih h
      rw [BTree.getElem?_insert] at hother
      split at hother
      · exact absurd (Option.some.inj hother).symm hne
      · exact ⟨other, hother, hne⟩

/-- **Everything in the table is accounted for**: an entry of the owner that is not in its set
was not there before. -/
theorem mem_acquire_of_getElem? {owner : ω} {keys : List κ} {locks : LockTable κ ω}
    {held : BTreeSet κ} (hall : ∀ key, locks[key]? = some owner → key ∈ held) {key : κ}
    (h : (acquire owner keys locks held).2.1[key]? = some owner) :
    key ∈ (acquire owner keys locks held).2.2 := by
  induction keys generalizing locks held with
  | nil => exact hall key h
  | cons k keys ih =>
    rw [acquire] at h ⊢
    split at h
    · rename_i hrefused
      rw [if_pos hrefused]
      exact hall key h
    · rename_i hfree
      rw [if_neg hfree]
      refine ih ?_ h
      intro key' hkey'
      rw [BTree.mem_insert_set]
      rw [BTree.getElem?_insert] at hkey'
      split at hkey'
      · rename_i hk
        exact .inl hk
      · exact .inr (hall key' hkey')

/-! ## Releasing -/

/-- **What is left after releasing.** -/
theorem getElem?_release (owner : ω) (keys : List κ) (locks : LockTable κ ω) (key : κ) :
    (release owner keys locks)[key]? =
      if key ∈ keys ∧ locks[key]? = some owner then none else locks[key]? := by
  rw [release]
  induction keys generalizing locks with
  | nil => simp
  | cons k keys ih =>
    rw [List.foldl_cons, ih]
    by_cases hk : k = key
    · subst hk
      by_cases howner : locks[k]? = some owner
      · simp [howner]
      · simp [howner]
    · have hlocks : (if locks[k]? = some owner then locks.erase k else locks)[key]? =
          locks[key]? := by
        split
        · rw [BTree.getElem?_erase, if_neg hk]
        · rfl
      rw [hlocks]
      simp only [List.mem_cons, Ne.symm hk, false_or]

theorem release_frame (owner : ω) (keys : List κ) (locks : LockTable κ ω) :
    Frame owner locks (release owner keys locks) := by
  intro key other hne
  rw [getElem?_release]
  split
  · rename_i hreleased
    rw [hreleased.2]
    exact ⟨by simp, fun h ↦ absurd (Option.some.inj h).symm hne⟩
  · rfl

/-- Nothing is entered by releasing. -/
theorem getElem?_of_release {owner : ω} {keys : List κ} {locks : LockTable κ ω} {key : κ}
    {other : ω} (h : (release owner keys locks)[key]? = some other) : locks[key]? = some other := by
  rw [getElem?_release] at h
  split at h
  · cases h
  · exact h

/-- **An owner that releases all it holds is left with nothing.** -/
theorem getElem?_release_ne {owner : ω} {keys : List κ} {locks : LockTable κ ω}
    (hall : ∀ key, locks[key]? = some owner → key ∈ keys) (key : κ) :
    (release owner keys locks)[key]? ≠ some owner := by
  intro h
  rw [getElem?_release] at h
  split at h
  · cases h
  · rename_i hkept
    exact hkept ⟨hall key h, h⟩

end LockTable
