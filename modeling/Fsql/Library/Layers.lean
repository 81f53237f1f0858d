import Fsql.Library.Text

/-!
# Peeling a text layer by layer

`peel rank n` trims a text of the characters of rank 0, then of those of rank 1, and so on below
`n`. What is left may begin or end with a character that an earlier layer would have trimmed.  It
does not exactly if the text is `Wrapped`: a core, which is empty or begins and ends with characters
of no layer, inside of layers that are in order on both sides (`peel_ends_iff`).
-/

set_option autoImplicit false

namespace Text

/-- The text without its outer layers. -/
def peel (rank : Char → Nat) : Nat → List Char → List Char
  | 0, l => l
  | n + 1, l => trimBy (fun c ↦ rank c == n) (peel rank n l)

/-- The characters are layers from the `k`-th on and below the `n`-th, the outermost first. -/
structure Layers (rank : Char → Nat) (k n : Nat) (l : List Char) : Prop where
  ranks : ∀ c ∈ l, k ≤ rank c ∧ rank c < n
  ascending : l.Pairwise (rank · ≤ rank ·)

/-- The text is empty, or begins and ends with characters of no layer. -/
structure Core (rank : Char → Nat) (n : Nat) (l : List Char) : Prop where
  head : ∀ c ∈ l.head?, n ≤ rank c
  last : ∀ c ∈ l.getLast?, n ≤ rank c

/-- **The text is a core inside of layers.** -/
def Wrapped (rank : Char → Nat) (n : Nat) (l : List Char) : Prop :=
  ∃ front core back, l = front ++ core ++ back ∧ Layers rank 0 n front ∧ Core rank n core ∧
    Layers rank 0 n back.reverse

variable {rank : Char → Nat} {k n : Nat} {l front core back : List Char}

theorem Layers.nil : Layers rank k n [] := ⟨by simp, .nil⟩

/-- Only the layers that are left are left. -/
theorem Layers.eq_nil (h : Layers rank n n l) : l = [] := by
  rw [List.eq_nil_iff_forall_not_mem]
  intro c hc
  obtain ⟨hle, hlt⟩ := h.ranks c hc
  omega

/-- A layer is at the outside. -/
theorem Layers.dropWhile (h : Layers rank k n l) :
    Layers rank (k + 1) n (l.dropWhile fun c ↦ rank c == k) := by
  induction l with
  | nil => exact .nil
  | cons c l ih =>
    obtain ⟨hranks, hascending⟩ := h
    rw [List.forall_mem_cons] at hranks
    rw [List.pairwise_cons] at hascending
    rw [List.dropWhile_cons]
    split
    · exact ih ⟨hranks.2, hascending.2⟩
    · rename_i hne
      have hlt : k < rank c := by
        have := hranks.1.1
        simp only [beq_iff_eq] at hne
        omega
      refine ⟨List.forall_mem_cons.mpr ⟨⟨hlt, hranks.1.2⟩, fun d hd ↦ ?_⟩,
        List.pairwise_cons.mpr hascending⟩
      have := hascending.1 d hd
      exact ⟨by omega, (hranks.2 d hd).2⟩

/-- What begins inside of a layer stays when the layer is trimmed. -/
theorem dropWhile_append_core (h : ∀ c ∈ core.head?, k < rank c) (hne : core ≠ [])
    (front rest : List Char) :
    (front ++ (core ++ rest)).dropWhile (fun c ↦ rank c == k) =
      front.dropWhile (fun c ↦ rank c == k) ++ (core ++ rest) := by
  have hcore : (core ++ rest).dropWhile (fun c ↦ rank c == k) = core ++ rest := by
    rcases core with _ | ⟨c, core⟩
    · exact absurd rfl hne
    · have hlt := h c rfl
      exact dropWhile_cons_of_not (by simp only [beq_eq_false_iff_ne]; omega) _
  rw [List.dropWhile_append]
  split
  · rename_i hempty
    rw [hcore, List.isEmpty_iff.mp hempty, List.nil_append]
  · rfl

theorem rdropWhile_append_core (h : ∀ c ∈ core.getLast?, k < rank c) (hne : core ≠ [])
    (rest back : List Char) :
    (rest ++ core ++ back.reverse).rdropWhile (fun c ↦ rank c == k) =
      rest ++ core ++ (back.dropWhile fun c ↦ rank c == k).reverse := by
  have hreverse :=
    @dropWhile_append_core rank k core.reverse (by simpa using h) (by simpa using hne)
    back rest.reverse
  rw [List.rdropWhile, List.reverse_append, List.reverse_append, List.reverse_reverse, hreverse]
  simp

/-- **Trimming takes a layer off at both ends.** -/
theorem trimBy_layers (hk : k < n) (hfront : Layers rank k n front) (hcore : Core rank n core)
    (hback : Layers rank k n back) :
    trimBy (fun c ↦ rank c == k) (front ++ core ++ back.reverse) =
      front.dropWhile (fun c ↦ rank c == k) ++ core ++
        (back.dropWhile fun c ↦ rank c == k).reverse := by
  have hinner {l : List Char} (hl : Layers rank k n l) :
      ∀ c ∈ l.dropWhile (fun c ↦ rank c == k), k < rank c := fun c hc ↦ (hl.dropWhile.ranks c hc).1
  rw [trimBy, List.append_assoc]
  by_cases hne : core = []
  · -- Without a core, what is left of one side is a core for the other one.
    subst hne
    rw [List.nil_append, List.append_nil]
    by_cases hempty : front.dropWhile (fun c ↦ rank c == k) = []
    · rw [List.dropWhile_append, hempty, List.isEmpty_nil, if_pos rfl, List.nil_append]
      by_cases hback' : back.dropWhile (fun c ↦ rank c == k) = []
      · have hall : ∀ c ∈ back.reverse, (rank c == k) = true := by
          simpa [List.dropWhile_eq_nil_iff] using hback'
        rw [List.dropWhile_eq_nil_iff.mpr hall, hback']
        rfl
      · have hcut : back.reverse = (back.dropWhile fun c ↦ rank c == k).reverse ++
            (back.takeWhile fun c ↦ rank c == k).reverse := by
          rw [← List.reverse_append, List.takeWhile_append_dropWhile]
        have hkeep := @dropWhile_append_core rank k (back.dropWhile fun c ↦ rank c == k).reverse
          (fun c hc ↦ hinner hback c (List.mem_reverse.mp (List.mem_of_mem_head? hc)))
          (by simpa using hback') [] (back.takeWhile fun c ↦ rank c == k).reverse
        rw [← hcut, List.nil_append, List.dropWhile_nil, List.nil_append] at hkeep
        rw [hkeep, List.rdropWhile_reverse]
    · have hkeep := @rdropWhile_append_core rank k (front.dropWhile fun c ↦ rank c == k)
        (fun c hc ↦ hinner hfront c (List.mem_of_mem_getLast? hc)) hempty [] back
      rw [List.dropWhile_append, if_neg (by simpa using hempty)]
      exact hkeep
  · rw [dropWhile_append_core (fun c hc ↦ Nat.lt_of_lt_of_le hk (hcore.head c hc)) hne,
      ← List.append_assoc]
    exact rdropWhile_append_core (fun c hc ↦ Nat.lt_of_lt_of_le hk (hcore.last c hc)) hne _ back

/-- **A core is what is left of a wrapped text.** -/
theorem peel_wrapped (hfront : Layers rank 0 n front) (hcore : Core rank n core)
    (hback : Layers rank 0 n back) (hk : k ≤ n) :
    ∃ front' back', Layers rank k n front' ∧ Layers rank k n back' ∧
      peel rank k (front ++ core ++ back.reverse) = front' ++ core ++ back'.reverse := by
  induction k with
  | zero => exact ⟨front, back, hfront, hback, rfl⟩
  | succ k ih =>
    obtain ⟨front', back', hfront', hback', heq⟩ := ih (Nat.le_of_succ_le hk)
    refine ⟨_, _, hfront'.dropWhile, hback'.dropWhile, ?_⟩
    rw [peel, heq, trimBy_layers hk hfront' hcore hback']

/-- **What is taken off a text are layers.** -/
theorem layers_of_peel (rank : Char → Nat) (n : Nat) (l : List Char) : ∃ front back,
    Layers rank 0 n front ∧ Layers rank 0 n back ∧ l = front ++ peel rank n l ++ back.reverse := by
  induction n with
  | zero => exact ⟨[], [], .nil, .nil, by simp [peel]⟩
  | succ n ih =>
    obtain ⟨front, back, hfront, hback, heq⟩ := ih
    -- The new layer is behind the old ones, and all of its characters have its rank.
    have hnew {old new : List Char} (hold : Layers rank 0 n old) (h : ∀ c ∈ new, rank c = n) :
        Layers rank 0 (n + 1) (old ++ new) := by
      constructor
      · intro c hc
        rcases List.mem_append.mp hc with hc | hc
        · have := (hold.ranks c hc).2
          omega
        · have := h c hc
          omega
      · rw [List.pairwise_append]
        refine ⟨hold.ascending, List.pairwise_of_forall_mem_list fun c hc d hd ↦ ?_,
          fun c hc d hd ↦ ?_⟩
        · rw [h c hc, h d hd]
        · have := (hold.ranks c hc).2
          rw [h d hd]
          omega
    rw [show peel rank (n + 1) l = trimBy (fun c ↦ rank c == n) (peel rank n l) from rfl, trimBy]
    generalize peel rank n l = rest at heq ⊢
    have hcut := List.takeWhile_append_dropWhile (p := fun c ↦ rank c == n) (l := rest)
    generalize hinside : rest.dropWhile (fun c ↦ rank c == n) = inside at hcut ⊢
    have hcut' := List.rdropWhile_append_rtakeWhile (p := fun c ↦ rank c == n) (l := inside)
    refine ⟨front ++ rest.takeWhile fun c ↦ rank c == n,
      back ++ (inside.rtakeWhile fun c ↦ rank c == n).reverse, hnew hfront fun c hc ↦ ?_,
      hnew hback fun c hc ↦ ?_, ?_⟩
    · exact beq_iff_eq.mp (List.mem_takeWhile_imp (p := fun c ↦ rank c == n) hc)
    · exact beq_iff_eq.mp
        (List.mem_rtakeWhile_imp (p := fun c ↦ rank c == n) (List.mem_reverse.mp hc))
    · rw [heq, List.reverse_append, List.reverse_reverse]
      nth_rewrite 1 [← hcut, ← hcut']
      simp only [List.append_assoc]

/-- **When peeling leaves nothing to peel**: exactly if the text is wrapped. -/
theorem core_peel_iff : Core rank n (peel rank n l) ↔ Wrapped rank n l := by
  constructor
  · intro h
    obtain ⟨front, back, hfront, hback, heq⟩ := layers_of_peel rank n l
    exact ⟨front, _, back.reverse, heq, hfront, h, by rwa [List.reverse_reverse]⟩
  · rintro ⟨front, core, back, rfl, hfront, hcore, hback⟩
    obtain ⟨front', back', hfront', hback', heq⟩ := peel_wrapped hfront hcore hback (Nat.le_refl n)
    rw [List.reverse_reverse] at heq
    rw [heq, hfront'.eq_nil, hback'.eq_nil]
    simpa using hcore

/-- A core is not peeled. -/
theorem Core.peel_eq (h : Core rank n l) (hk : k ≤ n) : peel rank k l = l := by
  induction k with
  | zero => rfl
  | succ k ih =>
    rw [peel, ih (Nat.le_of_succ_le hk)]
    refine trimBy_eq_self (fun c hc ↦ ?_) fun c hc ↦ ?_
    · have := h.head c hc
      simp only [beq_eq_false_iff_ne]
      omega
    · have := h.last c hc
      simp only [beq_eq_false_iff_ne]
      omega

theorem peel_sublist (rank : Char → Nat) (n : Nat) (l : List Char) : (peel rank n l).Sublist l := by
  induction n with
  | zero => exact List.Sublist.refl l
  | succ n ih => exact (trimBy_sublist _ _).trans ih

/-- **Only a core is not peeled.** -/
theorem peel_eq_self_iff : peel rank n l = l ↔ Core rank n l := by
  refine ⟨fun h ↦ ?_, fun h ↦ h.peel_eq (Nat.le_refl n)⟩
  induction n with
  | zero => exact ⟨fun _ _ ↦ Nat.zero_le _, fun _ _ ↦ Nat.zero_le _⟩
  | succ n ih =>
    have hprevious : peel rank n l = l := by
      refine (peel_sublist rank n l).antisymm ?_
      nth_rewrite 1 [← h]
      exact trimBy_sublist _ _
    rw [peel, hprevious] at h
    obtain ⟨hhead, hlast⟩ := not_of_trimBy_eq_self h
    obtain ⟨hhead', hlast'⟩ := ih hprevious
    refine ⟨fun c hc ↦ ?_, fun c hc ↦ ?_⟩
    · have hne := hhead c hc
      have hle := hhead' c hc
      rw [beq_eq_false_iff_ne] at hne
      omega
    · have hne := hlast c hc
      have hle := hlast' c hc
      rw [beq_eq_false_iff_ne] at hne
      omega

end Text
