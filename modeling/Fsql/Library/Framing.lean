import Mathlib.Data.List.Basic

/-!
# Framed records

A record is a list of fields, written one after the other with separators between them and a
terminator at the end.  Written so, records can be told apart if neither the separator nor the
terminator occurs in a field.

* `EscapeCode` — how fields are made so: a mark before a letter stands for a character.  What is
  encoded is decoded (`EscapeCode.decode_encode`), and characters with a letter of their own do not
  occur (`EscapeCode.not_mem_encode`).
* `frame`, `unframe` — writing a record and reading a file of them.
* `unframe_flatMap_frame` — **what is written is read**: no field can end its record, begin another
  one or be taken for two.
-/

set_option autoImplicit false

namespace Framing

variable {α : Type} [DecidableEq α]

/-! ## Escaping -/

/-- A code in which a mark and a letter stand for some of the characters. -/
structure EscapeCode (α : Type) where
  /-- The mark. -/
  mark : α
  /-- The letter of a character that is not written as itself. -/
  letter : α → Option α
  /-- The character that a letter stands for. -/
  unletter : α → α
  /-- The mark is not written as itself. -/
  letter_mark : (letter mark).isSome = true
  /-- A letter stands for the character whose letter it is. -/
  unletter_letter {a b : α} : letter a = some b → unletter b = a

namespace EscapeCode

variable (code : EscapeCode α)

omit [DecidableEq α] in
/-- What one character is written as. -/
def encodeItem (a : α) : List α :=
  match code.letter a with
  | some b => [code.mark, b]
  | none => [a]

omit [DecidableEq α] in
/-- What a text is written as. -/
def encode (l : List α) : List α := l.flatMap code.encodeItem

/-- The text that is written so. -/
def decode : List α → List α
  | [] => []
  | [a] => [a]
  | a :: b :: l => if a = code.mark then code.unletter b :: decode l else a :: decode (b :: l)

theorem decode_cons_of_ne {a : α} (h : a ≠ code.mark) (l : List α) :
    code.decode (a :: l) = a :: code.decode l := by
  rcases l with _ | ⟨b, l⟩
  · rfl
  · rw [decode, if_neg h]

/-- **What is encoded is decoded.** -/
theorem decode_encode (l : List α) : code.decode (code.encode l) = l := by
  induction l with
  | nil => rfl
  | cons a l ih =>
    rw [encode, List.flatMap_cons, ← encode, encodeItem]
    split
    · rename_i b hletter
      rw [List.cons_append, List.singleton_append, decode, if_pos rfl,
        code.unletter_letter hletter, ih]
    · rename_i hletter
      have hne : a ≠ code.mark := by
        rintro rfl
        have hmark := code.letter_mark
        rw [hletter] at hmark
        cases hmark
      rw [List.singleton_append, decode_cons_of_ne code hne, ih]

omit [DecidableEq α] in
/-- **An escaped character does not occur**, unless it serves as the mark or as a letter. -/
theorem not_mem_encode {a : α} (hletter : (code.letter a).isSome = true) (hmark : a ≠ code.mark)
    (hfresh : ∀ b, code.letter b ≠ some a) (l : List α) : a ∉ code.encode l := by
  intro hmem
  obtain ⟨b, -, hmem⟩ := List.mem_flatMap.mp hmem
  rw [encodeItem] at hmem
  split at hmem
  · rename_i c hc
    rcases List.mem_cons.mp hmem with heq | hmem
    · exact hmark heq
    · obtain rfl := List.mem_singleton.mp hmem
      exact hfresh b hc
  · rename_i hnone
    obtain rfl := List.mem_singleton.mp hmem
    rw [hnone] at hletter
    cases hletter

end EscapeCode

/-! ## Records -/

variable {sep stop : α}

/-- A record: its fields with `sep` between them, and `stop` at the end. -/
def frame (sep stop : α) (fields : List (List α)) : List α := [sep].intercalate fields ++ [stop]

/-- The records of a file. -/
def unframe (sep stop : α) (l : List α) : List (List (List α)) :=
  (l.splitOn stop).dropLast.map (·.splitOn sep)

/-- Neither the separator nor the terminator occurs. -/
def IsField (sep stop : α) (field : List α) : Prop := sep ∉ field ∧ stop ∉ field

instance (sep stop : α) (field : List α) : Decidable (IsField sep stop field) :=
  inferInstanceAs (Decidable (_ ∧ _))

omit [DecidableEq α] in
theorem mem_intercalate {fields : List (List α)} {a : α} (h : a ∈ [sep].intercalate fields) :
    a = sep ∨ ∃ field ∈ fields, a ∈ field := by
  induction fields with
  | nil => cases h
  | cons field fields ih =>
    rcases fields with _ | ⟨field', fields⟩
    · rw [List.intercalate_singleton] at h
      exact .inr ⟨field, List.mem_singleton_self field, h⟩
    · rw [List.intercalate_cons_cons, List.mem_append, List.mem_append,
        List.mem_singleton] at h
      rcases h with (h | rfl) | h
      · exact .inr ⟨field, List.mem_cons_self, h⟩
      · exact .inl rfl
      · rcases ih h with rfl | ⟨field'', hmem, ha⟩
        · exact .inl rfl
        · exact .inr ⟨field'', List.mem_cons_of_mem _ hmem, ha⟩

omit [DecidableEq α] in
/-- The terminator does not occur before the end. -/
theorem not_mem_intercalate (hne : sep ≠ stop) {fields : List (List α)}
    (h : ∀ field ∈ fields, IsField sep stop field) : stop ∉ [sep].intercalate fields := by
  intro hmem
  rcases mem_intercalate hmem with heq | ⟨field, hfield, hstop⟩
  · exact hne heq.symm
  · exact (h field hfield).2 hstop

/-- **A record has one terminator.** -/
theorem count_frame (hne : sep ≠ stop) {fields : List (List α)}
    (h : ∀ field ∈ fields, IsField sep stop field) : (frame sep stop fields).count stop = 1 := by
  rw [frame, List.count_append, List.count_eq_zero.mpr (not_mem_intercalate hne h),
    List.count_singleton_self]

omit [DecidableEq α] in
theorem getLast?_frame (fields : List (List α)) :
    (frame sep stop fields).getLast? = some stop := List.getLast?_concat

/-- **A record has its fields.** -/
theorem splitOn_dropLast_frame {fields : List (List α)} (hfields : fields ≠ [])
    (h : ∀ field ∈ fields, IsField sep stop field) :
    (frame sep stop fields).dropLast.splitOn sep = fields := by
  rw [frame, List.dropLast_concat, List.splitOn_intercalate sep (fun field hfield ↦
    (h field hfield).1) hfields]

/-- **The records of a file are read as they were written.** -/
theorem unframe_flatMap_frame (hne : sep ≠ stop) {records : List (List (List α))}
    (h : ∀ fields ∈ records, fields ≠ [] ∧ ∀ field ∈ fields, IsField sep stop field) :
    unframe sep stop (records.flatMap (frame sep stop)) = records := by
  have hsplit : (records.flatMap (frame sep stop)).splitOn stop =
      records.map [sep].intercalate ++ [[]] := by
    induction records with
    | nil => rfl
    | cons fields records ih =>
      rw [List.forall_mem_cons] at h
      rw [List.flatMap_cons, frame, List.append_assoc, List.singleton_append,
        List.splitOn_append_cons_self_of_not_mem (not_mem_intercalate hne h.1.2), ih h.2,
        List.map_cons, List.cons_append]
  have hfields : ∀ fields ∈ records,
      ((·.splitOn sep) ∘ [sep].intercalate) fields = id fields := fun fields hmem ↦
    List.splitOn_intercalate sep (fun field hfield ↦ ((h fields hmem).2 field hfield).1)
      (h fields hmem).1
  rw [unframe, hsplit, List.dropLast_concat, List.map_map, List.map_congr_left hfields,
    List.map_id]

end Framing
