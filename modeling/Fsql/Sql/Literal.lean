import Fsql.Library.Doubling
import Fsql.Sql.Parser

/-!
# Quoted literals

`parse_quoted_string` looks at the two ends of a text and takes what is between them for the
literal, whatever it is (`parseQuotedString_eq_some_iff`).  No literal is infinite or a NaN
(`parseValue_isFinite`).

The loops that split a text pass over characters that are neither quotes nor brackets nor the
delimiter (`Scan.pieces_plain`, `Scan.splitOnce_plain`).
-/

set_option autoImplicit false

namespace Fsql

open Text

/-! ## Values -/

/-- The quotes a literal can have. -/
def IsQuote (q : Char) : Prop := q = '\'' ∨ q = '"'

/-- What a quoted string is for the parser. -/
theorem parseQuotedString_eq_some_iff {input s : List Char} :
    parseQuotedString input = some s ↔
      ∃ q body, IsQuote q ∧ input = q :: (body ++ [q]) ∧ s = undouble q body := by
  constructor
  · intro h
    unfold parseQuotedString at h
    split at h
    · rename_i q c rest
      split at h
      · rename_i hcond
        obtain ⟨hquote, hlast⟩ := hcond
        obtain ⟨body, hbody⟩ := List.getLast?_eq_some_iff.mp hlast
        rw [hbody, List.dropLast_concat] at h
        exact ⟨q, body, hquote, by rw [hbody], (Option.some.inj h).symm⟩
      · cases h
    · cases h
  · rintro ⟨q, body, hquote, rfl, rfl⟩
    have hne : body ++ [q] ≠ [] := by simp
    obtain ⟨c, rest, hrest⟩ := List.exists_cons_of_ne_nil hne
    rw [hrest, parseQuotedString, ← hrest, if_pos ⟨hquote, List.getLast?_concat⟩,
      List.dropLast_concat]

/-- A computation in two steps succeeds if both do. -/
theorem bind_eq_ok_iff {ε α β : Type} {x : Except ε α} {f : α → Except ε β} {b : β} :
    (x >>= f) = .ok b ↔ ∃ a, x = .ok a ∧ f a = .ok b := by
  cases x with
  | error e => exact ⟨fun h ↦ (by cases h), fun ⟨a, h, _⟩ ↦ (by cases h)⟩
  | ok a => exact ⟨fun h ↦ ⟨a, rfl, h⟩, fun ⟨a', h, hf⟩ ↦ Except.ok.inj h ▸ hf⟩

/-- It ends early if one of them does. -/
theorem bind_eq_error_iff {ε α β : Type} {x : Except ε α} {f : α → Except ε β} {e : ε} :
    (x >>= f) = .error e ↔ x = .error e ∨ ∃ a, x = .ok a ∧ f a = .error e := by
  cases x with
  | error e' =>
    refine ⟨fun h ↦ .inl (congrArg Except.error (Except.error.inj h)), ?_⟩
    rintro (h | ⟨a, h, -⟩)
    · exact congrArg Except.error (Except.error.inj h)
    · cases h
  | ok a =>
    refine ⟨fun h ↦ .inr ⟨a, rfl, h⟩, ?_⟩
    rintro (h | ⟨a', h, hf⟩)
    · cases h
    · exact Except.ok.inj h ▸ hf

/-- A result is lifted as it is, -/
theorem monadLift_eq_ok_iff {α : Type} {x : Result α} {a : α} :
    (liftM x : Parse α) = .ok a ↔ x = .ok a := by
  rcases x with error | a'
  · exact ⟨fun h ↦ (by cases h), fun h ↦ (by cases h)⟩
  · exact
      ⟨fun h ↦ congrArg Except.ok (Except.ok.inj h), fun h ↦ congrArg Except.ok (Except.ok.inj h)⟩

/-- and does not panic. -/
theorem monadLift_ne_panic {α : Type} (x : Result α) : (liftM x : Parse α) ≠ .error .panic := by
  rcases x with error | a
  · intro h
    cases Except.error.inj h
  · intro h
    cases h

theorem parseF64_isFinite {input : List Char} {x : F64} (h : parseF64 input = .ok x) :
    x.isFinite = true := by
  rw [parseF64] at h
  split at h
  · cases h
  · split at h
    · obtain rfl := Except.ok.inj h
      assumption
    · cases h

theorem parseF32_isFinite {input : List Char} {x : F32} (h : parseF32 input = .ok x) :
    x.isFinite = true := by
  rw [parseF32] at h
  split at h
  · cases h
  · split at h
    · obtain rfl := Except.ok.inj h
      assumption
    · cases h

/-- What is read one by one has what each has that is read. -/
theorem forall_of_mapM {α β : Type} {f : α → Result β} {P : β → Prop}
    (h : ∀ a b, f a = .ok b → P b) {l : List α} {l' : List β} (hl : l.mapM f = .ok l') :
    ∀ b ∈ l', P b := by
  induction l generalizing l' with
  | nil =>
    obtain rfl := Except.ok.inj hl
    exact fun b hb ↦ absurd hb List.not_mem_nil
  | cons a l ih =>
    rw [List.mapM_cons] at hl
    obtain ⟨b, hb, hl⟩ := bind_eq_ok_iff.mp hl
    obtain ⟨bs, hbs, hl⟩ := bind_eq_ok_iff.mp hl
    obtain rfl := Except.ok.inj hl
    exact List.forall_mem_cons.mpr ⟨h a b hb, ih hbs⟩

/-- **A literal is finite.** -/
theorem parseValue_isFinite {input : List Char} {value : Value} (h : parseValue input = .ok value) :
    value.isFinite = true := by
  unfold parseValue at h
  simp only at h
  split at h
  · obtain rfl := Except.ok.inj h
    rfl
  split at h
  · obtain rfl := Except.ok.inj h
    rfl
  split at h
  · obtain rfl := Except.ok.inj h
    rfl
  split at h
  · obtain rfl := Except.ok.inj h
    rfl
  split at h
  · obtain ⟨body, -, h⟩ := bind_eq_ok_iff.mp h
    split at h
    · obtain ⟨lon, hlon, h⟩ := bind_eq_ok_iff.mp h
      obtain ⟨lat, hlat, h⟩ := bind_eq_ok_iff.mp h
      obtain rfl := Except.ok.inj h
      rw [Value.isFinite, Point.isFinite, parseF64_isFinite hlon, parseF64_isFinite hlat]
      rfl
    · cases h
  split at h
  · split at h
    · obtain rfl := Except.ok.inj h
      rfl
    · obtain ⟨vector, hvector, h⟩ := bind_eq_ok_iff.mp h
      obtain rfl := Except.ok.inj h
      rw [Value.isFinite, List.all_eq_true]
      exact forall_of_mapM (fun _ _ ↦ parseF32_isFinite) hvector
  split at h
  · obtain ⟨x, hx, h⟩ := bind_eq_ok_iff.mp h
    obtain rfl := Except.ok.inj h
    exact parseF64_isFinite hx
  split at h
  · obtain rfl := Except.ok.inj h
    rfl
  · cases h

/-! ## Literals -/

/-- A text between single quotes. -/
def enclosed (body : List Char) : List Char := '\'' :: (body ++ ['\''])

/-- A string as a literal: in single quotes, its own single quotes doubled. -/
def quoted (s : String) : String := String.ofList (enclosed (double '\'' s.toList))

/-- A text in quotes is none of the words that stand for a value. -/
theorem eqIgnoreCase_of_isQuote {q : Char} (h : IsQuote q) (l : List Char) :
    eqIgnoreCase (q :: l) "NULL".toList = false ∧ eqIgnoreCase (q :: l) "TRUE".toList = false ∧
      eqIgnoreCase (q :: l) "FALSE".toList = false := by
  rcases h with rfl | rfl <;> exact ⟨rfl, rfl, rfl⟩

/-- **What is read as a string**: what begins and ends with the same quote. -/
theorem parseValue_eq_text_iff {input : List Char} {s : String} :
    parseValue input = .ok (.text s) ↔ ∃ q body, IsQuote q ∧ trim input = q :: (body ++ [q]) ∧
      s = String.ofList (undouble q body) := by
  constructor
  · intro h
    unfold parseValue at h
    simp only at h
    -- of the branches, one makes a text
    split at h
    · cases h
    split at h
    · cases h
    split at h
    · cases h
    split at h
    · rename_i value hvalue
      obtain ⟨q, body, hquote, heq, rfl⟩ := parseQuotedString_eq_some_iff.mp hvalue
      injection h with h
      injection h with h
      exact ⟨q, body, hquote, heq, h.symm⟩
    split at h
    · obtain ⟨body, -, h⟩ := bind_eq_ok_iff.mp h
      split at h
      · obtain ⟨lon, -, h⟩ := bind_eq_ok_iff.mp h
        obtain ⟨lat, -, h⟩ := bind_eq_ok_iff.mp h
        cases h
      · cases h
    split at h
    · split at h
      · cases h
      · obtain ⟨vector, -, h⟩ := bind_eq_ok_iff.mp h
        cases h
    split at h
    · obtain ⟨value, -, h⟩ := bind_eq_ok_iff.mp h
      cases h
    split at h <;> cases h
  · rintro ⟨q, body, hquote, heq, rfl⟩
    obtain ⟨hnull, htrue, hfalse⟩ := eqIgnoreCase_of_isQuote hquote (body ++ [q])
    have hstring : parseQuotedString (q :: (body ++ [q])) = some (undouble q body) :=
      parseQuotedString_eq_some_iff.mpr ⟨q, body, hquote, rfl, rfl⟩
    rw [parseValue, heq]
    simp only [hnull, htrue, hfalse, hstring, Bool.false_eq_true, if_false]

/-- The text is a string in quotes, with the same quotes doubled inside. -/
def IsLiteral (text : List Char) (s : String) : Prop :=
  ∃ q, IsQuote q ∧ text = q :: (double q s.toList ++ [q])

/-- In a text in quotes, the quotes inside are doubled. -/
def QuotesDoubled (text : List Char) : Prop :=
  ∀ q body, IsQuote q → text = q :: (body ++ [q]) → Doubled q body = true

/-- **When what is read as a string is one literal.** -/
theorem isLiteral_iff {input : List Char} {s : String} (h : parseValue input = .ok (.text s)) :
    IsLiteral (trim input) s ↔ QuotesDoubled (trim input) := by
  obtain ⟨q, body, hquote, heq, rfl⟩ := parseValue_eq_text_iff.mp h
  rw [IsLiteral, QuotesDoubled, heq, String.toList_ofList]
  constructor
  · rintro ⟨q', -, heq'⟩ q'' body'' - heq''
    obtain ⟨rfl, hbody⟩ := List.cons.inj heq'
    obtain ⟨rfl, hbody''⟩ := List.cons.inj heq''
    have hdouble := List.append_inj_left' hbody rfl
    obtain rfl := List.append_inj_left' hbody'' rfl
    exact double_undouble_iff.mp hdouble.symm
  · intro hdoubled
    refine ⟨q, hquote, ?_⟩
    rw [double_undouble_iff.mpr (hdoubled q body hquote rfl)]

/-- A text that is enclosed in quotes is a string, whatever is in between. -/
theorem parseValue_enclosed {input body : List Char} (h : trim input = enclosed body) :
    parseValue input = .ok (.text (String.ofList (undouble '\'' body))) :=
  parseValue_eq_text_iff.mpr ⟨'\'', body, .inl rfl, h, rfl⟩

/-! ## Splitting -/

namespace Scan

/-- A character that only a delimiter can be told from. -/
def Plain (ch : Char) : Prop := ch ∉ ['\'', '"', '(', ')', '[', ']']

theorem next_of_plain {ch : Char} (h : Plain ch) {s : Scan} (hs : s.quote = none) :
    s.next ch = s := by
  simp only [Plain, List.mem_cons, List.not_mem_nil, or_false, not_or] at h
  obtain ⟨h1, h2, h3, h4, h5, h6⟩ := h
  rw [next, hs]
  simp only [h1, h2, h3, h4, h5, h6, or_false, if_false]

theorem cuts_of_ne {delimiter ch : Char} (h : ch ≠ delimiter) (s : Scan) :
    s.cuts delimiter ch = false := by
  rw [cuts, beq_eq_false_iff_ne.mpr h, Bool.and_false, Bool.false_and, Bool.false_and]

/-- In quotes, no character is a delimiter. -/
theorem cuts_of_quote (s : Scan) {q : Char} (h : s.quote = some q) (delimiter ch : Char) :
    s.cuts delimiter ch = false := by
  rw [cuts, h]
  rfl

/-- A quote is no delimiter. -/
theorem cuts_quote (s : Scan) (delimiter : Char) : s.cuts delimiter '\'' = false := by
  simp [cuts]

/-- **The pieces of a text do not end in a literal** whose quotes are doubled. -/
theorem pieces_literal (delimiter : Char) (parens brackets : Nat) (l rest : List Char) :
    pieces delimiter ⟨some '\'', parens, brackets⟩ (double '\'' l ++ '\'' :: rest) =
      (pieces delimiter ⟨none, parens, brackets⟩ rest).modifyHead
        (double '\'' l ++ '\'' :: ·) := by
  induction l with
  | nil =>
    rw [double_nil, List.nil_append, pieces, cuts_quote, if_neg Bool.false_ne_true]
    rfl
  | cons ch l ih =>
    by_cases hch : ch = '\''
    · -- a doubled quote closes the literal and opens it again
      subst hch
      rw [double_cons_self, List.cons_append, List.cons_append, pieces, cuts_quote,
        if_neg Bool.false_ne_true, pieces, cuts_quote, if_neg Bool.false_ne_true,
        List.modifyHead_modifyHead]
      have hnext : (Scan.next ⟨some '\'', parens, brackets⟩ '\'').next '\'' =
          ⟨some '\'', parens, brackets⟩ := rfl
      rw [hnext, ih, List.modifyHead_modifyHead]
      rfl
    · have hnext : Scan.next ⟨some '\'', parens, brackets⟩ ch = ⟨some '\'', parens, brackets⟩ :=
        if_neg hch
      rw [double_cons_of_ne hch, List.cons_append, pieces, cuts_of_quote _ rfl,
        if_neg Bool.false_ne_true, hnext, ih, List.modifyHead_modifyHead]
      rfl

/-- **The pieces of a text do not end in plain characters** other than the delimiter. -/
theorem pieces_plain {delimiter : Char} {w : List Char} (h : ∀ ch ∈ w, Plain ch ∧ ch ≠ delimiter)
    {s : Scan} (hs : s.quote = none) (rest : List Char) :
    pieces delimiter s (w ++ rest) = (pieces delimiter s rest).modifyHead (w ++ ·) := by
  induction w with
  | nil => exact (congrFun List.modifyHead_id (pieces delimiter s rest)).symm
  | cons ch w ih =>
    obtain ⟨hplain, hne⟩ := h ch List.mem_cons_self
    rw [List.cons_append, pieces, cuts_of_ne hne, if_neg Bool.false_ne_true,
      next_of_plain hplain hs,
      ih (fun ch hmem ↦ h ch (List.mem_cons_of_mem _ hmem)), List.modifyHead_modifyHead]
    rfl

/-- **A list of one literal**, behind a text that is not looked at. -/
theorem pieces_enclosed {delimiter : Char} {w : List Char}
    (h : ∀ ch ∈ w, Plain ch ∧ ch ≠ delimiter) (l : List Char) :
    pieces delimiter {} (w ++ enclosed (double '\'' l)) = [w ++ enclosed (double '\'' l)] := by
  have hopen : pieces delimiter {} (enclosed (double '\'' l)) =
      (pieces delimiter ⟨some '\'', 0, 0⟩ (double '\'' l ++ ['\''])).modifyHead ('\'' :: ·) := by
    rw [enclosed, pieces, cuts_quote, if_neg Bool.false_ne_true]
    rfl
  rw [pieces_plain h rfl, hopen, pieces_literal, pieces, List.modifyHead_cons, List.modifyHead_cons,
    List.modifyHead_cons]
  rfl

/-- The text is cut at the first delimiter behind plain characters. -/
theorem splitOnce_plain {delimiter : Char} (hdelimiter : Plain delimiter) {w : List Char}
    (h : ∀ ch ∈ w, Plain ch ∧ ch ≠ delimiter) (rest : List Char) :
    splitOnce delimiter {} (w ++ delimiter :: rest) = some (w, rest) := by
  induction w with
  | nil =>
    have hcuts : ({} : Scan).cuts delimiter delimiter = true := by
      simp only [Plain] at hdelimiter
      simp [cuts, hdelimiter]
    rw [List.nil_append, splitOnce, if_pos hcuts]
  | cons ch w ih =>
    obtain ⟨hplain, hne⟩ := h ch List.mem_cons_self
    rw [List.cons_append, splitOnce, cuts_of_ne hne, if_neg Bool.false_ne_true,
      next_of_plain hplain rfl, ih (fun ch hmem ↦ h ch (List.mem_cons_of_mem _ hmem))]
    rfl

end Scan

/-- **A literal whose quotes are doubled opens and closes no group.** -/
theorem multipleGroups_literal (parens groups : Nat) (l rest : List Char) :
    multipleGroups (some '\'') parens groups (double '\'' l ++ '\'' :: rest) =
      multipleGroups none parens groups rest := by
  induction l with
  | nil =>
    rw [double_nil, List.nil_append, multipleGroups, if_pos rfl]
  | cons ch l ih =>
    by_cases hch : ch = '\''
    · subst hch
      rw [double_cons_self, List.cons_append, List.cons_append, multipleGroups, if_pos rfl,
        multipleGroups, if_pos (.inl rfl), ih]
    · rw [double_cons_of_ne hch, List.cons_append, multipleGroups, if_neg hch, ih]

end Fsql
