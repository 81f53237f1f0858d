import Fsql.Library.Words
import Fsql.Sql.Literal

/-!
# Words and the forms of statements

A statement about the values of a row is a few words and values.  The words of this file are made of
ASCII letters, digits and underscores: nothing is trimmed from them, no delimiter is in them, and
their stored form is the word in lower case.  The first keyword of a text decides which of the
parsers is asked, and with it which search for phrases that are not supported.
-/

set_option autoImplicit false

namespace Fsql

open Text

/-! ## Words -/

/-- The characters of a word: ASCII letters, digits and the underscore. -/
def isWordChar (c : Char) : Bool := c.isAlphanum || c == '_'

theorem isWhitespace_of_isWordChar {c : Char} (h : isWordChar c = true) :
    isWhitespace c = false := by
  simp only [isWordChar, Char.isAlphanum, isAlpha_eq, isLower_eq, isUpper_eq, Char.isDigit,
    ge_iff_le, UInt32.le_iff_toNat_le, Bool.or_eq_true, Bool.and_eq_true, decide_eq_true_eq,
    beq_iff_eq, Char.reduceVal, UInt32.reduceToNat, Char.toNat_val] at h
  rcases h with h | rfl
  · simp only [isWhitespace, Bool.or_eq_false_iff, Bool.and_eq_false_iff, decide_eq_false_iff_not,
      beq_eq_false_iff_ne]
    omega
  · decide

section Word

variable {l : List Char} (h : ∀ c ∈ l, isWordChar c = true)
include h

/-- A character that is not one of words does not occur. -/
theorem not_mem_word {c : Char} (hc : isWordChar c = false) : c ∉ l := by
  intro hmem
  rw [h c hmem] at hc
  cases hc

theorem not_mem_lower_word {c : Char} (hc : isWordChar c = false) : c ∉ lower l := by
  have halpha : c.isAlpha = false := by
    rw [isWordChar, Char.isAlphanum, Bool.or_eq_false_iff, Bool.or_eq_false_iff] at hc
    exact hc.1.1
  rw [mem_lower_iff halpha]
  exact not_mem_word h hc

theorem isWord_of_isWordChar (hne : l ≠ []) : IsWord l :=
  ⟨hne, fun c hc ↦ isWhitespace_of_isWordChar (h c hc)⟩

theorem plain_word {c : Char} (hc : c ∈ l) : Scan.Plain c ∧ c ≠ '=' ∧ c ≠ ',' := by
  have hne {d : Char} (hd : isWordChar d = false) : c ≠ d := fun hcd ↦ not_mem_word h hd (hcd ▸ hc)
  simp only [Scan.Plain, List.mem_cons, List.not_mem_nil, or_false, not_or]
  exact ⟨⟨hne rfl, hne rfl, hne rfl, hne rfl, hne rfl, hne rfl⟩, hne rfl, hne rfl⟩

/-- The stored form of a word is the word in lower case. -/
theorem normalizeIdentifier_word (hne : l ≠ []) :
    normalizeIdentifier (String.ofList l) = String.ofList (lower l) := by
  have htrim {q : Char} (hq : isWordChar q = false) : trimMatches q l = l := by
    refine trimBy_eq_self (fun c hc ↦ ?_) (fun c hc ↦ ?_)
    · exact beq_eq_false_iff_ne.mpr fun hcq ↦ not_mem_word h hq (hcq ▸ List.mem_of_mem_head? hc)
    · exact beq_eq_false_iff_ne.mpr fun hcq ↦ not_mem_word h hq (hcq ▸ List.mem_of_mem_getLast? hc)
  rw [normalizeIdentifier, String.toList_ofList, (isWord_of_isWordChar h hne).trim_eq, htrim rfl,
    htrim rfl, htrim rfl]

/-- A word is a table to select from. -/
theorem isAdvancedFrom_word (hne : l ≠ []) : isAdvancedFrom l = false := by
  have hfree {pattern : List Char} {c : Char} (hc : isWordChar c = false) (hmem : c ∈ pattern) :
      contains (lower l) pattern = false := by
    rw [Bool.eq_false_iff, Ne, contains_iff]
    exact fun hoccurs ↦ not_mem_lower_word h hc (hoccurs.subset hmem)
  have hword := isWord_of_isWordChar h hne
  rw [isAdvancedFrom, hword.trim_eq, splitWhitespace_word hword.2 hne]
  simp only [containsAny, List.any_cons, List.any_nil]
  rw [@hfree " join ".toList ' ' rfl (by decide), @hfree ",".toList ',' rfl (by decide),
    @hfree " as ".toList ' ' rfl (by decide), @hfree "(".toList '(' rfl (by decide)]
  simp

end Word

/-- A prefix without blanks is looked for in the first word. -/
theorem startsWithCi_append {pre : List Char} (h : ∀ c ∈ pre, c.toLower ≠ ' ')
    (w rest : List Char) :
    startsWithCi (w ++ ' ' :: rest) pre = startsWithCi w pre := by
  induction pre generalizing w with
  | nil => rw [startsWithCi, startsWithCi]
  | cons p pre ih =>
    cases w with
    | nil =>
      have hp : (' ' == p.toLower) = false := beq_eq_false_iff_ne.mpr (h p List.mem_cons_self).symm
      rw [List.nil_append, startsWithCi, startsWithCi, show ' '.toLower = ' ' from rfl, hp,
        Bool.false_and]
    | cons c w =>
      rw [List.cons_append, startsWithCi, startsWithCi,
        ih fun c hc ↦ h c (List.mem_cons_of_mem p hc)]

/-! ## Dispatch -/

/-- A statement that begins with another letter is not about transactions. -/
theorem not_transaction {c : Char} (h : c ∈ ['S', 'I', 'U', 'D']) (l : List Char)
    (dialect : SqlDialect) : isBegin (c :: l) dialect = false ∧ isCommit (c :: l) dialect = false ∧
      isRollback (c :: l) dialect = false := by
  simp only [List.mem_cons, List.not_mem_nil, or_false] at h
  rcases h with rfl | rfl | rfl | rfl <;> cases dialect <;> exact ⟨rfl, rfl, rfl⟩

theorem parseStatement_select (rest : List Char) (dialect : SqlDialect) :
    parseStatement ("SELECT ".toList ++ rest) dialect = (do
      if ← isAdvancedSelect ("SELECT ".toList ++ rest) then
        parseParsedOnly ("SELECT ".toList ++ rest) .select "SELECT"
      else parseSelect ("SELECT ".toList ++ rest)) := by
  obtain ⟨hbegin, hcommit, hrollback⟩ := @not_transaction 'S' (by decide) ("ELECT ".toList ++ rest)
    dialect
  unfold parseStatement
  simp only [show "SELECT ".toList ++ rest = 'S' :: ("ELECT ".toList ++ rest) from rfl, hbegin,
    hcommit, hrollback]
  rfl

theorem parseStatement_insert (rest : List Char) (dialect : SqlDialect) :
    parseStatement ("INSERT INTO ".toList ++ rest) dialect = (do
      if isAdvancedInsert ("INSERT INTO ".toList ++ rest) then
        parseAdvancedInsertKind ("INSERT INTO ".toList ++ rest) .insert "INSERT INTO"
      else parseInsert ("INSERT INTO ".toList ++ rest) : Parse Statement) := by
  obtain ⟨hbegin, hcommit, hrollback⟩ := @not_transaction 'I' (by decide)
    ("NSERT INTO ".toList ++ rest) dialect
  unfold parseStatement
  simp only [show "INSERT INTO ".toList ++ rest = 'I' :: ("NSERT INTO ".toList ++ rest) from rfl,
    hbegin, hcommit, hrollback]
  rfl

theorem parseStatement_delete (rest : List Char) (dialect : SqlDialect) :
    parseStatement ("DELETE FROM ".toList ++ rest) dialect = (do
      if isAdvancedDelete ("DELETE FROM ".toList ++ rest) then
        parseParsedOnly ("DELETE FROM ".toList ++ rest) .delete "DELETE FROM"
      else parseDelete ("DELETE FROM ".toList ++ rest) : Parse Statement) := by
  obtain ⟨hbegin, hcommit, hrollback⟩ := @not_transaction 'D' (by decide)
    ("ELETE FROM ".toList ++ rest) dialect
  unfold parseStatement
  simp only [show "DELETE FROM ".toList ++ rest = 'D' :: ("ELETE FROM ".toList ++ rest) from rfl,
    hbegin, hcommit, hrollback]
  rfl

theorem parseStatement_update {rest : List Char} (dialect : SqlDialect)
    (h : startsWithCi rest "OR ".toList = false) :
    parseStatement ("UPDATE ".toList ++ rest) dialect = (do
      if isAdvancedUpdate ("UPDATE ".toList ++ rest) then
        parseParsedOnly ("UPDATE ".toList ++ rest) .update "UPDATE"
      else parseUpdate ("UPDATE ".toList ++ rest) : Parse Statement) := by
  obtain ⟨hbegin, hcommit, hrollback⟩ := @not_transaction 'U' (by decide)
    ("PDATE ".toList ++ rest) dialect
  have hor : startsWithCi ('U' :: ("PDATE ".toList ++ rest)) "UPDATE OR ".toList = false := h
  unfold parseStatement
  simp only [show "UPDATE ".toList ++ rest = 'U' :: ("PDATE ".toList ++ rest) from rfl, hor, hbegin,
    hcommit, hrollback]
  rfl

end Fsql
