import Fsql.Library.Scanner
import Fsql.Sql.Literal

/-!
# The two splitters

`split_once_top_level` and `split_top_level` go over a text with the same state: the quote that is
open and the parentheses and brackets that are, where a closing one too many is ignored.  They are
`Scanner.splitFirst` and `Scanner.splitAll` of one scanner.

* `Scan.scanner`, `Scan.splitOnce_eq`, `Scan.pieces_eq` — the scanner and that both are its.
* `Scan.cuts_iff` — **a text is cut at a delimiter in the state in which it is begun**, so that the
  text behind a cut is read as a text of its own.
* `Scan.AtTopLevel` — a character stands outside quotes, parentheses and brackets.
* `splitters_agree` — the first cut is the first of all cuts, for any text.
-/

set_option autoImplicit false

namespace Fsql

open Text

namespace Scan

/-- The scanner both splitters are of. -/
def scanner (delimiter : Char) : Scanner Scan Char := ⟨next, fun s ch ↦ s.cuts delimiter ch⟩

/-- `split_once_top_level` stops at the first cut. -/
theorem splitOnce_eq (delimiter : Char) (s : Scan) (input : List Char) :
    splitOnce delimiter s input = (scanner delimiter).splitFirst s input := by
  induction input generalizing s with
  | nil => rfl
  | cons ch input ih =>
    rw [splitOnce, Scanner.splitFirst, ih]
    rfl

/-- `split_top_level` makes all cuts. -/
theorem pieces_eq (delimiter : Char) (s : Scan) (input : List Char) :
    pieces delimiter s input = (scanner delimiter).splitAll s input := by
  induction input generalizing s with
  | nil => rfl
  | cons ch input ih =>
    rw [pieces, Scanner.splitAll, ih, ih]
    rfl

/-- **Where a text is cut**: at a delimiter, if nothing is open. -/
theorem cuts_iff {delimiter : Char} (hdelimiter : Plain delimiter) {s : Scan} {ch : Char} :
    s.cuts delimiter ch = true ↔ ch = delimiter ∧ s = {} := by
  obtain ⟨quote, parens, brackets⟩ := s
  refine ⟨fun h ↦ ?_, ?_⟩
  · simp only [cuts, Bool.and_eq_true, beq_iff_eq, Option.isNone_iff_eq_none] at h
    obtain ⟨⟨⟨⟨rfl, -⟩, rfl⟩, rfl⟩, rfl⟩ := h
    exact ⟨rfl, rfl⟩
  · rintro ⟨rfl, heq⟩
    rw [heq, cuts, beq_self_eq_true, List.contains_eq_mem, decide_eq_false hdelimiter]
    rfl

/-! ## The top level -/

/-- The character stands outside the quotes, parentheses and brackets of the text. -/
def AtTopLevel (ch : Char) (input : List Char) : Prop :=
  ∃ before behind, input = before ++ ch :: behind ∧ before.foldl next {} = {}

/-- A text is cut exactly if the delimiter stands at its top level. -/
theorem splitFirst_eq_none_iff {delimiter : Char} (hdelimiter : Plain delimiter)
    {input : List Char} :
    (scanner delimiter).splitFirst {} input = none ↔ ¬AtTopLevel delimiter input := by
  rw [Scanner.splitFirst_eq_none_iff]
  refine ⟨?_, fun h before ch behind hinput ↦ ?_⟩
  · rintro h ⟨before, behind, hinput, htop⟩
    have hcuts : ((scanner delimiter).run {} before).cuts delimiter delimiter = true :=
      (cuts_iff hdelimiter).mpr ⟨rfl, htop⟩
    exact Bool.false_ne_true ((h before delimiter behind hinput).symm.trans hcuts)
  · refine Bool.eq_false_iff.mpr fun hcuts ↦ h ?_
    obtain ⟨rfl, htop⟩ := (cuts_iff hdelimiter).mp hcuts
    exact ⟨before, behind, hinput, htop⟩

theorem plain_of_isWhitespace {ch : Char} (h : isWhitespace ch = true) : Plain ch := by
  intro hmem
  simp only [List.mem_cons, List.not_mem_nil, or_false] at hmem
  rcases hmem with rfl | rfl | rfl | rfl | rfl | rfl <;> exact absurd h (by decide)

/-- Whitespace opens and closes nothing. -/
theorem foldl_next_of_isWhitespace {l : List Char} (h : ∀ ch ∈ l, isWhitespace ch = true) :
    l.foldl next {} = {} := by
  induction l with
  | nil => rfl
  | cons ch l ih =>
    rw [List.foldl_cons, next_of_plain (plain_of_isWhitespace (h ch List.mem_cons_self)) rfl]
    exact ih fun ch hmem ↦ h ch (List.mem_cons_of_mem _ hmem)

/-- What stands at the top level of a trimmed text did so before. -/
theorem AtTopLevel.of_trim {ch : Char} {input : List Char} (h : AtTopLevel ch (trim input)) :
    AtTopLevel ch input := by
  obtain ⟨before, behind, htrim, htop⟩ := h
  obtain ⟨front, back, hinput, hfront, -⟩ := exists_eq_append_trimBy isWhitespace input
  refine ⟨front ++ before, behind ++ back, ?_, ?_⟩
  · have htrimmed : trimBy isWhitespace input = before ++ ch :: behind := htrim
    rw [htrimmed] at hinput
    rw [hinput, List.append_assoc, List.append_assoc, List.append_assoc, List.cons_append]
  · rw [List.foldl_append, foldl_next_of_isWhitespace hfront, htop]

end Scan

/-! ## The splitters -/

/-- **The two splitters agree**, and nothing is lost: without a cut there is one piece; otherwise
the pieces are what is in front of the first cut and the pieces of what is behind it.  The pieces
make up the text, and the delimiter stands at the top level of none. -/
theorem splitters_agree (input : List Char) {delimiter : Char} (hdelimiter : Scan.Plain delimiter) :
    (splitOnceTopLevel input delimiter = none ↔ (splitTopLevel input delimiter).length = 1) ∧
      (∀ l r, splitOnceTopLevel input delimiter = some (l, r) →
        splitTopLevel input delimiter = trim l :: splitTopLevel r delimiter) ∧
      (splitTopLevel input delimiter = (Scan.pieces delimiter {} input).map trim ∧
        [delimiter].intercalate (Scan.pieces delimiter {} input) = input) ∧
      (∀ piece ∈ Scan.pieces delimiter {} input, ¬Scan.AtTopLevel delimiter piece) ∧
      ∀ piece ∈ splitTopLevel input delimiter, ¬Scan.AtTopLevel delimiter piece := by
  have hcut : ∀ (s : Scan) (ch : Char), (Scan.scanner delimiter).cuts s ch = true →
      ch = delimiter ∧ s = {} := fun s ch h ↦ (Scan.cuts_iff hdelimiter).mp h
  have hpieces : ∀ piece ∈ Scan.pieces delimiter {} input, ¬Scan.AtTopLevel delimiter piece := by
    intro piece hmem
    rw [Scan.pieces_eq] at hmem
    exact (Scan.splitFirst_eq_none_iff hdelimiter).mp
      (Scanner.splitFirst_of_mem_splitAll _ (fun s ch h ↦ (hcut s ch h).2) hmem)
  refine ⟨?_, fun l r h ↦ ?_, ⟨rfl, ?_⟩, hpieces, fun piece hmem htop ↦ ?_⟩
  · rw [splitOnceTopLevel, splitTopLevel, List.length_map, Scan.splitOnce_eq, Scan.pieces_eq]
    exact Scanner.splitFirst_eq_none_iff_length _
  · rw [splitOnceTopLevel, Scan.splitOnce_eq] at h
    obtain ⟨ch, -, hcuts, -⟩ := Scanner.splitFirst_eq_some _ h
    rw [splitTopLevel, splitTopLevel, Scan.pieces_eq, Scan.pieces_eq,
      Scanner.splitAll_of_splitFirst _ h, (hcut _ ch hcuts).2, List.map_cons]
  · rw [Scan.pieces_eq]
    exact Scanner.intercalate_splitAll _ (fun s ch h ↦ (hcut s ch h).1) {} input
  · obtain ⟨whole, hwhole, rfl⟩ := List.mem_map.mp hmem
    exact hpieces whole hwhole htop.of_trim

/-- A closing parenthesis too many, an opening one and a quote that is not terminated. -/
theorem splitters_agree_unbalanced :
    splitTopLevel "a), (b, 'c, d".toList ',' =
      trim "a)".toList :: splitTopLevel " (b, 'c, d".toList ',' := by
  have hcomma : Scan.Plain ',' := by
    rw [Scan.Plain]
    decide
  exact (splitters_agree _ hcomma).2.1 "a)".toList " (b, 'c, d".toList (by decide +kernel)

end Fsql
