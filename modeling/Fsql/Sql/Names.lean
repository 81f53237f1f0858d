import Fsql.Sql.Clauses
import Fsql.Sql.Forms

/-!
# Ordinary names and integers in a statement

An application that makes up its statements from names and integers expects them to be read as names
and integers.  An `OrdinaryName` is a word in lower case that is no keyword, and may contain one or
begin with one; an `IntegerLiteral` is a sign and digits.  This file says what the parts of the
parser do with them:

* `OrdinaryName.identifier_eq`, `IntegerLiteral.parseValue_eq` — each is read as itself.
* `IsRow`s of them, with the fixed words of a statement in between, have a phrase in them only if a
  name begins like it: `containsAny_row_eq_false_iff`.
* `parseFilter_equation_iff` — an equation of the two is read as a filter, unless the name begins
  like a predicate.
-/

set_option autoImplicit false

namespace Fsql

open Number Text

/-! ## Names -/

/-- The characters of an ordinary name: lower-case letters, digits and the underscore. -/
def isNameChar (c : Char) : Bool := c.isLower || c.isDigit || c == '_'

/-- The keywords that an ordinary name must not be. -/
def reservedNames : List String :=
  ["as", "check", "collate", "constraint", "default", "except", "foreign", "from", "generated",
    "group", "having", "intersect", "limit", "not", "offset", "on", "or", "order", "primary",
    "references", "returning", "union", "using", "where", "window", "without"]

/-- **An ordinary name**: a word in lower case that begins with a letter and is no keyword. -/
structure OrdinaryName where
  /-- The name as it is written, and as it is stored. -/
  text : String
  letter : ∃ c ∈ text.toList.head?, c.isLower = true
  chars : ∀ c ∈ text.toList, isNameChar c = true
  unreserved : text ∉ reservedNames

theorem isWordChar_of_isNameChar {c : Char} (h : isNameChar c = true) : isWordChar c = true := by
  simp only [isNameChar, isWordChar, Char.isAlphanum, isAlpha_eq, Bool.or_eq_true] at h ⊢
  rcases h with (h | h) | h
  · exact .inl (.inl (.inr h))
  · exact .inl (.inr h)
  · exact .inr h

theorem toLower_of_isNameChar {c : Char} (h : isNameChar c = true) : c.toLower = c := by
  unfold Char.toLower
  split
  · rename_i hupper
    simp only [isNameChar, isLower_eq, Char.isDigit, ge_iff_le, UInt32.le_iff_toNat_le,
      Bool.or_eq_true, Bool.and_eq_true, decide_eq_true_eq, beq_iff_eq, Char.reduceVal,
      UInt32.reduceToNat] at h hupper
    rcases h with h | rfl
    · omega
    · exact absurd hupper.2 (by decide)
  · rfl

namespace OrdinaryName

variable (name : OrdinaryName)

/-- The characters of the name. -/
def word : List Char := name.text.toList

theorem word_ne_nil : name.word ≠ [] := by
  obtain ⟨c, hc, -⟩ := name.letter
  exact List.ne_nil_of_mem (List.mem_of_mem_head? hc)

theorem isWordChar {c : Char} (h : c ∈ name.word) : isWordChar c = true :=
  isWordChar_of_isNameChar (name.chars c h)

theorem not_mem {c : Char} (h : Fsql.isWordChar c = false) : c ∉ name.word :=
  not_mem_word (fun _ ↦ name.isWordChar) h

theorem isWord : IsWord name.word := isWord_of_isWordChar (fun _ ↦ name.isWordChar) name.word_ne_nil

/-- The name is in lower case. -/
theorem lower_word : lower name.word = name.word :=
  (List.map_congr_left fun c hc ↦ toLower_of_isNameChar (name.chars c hc)).trans (List.map_id _)

theorem plain {c : Char} (h : c ∈ name.word) : Scan.Plain c ∧ c ≠ '=' ∧ c ≠ ',' :=
  plain_word (fun _ ↦ name.isWordChar) h

theorem ofList_word : String.ofList name.word = name.text := String.ofList_toList

theorem text_ne : name.text ≠ "" := by
  rw [← name.ofList_word, Ne, String.ofList_eq_empty_iff]
  exact name.word_ne_nil

/-- **A name is read as itself**, with blanks around it or not. -/
theorem identifier_eq {input : List Char} (h : trim input = name.word) :
    identifier input = name.text := by
  have hstored : normalizeIdentifier (String.ofList input) =
      normalizeIdentifier (String.ofList name.word) := by
    rw [normalizeIdentifier, normalizeIdentifier, String.toList_ofList, String.toList_ofList, h,
      name.isWord.trim_eq]
  rw [identifier, hstored, normalizeIdentifier_word (fun _ ↦ name.isWordChar) name.word_ne_nil,
    name.lower_word, name.ofList_word]

/-- A statement about a name is not one about a conflict. -/
theorem not_startsWithCi_or (l : List Char) :
    startsWithCi (name.word ++ ' ' :: l) "OR ".toList = false := by
  rw [← Bool.not_eq_true, ByteParser.startsWithCi_iff, lower_append, name.lower_word, lower_cons]
  intro hpre
  have hword := ((prefix_words_cons (by decide) name.isWord.not_mem).mp
    (show "or".toList ++ ' ' :: [] <+: name.word ++ ' ' :: lower l from hpre)).1
  exact name.unreserved (String.toList_inj.mp hword ▸ by decide)

/-- The name begins with none of the texts. -/
def Avoids (texts : List String) : Prop := ∀ text ∈ texts, ¬ text.toList <+: name.word

instance (texts : List String) : Decidable (name.Avoids texts) :=
  inferInstanceAs (Decidable (∀ text ∈ texts, _))

theorem not_avoids_iff {texts : List String} :
    ¬ name.Avoids texts ↔ ∃ text ∈ texts, text.toList <+: name.word := by
  simp only [Avoids, not_forall, not_not, exists_prop]

end OrdinaryName

/-! ## Integers -/

/-- The text is an integer literal with the value. -/
inductive IsInteger : List Char → Int64 → Prop
  | unsigned {digits : List Char} {value : Int64} (hne : digits ≠ [])
      (hdigits : ∀ c ∈ digits, c.isDigit = true)
      (hvalue : value.toInt = Nat.ofDigitChars 10 digits 0) : IsInteger digits value
  | positive {digits : List Char} {value : Int64} (hne : digits ≠ [])
      (hdigits : ∀ c ∈ digits, c.isDigit = true)
      (hvalue : value.toInt = Nat.ofDigitChars 10 digits 0) : IsInteger ('+' :: digits) value
  | negative {digits : List Char} {value : Int64} (hne : digits ≠ [])
      (hdigits : ∀ c ∈ digits, c.isDigit = true)
      (hvalue : value.toInt = -Nat.ofDigitChars 10 digits 0) : IsInteger ('-' :: digits) value

/-- **An integer literal**: a sign or none, and digits. -/
structure IntegerLiteral where
  /-- The literal as it is written. -/
  text : String
  /-- The integer that it stands for. -/
  value : Int64
  isInteger : IsInteger text.toList value

/-- The characters of an integer literal. -/
def isIntegerChar (c : Char) : Bool := c.isDigit || c == '+' || c == '-'

theorem parseInt_of_isInteger {l : List Char} {value : Int64} (h : IsInteger l value) :
    parseInt (2 ^ 63 - 1) l = some value.toInt := by
  have hlo := value.le_toInt
  have hhi := value.toInt_lt
  have head {digits : List Char} (hdigits : ∀ c ∈ digits, c.isDigit = true) {sign : Char}
      (hsign : sign.isDigit = false) : digits.head? ≠ some sign := by
    intro hhead
    rw [hdigits sign (List.mem_of_mem_head? hhead)] at hsign
    cases hsign
  rcases h with ⟨hne, hdigits, hvalue⟩ | ⟨hne, hdigits, hvalue⟩ | ⟨hne, hdigits, hvalue⟩
  · rw [parseInt]
    · rw [parseNat, if_neg (head hdigits (by decide))]
      rw [if_pos ⟨hne, List.all_eq_true.mpr hdigits, by omega⟩, Option.map_some, hvalue]
    · rintro digits' rfl
      exact head hdigits (by decide : '-'.isDigit = false) rfl
  · rw [parseInt]
    · rw [parseNat, if_pos List.head?_cons, List.tail_cons]
      rw [if_pos ⟨hne, List.all_eq_true.mpr hdigits, by omega⟩, Option.map_some, hvalue]
    · rintro digits' ⟨⟩
  · rw [parseInt, if_pos ⟨hne, List.all_eq_true.mpr hdigits, by omega⟩, hvalue]

theorem isIntegerChar_of_mem {l : List Char} {value : Int64} (h : IsInteger l value) :
    l ≠ [] ∧ ∀ c ∈ l, isIntegerChar c = true := by
  have digit {c : Char} (hc : c.isDigit = true) : isIntegerChar c = true := by
    rw [isIntegerChar, hc, Bool.true_or, Bool.true_or]
  rcases h with ⟨hne, hdigits, -⟩ | ⟨hne, hdigits, -⟩ | ⟨hne, hdigits, -⟩
  · exact ⟨hne, fun c hc ↦ digit (hdigits c hc)⟩
  · exact ⟨List.cons_ne_nil _ _,
      List.forall_mem_cons.mpr ⟨rfl, fun c hc ↦ digit (hdigits c hc)⟩⟩
  · exact ⟨List.cons_ne_nil _ _,
      List.forall_mem_cons.mpr ⟨rfl, fun c hc ↦ digit (hdigits c hc)⟩⟩

theorem not_isAlpha_of_isIntegerChar {c : Char} (h : isIntegerChar c = true) :
    c.isAlpha = false := by
  simp only [isIntegerChar, Char.isDigit, ge_iff_le, UInt32.le_iff_toNat_le, Bool.or_eq_true,
    Bool.and_eq_true, decide_eq_true_eq, beq_iff_eq, Char.reduceVal, UInt32.reduceToNat] at h
  rcases h with (h | rfl) | rfl
  · simp only [isAlpha_eq, isUpper_eq, isLower_eq, ge_iff_le, UInt32.le_iff_toNat_le,
      Bool.or_eq_false_iff, Bool.and_eq_false_iff, decide_eq_false_iff_not, Char.reduceVal,
      UInt32.reduceToNat]
    omega
  · decide
  · decide

theorem not_isWhitespace_of_isIntegerChar {c : Char} (h : isIntegerChar c = true) :
    isWhitespace c = false := by
  rw [isIntegerChar, Bool.or_eq_true, Bool.or_eq_true, beq_iff_eq, beq_iff_eq] at h
  rcases h with (h | rfl) | rfl
  · refine isWhitespace_of_isWordChar ?_
    rw [isWordChar, Char.isAlphanum, h, Bool.or_true, Bool.true_or]
  · decide
  · decide

namespace IntegerLiteral

variable (literal : IntegerLiteral)

/-- The characters of the literal. -/
def word : List Char := literal.text.toList

theorem isIntegerChar {c : Char} (h : c ∈ literal.word) : isIntegerChar c = true :=
  (isIntegerChar_of_mem literal.isInteger).2 c h

theorem isWord : IsWord literal.word :=
  ⟨(isIntegerChar_of_mem literal.isInteger).1,
    fun _ hc ↦ not_isWhitespace_of_isIntegerChar (literal.isIntegerChar hc)⟩

theorem not_mem {c : Char} (h : Fsql.isIntegerChar c = false) : c ∉ literal.word := by
  intro hmem
  rw [literal.isIntegerChar hmem] at h
  cases h

theorem lower_word : lower literal.word = literal.word := by
  refine (List.map_congr_left fun c hc ↦ ?_).trans (List.map_id _)
  exact (toLower_eq_iff (not_isAlpha_of_isIntegerChar (literal.isIntegerChar hc))).mpr rfl

theorem plain {c : Char} (h : c ∈ literal.word) : Scan.Plain c ∧ c ≠ '=' ∧ c ≠ ',' := by
  have hne {d : Char} (hd : Fsql.isIntegerChar d = false) : c ≠ d :=
    fun hcd ↦ literal.not_mem hd (hcd ▸ h)
  simp only [Scan.Plain, List.mem_cons, List.not_mem_nil, or_false, not_or]
  exact ⟨⟨hne rfl, hne rfl, hne rfl, hne rfl, hne rfl, hne rfl⟩, hne rfl, hne rfl⟩

/-- A text with a letter in it is not the literal. -/
theorem eqIgnoreCase_eq_false {text : List Char} {c : Char} (hc : c ∈ lower text)
    (hletter : Fsql.isIntegerChar c = false) : eqIgnoreCase literal.word text = false := by
  rw [eqIgnoreCase, beq_eq_false_iff_ne, literal.lower_word]
  intro heq
  exact literal.not_mem hletter (heq ▸ hc)

/-- **An integer literal is read as its value**, with blanks around it or not. -/
theorem parseValue_eq {input : List Char} (h : trim input = literal.word) :
    parseValue input = .ok (.integer literal.value) := by
  have hstring : parseQuotedString literal.word = none := by
    by_contra hsome
    obtain ⟨s, hs⟩ := Option.ne_none_iff_exists'.mp hsome
    obtain ⟨q, body, hquote, heq, -⟩ := parseQuotedString_eq_some_iff.mp hs
    refine literal.not_mem ?_ (heq ▸ List.mem_cons_self)
    rcases hquote with rfl | rfl <;> decide
  have hpoint : startsWithCi literal.word "POINT".toList = false := by
    rw [← Bool.not_eq_true, ByteParser.startsWithCi_iff, literal.lower_word]
    intro hpre
    exact literal.not_mem (by decide : Fsql.isIntegerChar 'p' = false) (hpre.subset (by decide))
  have hvector : ¬ (literal.word.head? = some '[' ∧ literal.word.getLast? = some ']') :=
    fun hends ↦ literal.not_mem (by decide) (List.mem_of_mem_head? hends.1)
  have hfree {c : Char} (hc : Fsql.isIntegerChar c = false) : literal.word.contains c = false := by
    rw [← Bool.not_eq_true, List.contains_iff_mem]
    exact literal.not_mem hc
  have hfloat : (literal.word.contains '.' || literal.word.contains 'e' ||
      literal.word.contains 'E') = false := by
    rw [hfree (by decide), hfree (by decide), hfree (by decide)]
    rfl
  have hinteger : parseInt (2 ^ 63 - 1) literal.word = some literal.value.toInt :=
    parseInt_of_isInteger literal.isInteger
  rw [parseValue, h]
  simp only [literal.eqIgnoreCase_eq_false (by decide : 'n' ∈ lower "NULL".toList) (by decide),
    literal.eqIgnoreCase_eq_false (by decide : 't' ∈ lower "TRUE".toList) (by decide),
    literal.eqIgnoreCase_eq_false (by decide : 'f' ∈ lower "FALSE".toList) (by decide),
    hstring, hpoint, hfloat, if_neg hvector, Bool.false_eq_true, if_false, hinteger,
    Int64.ofInt_toInt]

end IntegerLiteral

/-! ## Phrases in a row of words -/

/-- The words of a pattern that begins with a blank, up to its last blank. -/
def phraseWords (pattern : String) : List (List Char) := (pattern.toList.tail.splitOn ' ').dropLast

/-- What is behind its last blank. -/
def phraseEnd (pattern : String) : List Char := (pattern.toList.tail.splitOn ' ').getLastD []

/-- The pattern is a blank and these. -/
def BeginsBlank (pattern : String) : Prop :=
  pattern.toList = ' ' :: (words (phraseWords pattern) ++ phraseEnd pattern) ∧
    (∀ v ∈ phraseWords pattern, ' ' ∉ v) ∧ ' ' ∉ phraseEnd pattern

instance (pattern : String) : Decidable (BeginsBlank pattern) :=
  inferInstanceAs (Decidable (_ ∧ _ ∧ _))

/-- The patterns of one word that is not closed by a blank: what the word begins with. -/
def openers (patterns : List String) : List (List Char) :=
  (patterns.filter fun pattern ↦ phraseWords pattern = []).map phraseEnd

/-- The words of a statement: fixed ones, names, and words with another character than letters. -/
def IsRowOf (fixed : List String) (ws : List (List Char)) : Prop :=
  ∀ w ∈ ws, (∃ f ∈ fixed, w = f.toList) ∨ (∃ name : OrdinaryName, w = name.word) ∨
    ∃ c ∈ w, c.isAlpha = false

/-- One of the words of the pattern is a reserved one that is not fixed. -/
def IsForeign (fixed : List String) (pattern : String) : Prop :=
  ∃ keyword ∈ reservedNames, keyword.toList ∈ phraseWords pattern ∧ keyword ∉ fixed

instance (fixed : List String) (pattern : String) : Decidable (IsForeign fixed pattern) :=
  inferInstanceAs (Decidable (∃ keyword ∈ reservedNames, _))

/-- No pattern is empty or has the character. -/
def Without (sep : Char) (patterns : List String) : Prop :=
  ∀ pattern ∈ patterns, sep ∉ pattern.toList ∧ pattern.toList ≠ []

instance (sep : Char) (patterns : List String) : Decidable (Without sep patterns) :=
  inferInstanceAs (Decidable (∀ pattern ∈ patterns, _))

/-- **What is looked for around a character** that no pattern has is looked for on both sides. -/
theorem containsAny_append_sep {sep : Char} {patterns : List String} (h : Without sep patterns)
    (a b : List Char) :
    containsAny (a ++ sep :: b) patterns = (containsAny a patterns || containsAny b patterns) := by
  rw [containsAny, containsAny, containsAny, Bool.eq_iff_iff, Bool.or_eq_true, List.any_eq_true,
    List.any_eq_true, List.any_eq_true, ← exists_or]
  refine exists_congr fun pattern ↦ ?_
  rw [← and_or_left]
  refine and_congr_right fun hpattern ↦ ?_
  obtain ⟨hsep, hne⟩ := h pattern hpattern
  rw [contains_iff, contains_iff, contains_iff, infix_append_sep hsep hne]

/-- Doubling it does not matter. -/
theorem containsAny_double {q : Char} (hq : q.isAlpha = false) {patterns : List String}
    (h : Without q patterns) (l : List Char) :
    containsAny (lower (double q l)) patterns = containsAny (lower l) patterns := by
  rw [containsAny, containsAny, Bool.eq_iff_iff, List.any_eq_true, List.any_eq_true]
  refine exists_congr fun pattern ↦ and_congr_right fun hpattern ↦ ?_
  obtain ⟨hsep, hne⟩ := h pattern hpattern
  rw [contains_iff, contains_iff, lower_double hq, infix_double hsep hne]

/-- What is not in a text is not in a part of it. -/
theorem containsAny_eq_false_of_infix {a b : List Char} {patterns : List String} (hab : a <:+: b)
    (h : containsAny b patterns = false) : containsAny a patterns = false := by
  rw [containsAny, List.any_eq_false] at h ⊢
  exact fun pattern hpattern hcontains ↦
    h pattern hpattern (contains_iff.mpr ((contains_iff.mp hcontains).trans hab))

section Row

variable {fixed patterns : List String} {w : List Char} {ws : List (List Char)}

theorem IsRowOf.cons_fixed {f : String} (hrow : IsRowOf fixed ws) (h : f ∈ fixed) :
    IsRowOf fixed (f.toList :: ws) :=
  List.forall_mem_cons.mpr ⟨.inl ⟨f, h, rfl⟩, hrow⟩

theorem IsRowOf.cons_name (hrow : IsRowOf fixed ws) (name : OrdinaryName) :
    IsRowOf fixed (name.word :: ws) :=
  List.forall_mem_cons.mpr ⟨.inr (.inl ⟨name, rfl⟩), hrow⟩

theorem IsRowOf.cons_other (hrow : IsRowOf fixed ws) {c : Char} (h : c ∈ w)
    (hc : c.isAlpha = false) :
    IsRowOf fixed (w :: ws) :=
  List.forall_mem_cons.mpr ⟨.inr (.inr ⟨c, h, hc⟩), hrow⟩

/-- A reserved word is among the words of a statement only if it is a fixed one. -/
theorem IsRowOf.not_mem (hrow : IsRowOf fixed ws) {keyword : String}
    (hreserved : keyword ∈ reservedNames)
    (hfixed : keyword ∉ fixed) : keyword.toList ∉ ws := by
  intro hmem
  rcases hrow _ hmem with ⟨f, hf, heq⟩ | ⟨name, heq⟩ | ⟨c, hc, hletter⟩
  · exact hfixed (String.toList_inj.mp heq ▸ hf)
  · exact name.unreserved (String.toList_inj.mp heq ▸ hreserved)
  · have hletters : ∀ keyword ∈ reservedNames, ∀ c ∈ keyword.toList, c.isAlpha = true := by decide
    rw [hletters keyword hreserved c hc] at hletter
    cases hletter

theorem IsRowOf.not_occurs (hrow : IsRowOf fixed ws) {pattern : String}
    (h : IsForeign fixed pattern) : ¬ Occurs (phraseWords pattern) (phraseEnd pattern) ws := by
  obtain ⟨keyword, hreserved, hmem, hfixed⟩ := h
  exact fun hoccurs ↦ hrow.not_mem hreserved hfixed (hoccurs.mem _ hmem)

/-- **Which phrases are in a statement**: the ones that a word behind the first begins with, if the
others are foreign. -/
theorem containsAny_row_iff (hblank : ∀ u ∈ w :: ws, ' ' ∉ u)
    (h : ∀ pattern ∈ patterns, BeginsBlank pattern ∧
      (phraseWords pattern = [] ∨ ¬ Occurs (phraseWords pattern) (phraseEnd pattern) ws)) :
    containsAny (join ' ' (w :: ws)) patterns = true ↔ ∃ p ∈ openers patterns, ∃ u ∈ ws,
      p <+: u := by
  have key : ∀ pattern ∈ patterns, contains (join ' ' (w :: ws)) pattern.toList = true ↔
      phraseWords pattern = [] ∧ ∃ u ∈ ws, phraseEnd pattern <+: u := by
    intro pattern hpattern
    obtain ⟨⟨heq, hwords, hend⟩, hor⟩ := h pattern hpattern
    rw [contains_iff, heq, infix_join hwords hend hblank]
    rcases hor with hnil | hnot
    · simp only [hnil, occurs_nil_iff, true_and]
    · refine iff_of_false hnot fun ⟨hnil, hopens⟩ ↦ hnot ?_
      rw [hnil]
      exact occurs_nil_iff.mpr hopens
  rw [containsAny, List.any_eq_true]
  simp only [openers, List.mem_map, List.mem_filter, decide_eq_true_eq]
  constructor
  · rintro ⟨pattern, hpattern, hcontains⟩
    obtain ⟨hnil, hopens⟩ := (key pattern hpattern).mp hcontains
    exact ⟨_, ⟨pattern, ⟨hpattern, hnil⟩, rfl⟩, hopens⟩
  · rintro ⟨_, ⟨pattern, ⟨hpattern, hnil⟩, rfl⟩, hopens⟩
    exact ⟨pattern, hpattern, (key pattern hpattern).mpr ⟨hnil, hopens⟩⟩

/-- Foreign phrases are not in a statement. -/
theorem containsAny_row_eq_false (hblank : ∀ u ∈ w :: ws, ' ' ∉ u) (hrow : IsRowOf fixed ws)
    (h : ∀ pattern ∈ patterns, BeginsBlank pattern ∧ IsForeign fixed pattern) :
    containsAny (join ' ' (w :: ws)) patterns = false := by
  have hphrases : ∀ pattern ∈ patterns, BeginsBlank pattern ∧
      (phraseWords pattern = [] ∨ ¬ Occurs (phraseWords pattern) (phraseEnd pattern) ws) :=
    fun pattern hpattern ↦ ⟨(h pattern hpattern).1, .inr (hrow.not_occurs (h pattern hpattern).2)⟩
  rw [← Bool.not_eq_true, containsAny_row_iff hblank hphrases]
  simp only [openers, List.mem_map, List.mem_filter, decide_eq_true_eq]
  rintro ⟨_, ⟨pattern, ⟨hpattern, hnil⟩, rfl⟩, -⟩
  obtain ⟨keyword, -, hmem, -⟩ := (h pattern hpattern).2
  rw [hnil] at hmem
  exact List.not_mem_nil hmem

/-- Foreign phrases are not in words with blanks around them. -/
theorem containsAny_words_eq_false (hblank : ∀ u ∈ ws, ' ' ∉ u) (hrow : IsRowOf fixed ws)
    (hnil : "" ∈ fixed) (h : ∀ pattern ∈ patterns, BeginsBlank pattern ∧ IsForeign fixed pattern) :
    containsAny (' ' :: words ws) patterns = false := by
  have htext : ' ' :: words ws = join ' ' ([] :: (ws ++ [[]])) := by
    rw [words_eq_join, join_cons [] (by simp), List.nil_append]
  have hend : IsRowOf fixed [[]] := fun u hu ↦ .inl ⟨"", hnil, List.mem_singleton.mp hu⟩
  rw [htext]
  refine containsAny_row_eq_false ?_ (List.forall_mem_append.mpr ⟨hrow, hend⟩) h
  rw [List.forall_mem_cons, List.forall_mem_append, List.forall_mem_singleton]
  exact ⟨List.not_mem_nil, hblank, List.not_mem_nil⟩

/-- **A keyword cuts a statement** where it first is a word behind the first one. -/
theorem cut_keyword {us : List (List Char)} {u k : List Char} (hus : ∀ v ∈ u :: us, ' ' ∉ v)
    (hk : ' ' ∉ k) (h : lower k ∉ us.map lower) (hws : ws ≠ []) :
    findCi (join ' ' (u :: us ++ k :: ws)) (' ' :: (k ++ [' '])) =
      some (join ' ' (u :: us)).length ∧
      (join ' ' (u :: us ++ k :: ws)).take (join ' ' (u :: us)).length = join ' ' (u :: us) ∧
      (join ' ' (u :: us ++ k :: ws)).drop
        ((join ' ' (u :: us)).length + (' ' :: (k ++ [' '])).length) = join ' ' ws := by
  have hblank {v : List Char} (hv : ' ' ∉ v) : ' ' ∉ lower v := by rwa [mem_lower_iff (by decide)]
  refine ⟨?_, ?_, ?_⟩
  · have hfind := @find_keyword (ws.map lower) (us.map lower) (lower u) (lower k)
      (by
        intro v hv
        rw [← List.map_cons, List.mem_map] at hv
        obtain ⟨v, hv, rfl⟩ := hv
        exact hblank (hus v hv))
      (hblank hk) h (by rwa [Ne, List.map_eq_nil_iff])
    have htext : lower (join ' ' (u :: us ++ k :: ws)) =
        join ' ' (lower u :: us.map lower ++ lower k :: ws.map lower) := by
      rw [lower_join, List.map_append, List.map_cons, List.map_cons]
    have hlength : (join ' ' (lower u :: us.map lower)).length = (join ' ' (u :: us)).length := by
      rw [← List.map_cons, ← lower_join, length_lower]
    rw [findCi, lower_cons, lower_append, htext, ← hlength]
    exact hfind
  · rw [join_keyword (List.cons_ne_nil u us) hws, List.take_left]
  · rw [join_keyword (List.cons_ne_nil u us) hws, ← List.append_assoc]
    exact List.drop_left' List.length_append

end Row

/-! ## Lists -/

/-- No character of the text is looked at when a list is split. -/
def IsPiece (l : List Char) : Prop := ∀ d ∈ l, Scan.Plain d ∧ d ≠ ','

theorem IsPiece.append {a b : List Char} (ha : IsPiece a) (hb : IsPiece b) : IsPiece (a ++ b) :=
  List.forall_mem_append.mpr ⟨ha, hb⟩

theorem OrdinaryName.isPiece (name : OrdinaryName) : IsPiece name.word :=
  fun _ hd ↦ ⟨(name.plain hd).1, (name.plain hd).2.2⟩

theorem IntegerLiteral.isPiece (literal : IntegerLiteral) : IsPiece literal.word :=
  fun _ hd ↦ ⟨(literal.plain hd).1, (literal.plain hd).2.2⟩

/-- A list of one. -/
theorem splitTopLevel_single {a : List Char} (ha : IsPiece a) : splitTopLevel a ',' = [trim a] := by
  have hpieces := Scan.pieces_plain ha (rfl : ({} : Scan).quote = none) []
  rw [List.append_nil] at hpieces
  rw [splitTopLevel, hpieces, Scan.pieces, List.modifyHead_cons, List.append_nil,
    List.map_singleton]

/-- **A list of two.** -/
theorem splitTopLevel_pair {a b : List Char} (ha : IsPiece a) (hb : IsPiece b) :
    splitTopLevel (a ++ ',' :: b) ',' = [trim a, trim b] := by
  have hpieces := Scan.pieces_plain hb (rfl : ({} : Scan).quote = none) []
  have hcuts : ({} : Scan).cuts ',' ',' = true := rfl
  rw [List.append_nil] at hpieces
  rw [splitTopLevel, Scan.pieces_plain ha rfl, Scan.pieces, if_pos hcuts, hpieces, Scan.pieces,
    List.modifyHead_cons, List.modifyHead_cons, List.append_nil, List.append_nil, List.map_cons,
    List.map_singleton]

/-- Text without quotes and parentheses is in the group that is open. -/
theorem multipleGroups_piece {w : List Char} (h : IsPiece w) (parens groups : Nat)
    (rest : List Char) :
    multipleGroups none parens groups (w ++ rest) = multipleGroups none parens groups rest := by
  induction w with
  | nil => rfl
  | cons d w ih =>
    obtain ⟨⟨hplain, -⟩, h⟩ := List.forall_mem_cons.mp h
    simp only [Scan.Plain, List.mem_cons, List.not_mem_nil, or_false, not_or] at hplain
    obtain ⟨h1, h2, h3, h4, -, -⟩ := hplain
    rw [List.cons_append, multipleGroups, ih h]
    simp only [h1, h2, h3, h4, or_false, if_false]

/-- **The text between parentheses** and the text before them, for a text that ends with them. -/
theorem cut_parens {a : List Char} (ha : '(' ∉ a) (b : List Char) :
    findChar '(' (a ++ '(' :: (b ++ [')'])) = some a.length ∧
      rfindChar ')' (a ++ '(' :: (b ++ [')'])) = some (a.length + 1 + b.length) ∧
      (a ++ '(' :: (b ++ [')'])).take a.length = a ∧
      slice (a ++ '(' :: (b ++ [')'])) (a.length + 1) (a.length + 1 + b.length) = .ok b := by
  have hend : a ++ '(' :: (b ++ [')']) = (a ++ '(' :: b) ++ ')' :: [] := by simp
  have hopen : (a ++ '(' :: b).length = a.length + 1 + b.length := by
    rw [List.length_append, List.length_cons]
    omega
  have hinner : (a ++ '(' :: b).drop (a.length + 1) = b := by
    rw [List.append_cons a '(' b]
    exact List.drop_left' (by simp)
  refine ⟨findChar_append ha _, ?_, List.take_left, ?_⟩
  · rw [hend, rfindChar_append List.not_mem_nil, hopen]
  · rw [slice, if_pos (Nat.le_add_right _ _), hend, List.take_left' hopen, hinner]

/-! ## Equations -/

/-- The words of an equation of a column and an integer. -/
def equationWords (c : OrdinaryName) (n : IntegerLiteral) : List (List Char) :=
  [c.word, ['='], n.word]

theorem isWord_equationWords (c : OrdinaryName) (n : IntegerLiteral) :
    ∀ w ∈ equationWords c n, IsWord w := by
  simp only [equationWords, List.forall_mem_cons]
  exact ⟨c.isWord, by decide, n.isWord, fun _ hw ↦ absurd hw List.not_mem_nil⟩

theorem lower_equationWords (c : OrdinaryName) (n : IntegerLiteral) :
    (equationWords c n).map lower = equationWords c n := by
  simp only [equationWords, List.map_cons, List.map_nil, c.lower_word, n.lower_word]
  rfl

theorem isRowOf_equationWords (fixed : List String) (c : OrdinaryName) (n : IntegerLiteral) :
    IsRowOf fixed (equationWords c n) := by
  obtain ⟨d, hd⟩ := List.exists_mem_of_ne_nil _ n.isWord.1
  have hnil : IsRowOf fixed [] := fun _ hw ↦ absurd hw List.not_mem_nil
  have hletter := not_isAlpha_of_isIntegerChar (n.isIntegerChar hd)
  exact ((hnil.cons_other hd hletter).cons_other List.mem_cons_self (by decide)).cons_name c

/-- Whether an equation begins like a predicate depends on its column. -/
theorem startsWithCi_equation (c : OrdinaryName) (n : IntegerLiteral) {pre : List Char}
    (h : ∀ d ∈ pre, d.toLower ≠ ' ') :
    startsWithCi (join ' ' (equationWords c n)) pre = true ↔ lower pre <+: c.word := by
  have htext : join ' ' (equationWords c n) = c.word ++ ' ' :: join ' ' [['='], n.word] := rfl
  rw [htext, startsWithCi_append h, ByteParser.startsWithCi_iff, c.lower_word]

/-- What is read as an equation does not begin like a predicate. -/
theorem not_predicate_of_parseFilter {input : List Char} {column : String} {value : Value}
    (h : parseFilter input = .ok (.equals column value)) :
    startsWithCi input "MATCH".toList = false ∧
      startsWithCi input "GEO_DISTANCE".toList = false := by
  rw [parseFilter] at h
  split at h
  · obtain ⟨body, -, h⟩ := bind_eq_ok_iff.mp h
    split at h
    · obtain ⟨query, -, h⟩ := bind_eq_ok_iff.mp h
      split at h <;> cases h
    · cases h
  · rename_i hmatch
    split at h
    · obtain ⟨parts, -, h⟩ := bind_eq_ok_iff.mp h
      obtain ⟨body, -, h⟩ := bind_eq_ok_iff.mp h
      split at h
      · obtain ⟨point, -, h⟩ := bind_eq_ok_iff.mp h
        split at h
        · split at h <;> cases h
        · cases h
      · cases h
    · rename_i hdistance
      exact ⟨Bool.not_eq_true _ ▸ hmatch, Bool.not_eq_true _ ▸ hdistance⟩

/-- An equation is cut at its equals sign. -/
theorem splitOnceTopLevel_equationWords (c : OrdinaryName) (n : IntegerLiteral) :
    splitOnceTopLevel (join ' ' (equationWords c n)) '=' =
      some (c.word ++ [' '], ' ' :: n.word) := by
  have htext : join ' ' (equationWords c n) = (c.word ++ [' ']) ++ '=' :: (' ' :: n.word) := by
    simp [equationWords, join]
  rw [htext, splitOnceTopLevel]
  refine Scan.splitOnce_plain (by simp [Scan.Plain]) (fun d hd ↦ ?_) (' ' :: n.word)
  rcases List.mem_append.mp hd with hd | hd
  · exact ⟨(c.plain hd).1, (c.plain hd).2.1⟩
  · obtain rfl := List.mem_singleton.mp hd
    exact ⟨by simp [Scan.Plain], by decide⟩

theorem OrdinaryName.identifier_concat (c : OrdinaryName) : identifier (c.word ++ [' ']) = c.text :=
  c.identifier_eq ((trimBy_concat rfl c.word).trans c.isWord.trim_eq)

theorem IntegerLiteral.parseValue_cons (n : IntegerLiteral) :
    parseValue (' ' :: n.word) = .ok (.integer n.value) :=
  n.parseValue_eq ((trimBy_cons rfl n.word).trans n.isWord.trim_eq)

/-- An equation is read as an assignment. -/
theorem parseAssignment_equationWords (c : OrdinaryName) (n : IntegerLiteral) :
    parseAssignment (join ' ' (equationWords c n)) = .ok (c.text, .integer n.value) := by
  rw [parseAssignment, splitOnceTopLevel_equationWords]
  simp only [n.parseValue_cons, c.identifier_concat]
  rfl

/-- An equation is one piece of a list. -/
theorem splitTopLevel_equationWords (c : OrdinaryName) (n : IntegerLiteral) :
    splitTopLevel (join ' ' (equationWords c n)) ',' = [join ' ' (equationWords c n)] := by
  have hequals : IsPiece [' ', '=', ' '] := by simp [IsPiece, Scan.Plain]
  have htext : join ' ' (equationWords c n) = c.word ++ [' ', '=', ' '] ++ n.word := by
    simp [equationWords, join]
  have hpiece : IsPiece (join ' ' (equationWords c n)) :=
    htext ▸ (c.isPiece.append hequals).append n.isPiece
  rw [splitTopLevel_single hpiece, trim_join (isWord_equationWords c n)]

/-- What a filter on a column is read as if the column's name begins with one of these. -/
def predicateNames : List String := ["match", "geo_distance"]

/-- **When an equation is read as a filter.** -/
theorem parseFilter_equation_iff (c : OrdinaryName) (n : IntegerLiteral) :
    parseFilter (join ' ' (equationWords c n)) = .ok (.equals c.text (.integer n.value)) ↔
      c.Avoids predicateNames := by
  have hmatch := @startsWithCi_equation c n "MATCH".toList (by decide)
  have hdistance := @startsWithCi_equation c n "GEO_DISTANCE".toList (by decide)
  have havoids : c.Avoids predicateNames ↔ ¬ lower "MATCH".toList <+: c.word ∧
      ¬ lower "GEO_DISTANCE".toList <+: c.word := by
    rw [OrdinaryName.Avoids, predicateNames, List.forall_mem_cons, List.forall_mem_singleton]
    exact Iff.rfl
  rw [havoids, ← hmatch, ← hdistance, Bool.not_eq_true, Bool.not_eq_true]
  refine ⟨not_predicate_of_parseFilter, fun ⟨hnot, hnot'⟩ ↦ ?_⟩
  rw [parseFilter, hnot, hnot', splitOnceTopLevel_equationWords]
  simp only [n.parseValue_cons, c.identifier_concat]
  rfl

/-- An equation is never an advanced clause: one that is not read begins like a predicate. -/
theorem isAdvancedWhereClause_equationWords (c : OrdinaryName) (n : IntegerLiteral) :
    isAdvancedWhereClause (join ' ' (equationWords c n)) = false := by
  rw [isAdvancedWhereClause, trim_join (isWord_equationWords c n)]
  by_cases havoids : c.Avoids predicateNames
  · rw [(parseFilter_equation_iff c n).mpr havoids]
    simp [Except.toBool]
  · have hpredicate : startsWithCi (join ' ' (equationWords c n)) "MATCH".toList = true ∨
        startsWithCi (join ' ' (equationWords c n)) "GEO_DISTANCE".toList = true := by
      rw [startsWithCi_equation c n (by decide), startsWithCi_equation c n (by decide)]
      rw [OrdinaryName.Avoids, predicateNames, List.forall_mem_cons, List.forall_mem_singleton,
        not_and_or, not_not, not_not] at havoids
      exact havoids
    rw [if_pos (Bool.or_eq_true_iff.mpr hpredicate), ite_self]

end Fsql
