import Fsql.Sql.Names
import Fsql.Sql.Splitting

/-!
# Enclosed texts in a statement

A statement that an application makes up from a string has the string in single quotes, with its own
quotes doubled.  The parser looks for the phrases of a clause in the whole of the statement, and for
the ends of a literal in the first character of a value and the last one, so what is between two
quotes may be anything here:

* `SimpleName` — a word that is no keyword, in any case; `IsColumn` — what may be written for a
  column.
* `containsAny_across` — **a phrase does not begin before a keyword of the statement and end behind
  it**, so the phrases in a statement are those in its parts.
* `containsAny_equation` — those in an equation of a simple name and an enclosed text are in that
  text, since the words before it do not make them up.
* `parseFilter_equation`, `parseFilter_equation_error` — an equation of a column and an enclosed
  text is read as one with all of that text, unless the column begins like a predicate.
-/

set_option autoImplicit false

namespace Fsql

open Number Text

/-! ## Names -/

/-- **A simple name**: a word that is no keyword. -/
structure SimpleName (name : String) : Prop where
  ne_nil : name.toList ≠ []
  word : ∀ c ∈ name.toList, isWordChar c = true
  unreserved : String.ofList (lower name.toList) ∉ reservedNames

/-- A filter on a column that begins so is read as another one. -/
def beginsPredicate (name : String) : Bool :=
  startsWithCi name.toList "MATCH".toList || startsWithCi name.toList "GEO_DISTANCE".toList

/-- **A column** as it may be written: nothing in it or around it matters to an equation. -/
structure IsColumn (name : String) : Prop where
  ne_nil : name.toList ≠ []
  trimmed : trim name.toList = name.toList
  plain : ∀ c ∈ name.toList, Scan.Plain c ∧ c ≠ '='

/-- A text that begins with a character and ends with a quote is not trimmed. -/
theorem trim_append {front l : List Char} (hne : front ≠ [])
    (hhead : ∀ c ∈ front.head?, isWhitespace c = false) (hlast : l.getLast? = some '\'') :
    trim (front ++ l) = front ++ l := by
  refine trimBy_eq_self (fun c hc ↦ ?_) (fun c hc ↦ ?_)
  · rw [List.head?_append_of_ne_nil _ hne] at hc
    exact hhead c hc
  · rw [List.getLast?_append, hlast] at hc
    exact Option.some.inj hc ▸ rfl

namespace SimpleName

variable {name : String} (h : SimpleName name)
include h

theorem not_mem {c : Char} (hc : isWordChar c = false) : c ∉ name.toList := not_mem_word h.word hc

theorem not_mem_lower {c : Char} (hc : isWordChar c = false) : c ∉ lower name.toList :=
  not_mem_lower_word h.word hc

theorem isWord : IsWord name.toList := isWord_of_isWordChar h.word h.ne_nil

theorem plain {c : Char} (hc : c ∈ name.toList) : Scan.Plain c ∧ c ≠ '=' ∧ c ≠ ',' :=
  plain_word h.word hc

theorem isColumn : IsColumn name :=
  ⟨h.ne_nil, h.isWord.trim_eq, fun _ hc ↦ ⟨(h.plain hc).1, (h.plain hc).2.1⟩⟩

theorem isWhitespace_head : ∀ c ∈ name.toList.head?, isWhitespace c = false :=
  fun c hc ↦ h.isWord.2 c (List.mem_of_mem_head? hc)

/-- A name is read with blanks around it. -/
theorem identifier_eq {input : List Char} (htrim : trim input = name.toList) :
    identifier input = normalizeIdentifier name := by
  rw [identifier, normalizeIdentifier, normalizeIdentifier, String.toList_ofList, htrim,
    h.isWord.trim_eq]

/-- The stored form of a name is the name in lower case. -/
theorem normalizeIdentifier_eq : normalizeIdentifier name = String.ofList (lower name.toList) := by
  rw [← normalizeIdentifier_word h.word h.ne_nil, String.ofList_toList]

theorem normalizeIdentifier_ne : normalizeIdentifier name ≠ "" := by
  rw [h.normalizeIdentifier_eq, Ne, String.ofList_eq_empty_iff, lower, List.map_eq_nil_iff]
  exact h.ne_nil

/-- A statement about a name is not one about a conflict. -/
theorem not_startsWithCi_or (l : List Char) :
    startsWithCi (name.toList ++ ' ' :: l) "OR ".toList = false := by
  rw [← Bool.not_eq_true, ByteParser.startsWithCi_iff, lower_append, lower_cons]
  intro hpre
  have hword := ((prefix_words_cons (by decide) (h.not_mem_lower rfl)).mp
    (show "or".toList ++ ' ' :: [] <+: lower name.toList ++ ' ' :: lower l from hpre)).1
  exact h.unreserved (hword ▸ by decide)

/-- **A keyword cuts a text behind its first word**, if that is where it is. -/
theorem cut_keyword (pre rest : List Char) :
    findCi (name.toList ++ (' ' :: pre ++ rest)) (' ' :: pre) = some name.toList.length ∧
      (name.toList ++ (' ' :: pre ++ rest)).take name.toList.length = name.toList ∧
      (name.toList ++ (' ' :: pre ++ rest)).drop (name.toList.length + (' ' :: pre).length) =
        rest := by
  refine ⟨?_, List.take_left, ?_⟩
  · have hfirst : ¬lower (' ' :: pre) <:+: lower name.toList ++ (lower (' ' :: pre)).dropLast := by
      rw [show lower (' ' :: pre) = ' ' :: lower pre from rfl, infix_skip (h.not_mem_lower rfl)]
      intro hoccurs
      have hlength := hoccurs.length_le
      rw [List.length_dropLast, List.length_cons] at hlength
      omega
    rw [findCi, lower_append, lower_append, find_append _ hfirst, length_lower]
  · rw [← List.append_assoc]
    exact List.drop_left' List.length_append

end SimpleName

/-! ## Phrases -/

/-- The words are fixed ones and names. -/
def IsRow (fixed : List String) (ws : List (List Char)) : Prop :=
  ∀ w ∈ ws, (' ' ∉ w ∧ String.ofList (lower w) ∈ fixed) ∨ ∃ name, SimpleName name ∧ w = name.toList

/-- The patterns are phrases without quotes that the fixed words do not make up. -/
def Foreign (fixed patterns : List String) : Prop :=
  Without '\'' patterns ∧
    ∀ pattern ∈ patterns, BeginsBlank pattern ∧ IsForeign ("" :: fixed) pattern

instance (fixed patterns : List String) : Decidable (Foreign fixed patterns) :=
  inferInstanceAs (Decidable (_ ∧ ∀ pattern ∈ patterns, _))

/-- A name in lower case is an ordinary one, or has another character than letters. -/
theorem SimpleName.ordinary {name : String} (h : SimpleName name) :
    (∃ ordinary : OrdinaryName, lower name.toList = ordinary.word) ∨
      ∃ c ∈ lower name.toList, c.isAlpha = false := by
  by_cases hletters : ∃ c ∈ lower name.toList, c.isAlpha = false
  · exact .inr hletters
  · have hlower : ∀ c ∈ lower name.toList, c.isLower = true := by
      intro c hc
      have halpha : c.isAlpha = true := by
        rw [← Bool.not_eq_false]
        exact fun hc' ↦ hletters ⟨c, hc, hc'⟩
      exact isLower_of_mem_lower hc halpha
    obtain ⟨c, l, hl⟩ := List.exists_cons_of_ne_nil
      (mt List.map_eq_nil_iff.mp h.ne_nil : lower name.toList ≠ [])
    refine .inl ⟨⟨String.ofList (lower name.toList), ⟨c, ?_, ?_⟩, fun d hd ↦ ?_, h.unreserved⟩, ?_⟩
    · rw [String.toList_ofList, hl]
      rfl
    · exact hlower c (hl ▸ List.mem_cons_self)
    · rw [String.toList_ofList] at hd
      rw [isNameChar, hlower d hd]
      rfl
    · rw [OrdinaryName.word, String.toList_ofList]

section Row

variable {fixed patterns : List String} {ws : List (List Char)} (hrow : IsRow fixed ws)
  (hforeign : Foreign fixed patterns)
include hrow hforeign

/-- The words before a literal do not make up a foreign phrase. -/
theorem containsAny_words : containsAny (' ' :: lower (words ws)) patterns = false := by
  rw [lower_words]
  refine containsAny_words_eq_false (fun w hw ↦ ?_) (fun w hw ↦ ?_) List.mem_cons_self hforeign.2
  · obtain ⟨w, hmem, rfl⟩ := List.mem_map.mp hw
    rw [mem_lower_iff rfl]
    rcases hrow w hmem with ⟨hblank, -⟩ | ⟨name, hname, rfl⟩
    · exact hblank
    · exact hname.not_mem rfl
  · obtain ⟨w, hmem, rfl⟩ := List.mem_map.mp hw
    rcases hrow w hmem with ⟨-, hfixed⟩ | ⟨name, hname, rfl⟩
    · exact .inl ⟨_, List.mem_cons_of_mem _ hfixed, String.toList_ofList.symm⟩
    · exact .inr hname.ordinary

/-- **What is looked for in words and behind a quote** is looked for behind the quote. -/
theorem containsAny_words_quote (rest : List Char) :
    containsAny (' ' :: (lower (words ws) ++ '\'' :: rest)) patterns =
      containsAny rest patterns := by
  rw [← List.cons_append, containsAny_append_sep hforeign.1, containsAny_words hrow hforeign,
    Bool.false_or]

@[inherit_doc containsAny_words_quote]
theorem containsAny_quote (rest : List Char) :
    containsAny (lower (words ws) ++ '\'' :: rest) patterns = containsAny rest patterns := by
  rw [containsAny_append_sep hforeign.1, containsAny_eq_false_of_infix
    (List.infix_cons List.infix_rfl) (containsAny_words hrow hforeign), Bool.false_or]

end Row

theorem lower_enclosed (body : List Char) : lower (enclosed body) = enclosed (lower body) := by
  rw [enclosed, lower_cons, lower_append]
  rfl

/-- A phrase does not begin in a piece without blanks. -/
theorem containsAny_skip {fixed patterns : List String} (hforeign : Foreign fixed patterns)
    {u : List Char} (hu : ' ' ∉ u) (l : List Char) :
    containsAny (u ++ l) patterns = containsAny l patterns := by
  rw [containsAny, containsAny, Bool.eq_iff_iff, List.any_eq_true, List.any_eq_true]
  refine exists_congr fun pattern ↦ and_congr_right fun hpattern ↦ ?_
  rw [contains_iff, contains_iff, (hforeign.2 pattern hpattern).1.1, infix_skip hu]

/-- The patterns are phrases between blanks, and none has all letters of the keyword. -/
def Across (keyword : String) (patterns : List String) : Prop :=
  ' ' ∉ keyword.toList ∧ ∀ pattern ∈ patterns, pattern.toList.head? = some ' ' ∧
    pattern.toList.getLast? = some ' ' ∧ ¬keyword.toList ⊆ pattern.toList

instance (keyword : String) (patterns : List String) : Decidable (Across keyword patterns) :=
  inferInstanceAs (Decidable (_ ∧ ∀ pattern ∈ patterns, _))

/-- **A phrase does not occur across a keyword** that it does not have. -/
theorem containsAny_across {keyword : String} {patterns : List String}
    (h : Across keyword patterns) (u rest : List Char) :
    containsAny (u ++ ' ' :: (keyword.toList ++ ' ' :: rest)) patterns =
      (containsAny (u ++ [' ']) patterns || containsAny (' ' :: rest) patterns) := by
  rw [containsAny, containsAny, containsAny, Bool.eq_iff_iff, Bool.or_eq_true, List.any_eq_true,
    List.any_eq_true, List.any_eq_true, ← exists_or]
  refine exists_congr fun pattern ↦ ?_
  rw [← and_or_left]
  refine and_congr_right fun hpattern ↦ ?_
  obtain ⟨hhead, hlast, hsubset⟩ := h.2 pattern hpattern
  obtain ⟨c, hc, hnot⟩ : ∃ c ∈ keyword.toList, c ∉ pattern.toList := by
    rw [List.subset_def] at hsubset
    push Not at hsubset
    exact hsubset
  obtain ⟨p, hp⟩ := List.head?_eq_some_iff.mp hhead
  obtain ⟨q, hq⟩ := List.getLast?_eq_some_iff.mp hlast
  obtain ⟨before, behind, hkeyword⟩ := List.append_of_mem hc
  have hblank := h.1
  rw [hkeyword, List.mem_append, List.mem_cons, not_or, not_or] at hblank
  have htext : u ++ ' ' :: (keyword.toList ++ ' ' :: rest) =
      (u ++ ' ' :: before) ++ c :: (behind ++ ' ' :: rest) := by
    rw [hkeyword]
    simp
  -- what is in front of the missing letter ends with the blank before the keyword
  have hfront : pattern.toList <:+: u ++ ' ' :: before ↔ pattern.toList <:+: u ++ [' '] := by
    rw [← List.reverse_infix, ← @List.reverse_infix _ _ (u ++ [' ']), hq, List.reverse_concat,
      List.append_cons, List.reverse_append]
    rw [infix_skip (by rw [List.mem_reverse]; exact hblank.1)]
  rw [contains_iff, contains_iff, contains_iff, htext,
    infix_append_sep hnot (hp ▸ List.cons_ne_nil _ _), hfront, hp, infix_skip hblank.2.2]

/-- A phrase is more than a character. -/
theorem containsAny_short {fixed patterns : List String} (hforeign : Foreign fixed patterns)
    {l : List Char} (hl : l.length < 2) : containsAny l patterns = false := by
  rw [containsAny, List.any_eq_false]
  intro pattern hpattern hcontains
  obtain ⟨⟨heq, -, -⟩, keyword, -, hmem, -⟩ := hforeign.2 pattern hpattern
  have hle := (contains_iff.mp hcontains).length_le
  obtain ⟨v, vs, hwords⟩ := List.exists_cons_of_ne_nil (List.ne_nil_of_mem hmem)
  rw [heq, hwords, words_cons, List.length_cons, List.length_append, List.length_append,
    List.length_cons] at hle
  omega

/-- Before a closing quote, and the end of the text or a character. -/
theorem containsAny_closed {fixed patterns : List String} (hforeign : Foreign fixed patterns)
    {rest : List Char} (hrest : rest.length < 2) (body : List Char) :
    containsAny (body ++ '\'' :: rest) patterns = containsAny body patterns := by
  rw [containsAny_append_sep hforeign.1, containsAny_short hforeign hrest, Bool.or_false]

/-- **The foreign phrases of a text that ends with an enclosed one** are in that one. -/
theorem containsAny_enclosed {fixed patterns : List String} {ws : List (List Char)}
    (hrow : IsRow fixed ws) (hforeign : Foreign fixed patterns) (body : List Char) :
    containsAny (' ' :: lower (words ws ++ enclosed body)) patterns =
      containsAny (lower body) patterns := by
  rw [lower_append, lower_enclosed, enclosed, containsAny_words_quote hrow hforeign,
    containsAny_closed hforeign (by decide)]

/-! ## Equations -/

theorem trim_enclosed (body : List Char) : trim (enclosed body) = enclosed body :=
  trimBy_eq_self (fun c hc ↦ Option.some.inj hc ▸ rfl) (fun c hc ↦ by
    rw [enclosed, ← List.cons_append, List.getLast?_concat] at hc
    exact Option.some.inj hc ▸ rfl)

theorem getLast?_append_enclosed (l body : List Char) :
    (l ++ enclosed body).getLast? = some '\'' := by
  rw [enclosed, ← List.cons_append, ← List.append_assoc, List.getLast?_concat]

/-- `a = 'body'`. -/
def equationText (a : String) (body : List Char) : List Char :=
  words [a.toList, ['=']] ++ enclosed body

theorem equationText_eq (a : String) (body : List Char) :
    equationText a body = (a.toList ++ [' ']) ++ '=' :: ' ' :: enclosed body := by
  simp [equationText, words]

/-- The value behind an equals sign. -/
theorem parseValue_cons_enclosed (body : List Char) :
    parseValue (' ' :: enclosed body) = .ok (.text (String.ofList (undouble '\'' body))) :=
  parseValue_enclosed ((trimBy_cons rfl (enclosed body)).trans (trim_enclosed body))

/-- The words of an equation before its value. -/
theorem isRow_equation {a : String} (h : SimpleName a) : IsRow ["="] [a.toList, ['=']] := by
  simp only [IsRow, List.forall_mem_cons]
  exact ⟨.inr ⟨a, h, rfl⟩, .inl (by decide), fun _ hw ↦ absurd hw List.not_mem_nil⟩

/-- The phrases in an equation are those in its text, if the column is a simple name. -/
theorem containsAny_equation {a : String} (h : SimpleName a) {patterns : List String}
    (hforeign : Foreign ["="] patterns) (body : List Char) :
    containsAny (' ' :: lower (equationText a body)) patterns =
      containsAny (lower body) patterns :=
  containsAny_enclosed (isRow_equation h) hforeign body

section Equation

variable {a : String} (h : IsColumn a) (body : List Char)
include h

/-- An equation is cut at its equals sign. -/
theorem splitOnceTopLevel_equation (rest : List Char) :
    splitOnceTopLevel (words [a.toList, ['=']] ++ rest) '=' =
      some (a.toList ++ [' '], ' ' :: rest) := by
  have htext : words [a.toList, ['=']] ++ rest = (a.toList ++ [' ']) ++ '=' :: ' ' :: rest := by
    simp [words]
  rw [htext, splitOnceTopLevel]
  refine Scan.splitOnce_plain (by simp [Scan.Plain]) (fun c hc ↦ ?_) (' ' :: rest)
  rcases List.mem_append.mp hc with hc | hc
  · exact h.plain c hc
  · obtain rfl := List.mem_singleton.mp hc
    exact ⟨by simp [Scan.Plain], by decide⟩

theorem trim_equation : trim (equationText a body) = equationText a body := by
  rw [equationText_eq, List.append_assoc]
  refine trim_append h.ne_nil (not_of_trimBy_eq_self h.trimmed).1 ?_
  have hends : [' '] ++ '=' :: ' ' :: enclosed body = " = ".toList ++ enclosed body := rfl
  rw [hends, getLast?_append_enclosed]

omit h in
/-- The name before the equals sign. -/
theorem identifier_concat : identifier (a.toList ++ [' ']) = normalizeIdentifier a := by
  rw [identifier, normalizeIdentifier, normalizeIdentifier, String.toList_ofList, trim,
    trimBy_concat rfl, ← trim]

omit h in
/-- What an equation is looked for at its beginning is looked for in its column. -/
theorem startsWithCi_equationText {pre : List Char} (hpre : ∀ c ∈ pre, c.toLower ≠ ' ') :
    startsWithCi (equationText a body) pre = startsWithCi a.toList pre := by
  rw [equationText_eq, List.append_assoc]
  exact startsWithCi_append hpre a.toList ('=' :: ' ' :: enclosed body)

/-- **An equation is read as a filter**, whatever is between its first quote and its last one. -/
theorem parseFilter_equation (hplain : beginsPredicate a = false) :
    parseFilter (equationText a body) =
      .ok (.equals (normalizeIdentifier a) (.text (String.ofList (undouble '\'' body)))) := by
  rw [beginsPredicate, Bool.or_eq_false_iff] at hplain
  rw [parseFilter, startsWithCi_equationText body (by decide),
    startsWithCi_equationText body (by decide), hplain.1, hplain.2, equationText,
    splitOnceTopLevel_equation h]
  simp only [parseValue_cons_enclosed, identifier_concat]
  rfl

/-- Behind the beginning of its name, a column is not followed by a parenthesis. -/
theorem parenthesizedBody_equation_ne {n : Nat} (hn : n ≤ a.toList.length) (stop : Nat)
    (context : String) (inner : List Char) :
    parenthesizedBody (((equationText a body).take stop).drop n) context ≠ .ok inner := by
  intro hinner
  rw [parenthesizedBody] at hinner
  split at hinner
  · rename_i hends
    obtain ⟨more, hmore⟩ := List.head?_eq_some_iff.mp hends.1
    have hequals := equationText_eq a body
    generalize equationText a body = text at hmore hequals
    obtain ⟨front, back, hcut, hfront, -⟩ := exists_eq_append_trimBy isWhitespace
      ((text.take stop).drop n)
    rw [← trim, hmore] at hcut
    have hbefore : (a.toList ++ [' ']) ++ '=' :: (' ' :: enclosed body) =
        ((text.take stop).take n ++ front) ++ '(' :: (more ++ back ++ text.drop stop) := by
      rw [← hequals]
      nth_rewrite 1 [← List.take_append_drop stop text]
      nth_rewrite 1 [← List.take_append_drop n (text.take stop)]
      rw [hcut]
      simp
    have hname : '=' ∉ a.toList ∧ '(' ∉ a.toList :=
      ⟨fun hmem ↦ (h.plain _ hmem).2 rfl,
        fun hmem ↦ (h.plain _ hmem).1 (by simp)⟩
    -- the name is before the equals sign, and it is all there is before the parenthesis
    rcases List.append_eq_append_iff.mp hbefore with ⟨rest, hrest, hbehind⟩ | ⟨rest, hrest, hbehind⟩
    · rcases rest with _ | ⟨c, rest⟩
      · exact absurd (List.cons.inj hbehind).1 (by decide)
      · obtain rfl := (List.cons.inj hbehind).1
        have hmem : '=' ∈ (text.take stop).take n ++ front :=
          hrest ▸ List.mem_append_right _ List.mem_cons_self
        rcases List.mem_append.mp hmem with hmem | hmem
        · have htake : text.take n = a.toList.take n := by
            rw [hequals, List.append_assoc, List.take_append_of_le_length hn]
          rw [List.take_take, Nat.min_comm, ← List.take_take, htake] at hmem
          exact hname.1 (List.mem_of_mem_take (List.mem_of_mem_take hmem))
        · exact absurd (hfront _ hmem) (by decide)
    · rcases rest with _ | ⟨c, rest⟩
      · exact absurd (List.cons.inj hbehind).1 (by decide)
      · obtain rfl := (List.cons.inj hbehind).1
        have hmem : '(' ∈ a.toList ++ [' '] := hrest ▸ List.mem_append_right _ List.mem_cons_self
        rcases List.mem_append.mp hmem with hmem | hmem
        · exact hname.2 hmem
        · exact absurd hmem (by decide)
  · cases hinner

/-- **An equation whose column begins like a predicate** is an error. -/
theorem parseFilter_equation_error (hpredicate : beginsPredicate a = true) :
    ∃ error, parseFilter (equationText a body) = .error error := by
  rcases hfilter : parseFilter (equationText a body) with error | filter
  · exact ⟨error, rfl⟩
  · exfalso
    have hlength {pre : List Char} (hpre : startsWithCi a.toList pre = true) :
        pre.length ≤ a.toList.length := by
      have hle := (ByteParser.startsWithCi_iff.mp hpre).length_le
      rwa [length_lower, length_lower] at hle
    rw [parseFilter, startsWithCi_equationText body (by decide),
      startsWithCi_equationText body (by decide)] at hfilter
    rw [beginsPredicate, Bool.or_eq_true] at hpredicate
    split at hfilter
    · rename_i hmatch
      obtain ⟨inner, hinner, -⟩ := bind_eq_ok_iff.mp hfilter
      rw [← List.take_length (l := equationText a body)] at hinner
      exact parenthesizedBody_equation_ne h body (hlength hmatch) _ _ _ hinner
    · rename_i hmatch
      have hdistance := hpredicate.resolve_left hmatch
      rw [if_pos hdistance] at hfilter
      obtain ⟨⟨function, meters, inclusive⟩, hparts, hfilter⟩ := bind_eq_ok_iff.mp hfilter
      obtain ⟨inner, hinner, -⟩ := bind_eq_ok_iff.mp hfilter
      obtain ⟨stop, rfl⟩ : ∃ stop, function = (equationText a body).take stop := by
        split at hparts
        · exact ⟨_, (Prod.mk.inj (Except.ok.inj hparts)).1.symm⟩
        · split at hparts
          · exact ⟨_, (Prod.mk.inj (Except.ok.inj hparts)).1.symm⟩
          · cases hparts
      exact parenthesizedBody_equation_ne h body (hlength hdistance) _ _ _ hinner

/-- An equation is a clause that is executed, or an error. -/
theorem isAdvancedWhereClause_equation : isAdvancedWhereClause (equationText a body) = false := by
  rw [isAdvancedWhereClause, trim_equation h, startsWithCi_equationText body (by decide),
    startsWithCi_equationText body (by decide)]
  rcases hplain : beginsPredicate a with _ | _
  · rw [parseFilter_equation h body hplain]
    exact if_pos (Bool.or_true _)
  · rw [beginsPredicate] at hplain
    rw [hplain, if_pos rfl, ite_self]

end Equation

/-! ## Statements -/

/-- A text that begins with a keyword and ends with a quote or a parenthesis is read as it is. -/
theorem parseSqlWithDialect_of_ends {l : List Char} {c d : Char} (hhead : l.head? = some c)
    (hlast : l.getLast? = some d) (hc : c ∈ ['S', 'I', 'U', 'D']) (hd : d ∈ ['\'', ')'])
    (dialect : SqlDialect) :
    parseSqlWithDialect (String.ofList l) dialect = parseStatement l dialect := by
  simp only [List.mem_cons, List.not_mem_nil, or_false] at hc hd
  have hnonempty : l ≠ [] := by
    rintro rfl
    cases hhead
  have htrim : trim l = l := by
    refine trimBy_eq_self (fun x hx ↦ ?_) (fun x hx ↦ ?_)
    · obtain rfl := Option.some.inj (hhead.symm.trans hx)
      rcases hc with rfl | rfl | rfl | rfl <;> rfl
    · obtain rfl := Option.some.inj (hlast.symm.trans hx)
      rcases hd with rfl | rfl <;> rfl
  have hsemicolon : trimEndMatches ';' l = l := by
    rw [trimEndMatches, List.rdropWhile_eq_self_iff]
    intro hne
    rw [List.getLast?_eq_some_getLast hne] at hlast
    rw [Option.some.inj hlast]
    rcases hd with rfl | rfl <;> decide
  have hstrip : stripStatement l = l := by rw [stripStatement, htrim, hsemicolon, htrim]
  have hexplain : startsWithCi l "EXPLAIN".toList = false := by
    obtain ⟨x, m, rfl⟩ := List.exists_cons_of_ne_nil hnonempty
    obtain rfl := Option.some.inj hhead
    rcases hc with rfl | rfl | rfl | rfl <;> rfl
  rw [parseSqlWithDialect, String.toList_ofList, parseSqlFuel, hstrip, hexplain,
    List.isEmpty_eq_false_iff.mpr hnonempty]
  rfl

/-- A statement that is only parsed is kept as a text. -/
theorem parseWithTarget_ok {sql : List Char} {pre : String}
    (h : (trim (sql.drop pre.length)).isEmpty = false) (required : String)
    (kind : ParsedOnlyStatementKind) :
    parseWithTarget required sql kind pre = .ok (.parsedOnly kind (String.ofList sql)) := by
  rw [parseWithTarget, h, if_neg Bool.false_ne_true]

end Fsql
