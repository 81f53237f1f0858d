import Fsql.Sql.RowStatements

/-!
# Statements of ordinary names

The six statements of `Canonical` are what an application writes with names and integers of its own.
`parse_canonical_iff` says which of their names are not read as names: the parser looks for its
keywords without regard to where a word ends, so that a name may not begin with `unique` behind a
blank of a `CREATE TABLE`, nor with `asc` or `desc` in a `CREATE INDEX`, nor contain `values` in an
`INSERT`, nor begin with `distinct` or `all` behind a `SELECT`, nor begin like a predicate behind a
`WHERE`.
-/

set_option autoImplicit false

namespace Fsql

open Number Text

namespace Canonical

/-- `CREATE TABLE t (c₁ INTEGER PRIMARY KEY, c₂ TEXT)`. -/
def createTableText (t c₁ c₂ : OrdinaryName) : String :=
  "CREATE TABLE " ++ t.text ++ " (" ++ c₁.text ++ " INTEGER PRIMARY KEY, " ++ c₂.text ++ " TEXT)"

/-- `CREATE INDEX i ON t(c)`. -/
def createIndexText (i t c : OrdinaryName) : String :=
  "CREATE INDEX " ++ i.text ++ " ON " ++ t.text ++ "(" ++ c.text ++ ")"

/-! ## `CREATE INDEX` -/

/-- The table and the column of a `CREATE INDEX`. -/
def indexTarget (t c : OrdinaryName) : List Char := t.word ++ '(' :: (c.word ++ [')'])

/-- The words of a `CREATE INDEX` behind its keywords. -/
def indexWords (i t c : OrdinaryName) : List (List Char) :=
  [i.word] ++ "ON".toList :: [indexTarget t c]

/-- What a `CREATE INDEX` is only parsed for if a name behind a blank begins with one of these. -/
def orderNames : List String := ["desc", "asc"]

section CreateIndex

variable (i t c : OrdinaryName)

theorem toList_createIndexText : (createIndexText i t c).toList =
    join ' ' ("CREATE".toList :: "INDEX".toList :: indexWords i t c) := by
  dsimp only [createIndexText]
  simp [indexWords, indexTarget, join, OrdinaryName.word]

theorem isWord_indexTarget : IsWord (indexTarget t c) ∧ ';' ∉ indexTarget t c := by
  constructor
  · refine t.isWord.append (List.forall_mem_cons.mpr ⟨by decide, fun d hd ↦ ?_⟩)
    rcases List.mem_append.mp hd with hd | hd
    · exact c.isWord.2 d hd
    · exact List.mem_singleton.mp hd ▸ rfl
  · simp [indexTarget, t.not_mem (by decide : isWordChar ';' = false),
      c.not_mem (by decide : isWordChar ';' = false)]

theorem isWord_indexWords : ∀ w ∈ indexWords i t c, IsWord w ∧ ';' ∉ w := by
  simp only [indexWords, List.cons_append, List.nil_append, List.forall_mem_cons]
  exact ⟨isWord_name i, by decide, isWord_indexTarget t c, fun _ hw ↦ absurd hw List.not_mem_nil⟩

theorem lower_indexTarget : lower (indexTarget t c) = indexTarget t c := by
  simp only [indexTarget, lower_append, lower_cons, t.lower_word, c.lower_word]
  rfl

/-- The table's name is followed by a parenthesis. -/
theorem prefix_indexTarget_iff {p : List Char}
    (h : '(' ∉ p) : p <+: indexTarget t c ↔ p <+: t.word :=
  prefix_append_sep h _ _

/-- **Which phrases are in a `CREATE INDEX`.** -/
theorem containsAny_indexWords : containsAny
    (lower (join ' ' ("CREATE".toList :: "INDEX".toList :: indexWords i t c))) createIndexPhrases =
      true ↔ ¬ (i.Avoids orderNames ∧ t.Avoids orderNames) := by
  have hlower : ("CREATE".toList :: "INDEX".toList :: indexWords i t c).map lower =
      "create".toList :: ["index".toList, i.word, "on".toList, indexTarget t c] := by
    simp only [indexWords, List.map_append, List.map_cons, List.map_nil, i.lower_word,
      lower_indexTarget]
    rfl
  have hblank : ∀ w ∈ "create".toList :: ["index".toList, i.word, "on".toList, indexTarget t c],
      ' ' ∉ w := by
    simp only [List.forall_mem_cons]
    exact ⟨by decide, by decide, i.isWord.not_mem, by decide, (isWord_indexTarget t c).1.not_mem,
      fun _ hw ↦ absurd hw List.not_mem_nil⟩
  have hnil : IsRowOf ["index", "on"] [] := fun _ hw ↦ absurd hw List.not_mem_nil
  have hrow : IsRowOf ["index", "on"] ["index".toList, i.word, "on".toList, indexTarget t c] :=
    (((hnil.cons_other (List.mem_append_right t.word List.mem_cons_self)
      (by decide : '('.isAlpha = false)).cons_fixed (by decide : "on" ∈ ["index", "on"])).cons_name
        i).cons_fixed (by decide : "index" ∈ ["index", "on"])
  have hforeign : ∀ pattern ∈ createIndexPhrases, BeginsBlank pattern ∧
      (phraseWords pattern = [] ∨ IsForeign ["index", "on"] pattern) := by decide
  have hopeners : openers createIndexPhrases = orderNames.map String.toList := by decide
  rw [lower_join, hlower, containsAny_row_iff hblank fun pattern hpattern ↦
    ⟨(hforeign pattern hpattern).1, (hforeign pattern hpattern).2.imp_right hrow.not_occurs⟩,
    hopeners]
  constructor
  · rintro ⟨_, hp, u, hu, hpre⟩ ⟨hi, ht⟩
    obtain ⟨text, htext, rfl⟩ := List.mem_map.mp hp
    have hfixed : ∀ text ∈ orderNames, ¬ text.toList <+: "index".toList ∧
        ¬ text.toList <+: "on".toList ∧ '(' ∉ text.toList := by decide
    obtain ⟨hindex, hon, hparen⟩ := hfixed text htext
    simp only [List.mem_cons, List.not_mem_nil, or_false] at hu
    rcases hu with rfl | rfl | rfl | rfl
    · exact hindex hpre
    · exact hi text htext hpre
    · exact hon hpre
    · exact ht text htext ((prefix_indexTarget_iff t c hparen).mp hpre)
  · intro hnot
    rw [not_and_or, i.not_avoids_iff, t.not_avoids_iff] at hnot
    rcases hnot with ⟨text, htext, hpre⟩ | ⟨text, htext, hpre⟩
    · exact ⟨_, List.mem_map.mpr ⟨text, htext, rfl⟩, i.word, by simp, hpre⟩
    · exact ⟨_, List.mem_map.mpr ⟨text, htext, rfl⟩, indexTarget t c, by simp,
        hpre.trans (List.prefix_append _ _)⟩

theorem join_indexWords : join ' ' ("CREATE".toList :: "INDEX".toList :: indexWords i t c) =
    ("CREATE INDEX ".toList ++ (i.word ++ (" ON ".toList ++ t.word))) ++
      '(' :: (c.word ++ [')']) := by
  have hleft : ("CREATE INDEX ".toList ++ (i.word ++ (" ON ".toList ++ t.word))) ++
      '(' :: (c.word ++ [')']) =
        "CREATE INDEX ".toList ++ (i.word ++ (" ON ".toList ++ indexTarget t c)) := by
    simp only [List.append_assoc, indexTarget]
  rw [hleft]
  rfl

/-- One column in parentheses is an index that is executed. -/
theorem isAdvancedCreateIndex_indexWords (h : i.Avoids orderNames ∧ t.Avoids orderNames) :
    isAdvancedCreateIndex (join ' ' ("CREATE".toList :: "INDEX".toList :: indexWords i t c)) =
      .ok false := by
  have hphrases := mt (containsAny_indexWords i t c).mp (not_not.mpr h)
  have hparen : '(' ∉ "CREATE INDEX ".toList ++ (i.word ++ (" ON ".toList ++ t.word)) := by
    simp [i.not_mem (by decide : isWordChar '(' = false),
      t.not_mem (by decide : isWordChar '(' = false)]
  obtain ⟨hopening, hclosing, -, hslice⟩ := cut_parens hparen c.word
  have hinner : c.word.contains '(' = false := by
    rw [← Bool.not_eq_true, List.contains_iff_mem]
    exact c.not_mem (by decide)
  rw [isAdvancedCreateIndex, ← createIndexPhrases, if_neg hphrases, join_indexWords, hopening,
    hclosing]
  simp only [hslice, ByteParser.ok_bind, splitTopLevel_single c.isPiece,
    splitWhitespace_word c.isWord.2 c.word_ne_nil, hinner, List.length_singleton]
  rfl

theorem parseCreateIndex_indexWords :
    parseCreateIndex (join ' ' ("CREATE".toList :: "INDEX".toList :: indexWords i t c)) =
      .ok (.createIndex i.text t.text c.text false) := by
  have hplain : startsWithCi (join ' ' ("CREATE".toList :: "INDEX".toList :: indexWords i t c))
      "CREATE FULLTEXT INDEX".toList = false := rfl
  have hrest : trim ((join ' ' ("CREATE".toList :: "INDEX".toList :: indexWords i t c)).drop
      "CREATE INDEX".length) = join ' ' (indexWords i t c) :=
    trim_cons_join fun w hw ↦ (isWord_indexWords i t c w hw).1
  obtain ⟨hon, htake, hdrop⟩ := @cut_keyword [indexTarget t c] [] i.word "ON".toList
    (List.forall_mem_singleton.mpr i.isWord.not_mem) (by decide) List.not_mem_nil
    (List.cons_ne_nil _ _)
  have hon : findCi (join ' ' (indexWords i t c)) " ON ".toList = some i.word.length := hon
  have htake : (join ' ' (indexWords i t c)).take i.word.length = i.word := htake
  have hdrop : (join ' ' (indexWords i t c)).drop (i.word.length + " ON ".length) =
      indexTarget t c := hdrop
  have htrim : trim (indexTarget t c) = indexTarget t c := (isWord_indexTarget t c).1.trim_eq
  obtain ⟨hopening, hclosing, htable, hslice⟩ := cut_parens
    (t.not_mem (by decide : isWordChar '(' = false)) c.word
  rw [parseCreateIndex]
  simp only [hplain, Bool.false_eq_true, if_false, hrest, hon, htake, hdrop, htrim]
  rw [indexTarget, hopening, hclosing]
  simp only [hslice, ByteParser.ok_bind, htable, i.identifier_eq i.isWord.trim_eq,
    t.identifier_eq t.isWord.trim_eq, c.identifier_eq c.isWord.trim_eq]
  rfl

/-- **When a `CREATE INDEX` is read as it is meant.** -/
theorem parse_createIndex_iff (dialect : SqlDialect) :
    parseSqlWithDialect (createIndexText i t c) dialect =
        .ok (.createIndex i.text t.text c.text false) ↔
      i.Avoids orderNames ∧ t.Avoids orderNames := by
  have hword : ∀ w ∈ "CREATE".toList :: "INDEX".toList :: indexWords i t c, IsWord w ∧ ';' ∉ w := by
    rw [List.forall_mem_cons, List.forall_mem_cons]
    exact ⟨by decide, by decide, isWord_indexWords i t c⟩
  constructor
  · intro hok
    have haccepts : AcceptsIndex _ := accepts_of_parseSqlWithDialect hok
    have hphrases := phrases_of_not_advanced haccepts.plain
    rw [toList_createIndexText, stripStatement_join hword, ← Bool.not_eq_true,
      containsAny_indexWords, not_not] at hphrases
    exact hphrases
  · intro h
    have hphrases := mt (containsAny_indexWords i t c).mp (not_not.mpr h)
    rw [parse_of_toList (toList_createIndexText i t c) hword (by decide : "CREATE".toList ≠ [])
        (by decide) rfl,
      parseStatement_of_createIndex rfl (Bool.not_eq_true _ ▸ hphrases),
      isAdvancedCreateIndex_indexWords i t c h, ByteParser.ok_bind, if_neg Bool.false_ne_true]
    exact parseCreateIndex_indexWords i t c

end CreateIndex

/-! ## `CREATE TABLE` -/

/-- The words of a `CREATE TABLE` behind its keywords. -/
def tableWords (t c₁ c₂ : OrdinaryName) : List (List Char) :=
  [t.word, '(' :: c₁.word, "INTEGER".toList, "PRIMARY".toList, "KEY,".toList, c₂.word,
    "TEXT)".toList]

/-- The words of the first definition, -/
def keyWords (c₁ : OrdinaryName) : List (List Char) :=
  [c₁.word, "INTEGER".toList, "PRIMARY".toList, "KEY".toList]

/-- and of the second one. -/
def textWords (c₂ : OrdinaryName) : List (List Char) := [c₂.word, "TEXT".toList]

/-- What a `CREATE TABLE` is only parsed for if a name behind a blank begins with one of these. -/
def constraintNames : List String := ["unique", "autoincrement"]

section CreateTable

variable (t c₁ c₂ : OrdinaryName)

theorem toList_createTableText : (createTableText t c₁ c₂).toList =
    join ' ' ("CREATE".toList :: "TABLE".toList :: tableWords t c₁ c₂) := by
  dsimp only [createTableText]
  simp [tableWords, join, OrdinaryName.word]

theorem isWord_tableWords : ∀ w ∈ tableWords t c₁ c₂, IsWord w ∧ ';' ∉ w := by
  have hparen : ';' ∉ '(' :: c₁.word := by simp [c₁.not_mem (by decide : isWordChar ';' = false)]
  simp only [tableWords, List.forall_mem_cons]
  exact ⟨isWord_name t, ⟨c₁.isWord.cons rfl, hparen⟩, by decide, by decide, by decide,
    isWord_name c₂, by decide, fun _ hw ↦ absurd hw List.not_mem_nil⟩

/-! ### The phrases -/

/-- The words of a `CREATE TABLE` behind the first one, in lower case. -/
def lowerTableWords : List (List Char) :=
  ["table".toList, t.word,
    '(' :: c₁.word, "integer".toList, "primary".toList, "key,".toList, c₂.word,
    "text)".toList]

theorem lower_tableWords : ("CREATE".toList :: "TABLE".toList :: tableWords t c₁ c₂).map lower =
    "create".toList :: lowerTableWords t c₁ c₂ := by
  simp only [tableWords, lowerTableWords, List.map_cons, List.map_nil, lower_cons, t.lower_word,
    c₁.lower_word, c₂.lower_word]
  rfl

theorem isRowOf_lowerTableWords :
    IsRowOf ["table", "integer", "primary"] (lowerTableWords t c₁ c₂) := by
  have hnil : IsRowOf ["table", "integer", "primary"] [] := fun _ hw ↦ absurd hw List.not_mem_nil
  have htext := (hnil.cons_other (by decide : ')' ∈ "text)".toList) (by decide)).cons_name c₂
  have hkey := htext.cons_other (by decide : ',' ∈ "key,".toList) (by decide)
  have htypes :=
    (hkey.cons_fixed (by decide : "primary" ∈ ["table", "integer", "primary"])).cons_fixed
    (by decide : "integer" ∈ ["table", "integer", "primary"])
  exact ((htypes.cons_other List.mem_cons_self (by decide)).cons_name t).cons_fixed (by decide)

/-- The primary key is followed by a comma. -/
theorem not_occurs_primaryKey (p : List Char) :
    ¬ Occurs ["primary".toList, "key".toList] p (lowerTableWords t c₁ c₂) := by
  have hname (name : OrdinaryName) : "primary".toList ≠ name.word := fun heq ↦
    name.unreserved (String.toList_inj.mp heq ▸ by decide)
  simp only [lowerTableWords, Occurs, Begins]
  rintro (⟨heq, -⟩ | ⟨heq, -⟩ | ⟨heq, -⟩ | ⟨heq, -⟩ | ⟨-, heq, -⟩ | ⟨heq, -⟩ | ⟨heq, -⟩ | ⟨heq, -⟩ |
    heq)
  · exact absurd heq (by decide)
  · exact hname t heq
  · exact absurd (List.cons.inj heq).1 (by decide)
  · exact absurd heq (by decide)
  · exact absurd heq (by decide)
  · exact absurd heq (by decide)
  · exact hname c₂ heq
  · exact absurd heq (by decide)
  · exact heq

/-- The phrases that make a `CREATE TABLE` an advanced one, but for the one at its end. -/
def createTablePhrases : List String :=
  [" if not exists", " without rowid"] ++ [" as select", " constraint ", " foreign key",
    " primary key (", " check ", " check(", " unique", " default ", " not null", " references ",
    " generated ", " collate ", " autoincrement"]

/-- **Which phrases are in a `CREATE TABLE`.** -/
theorem containsAny_tableWords : containsAny
    (lower (join ' ' ("CREATE".toList :: "TABLE".toList :: tableWords t c₁ c₂)))
      createTablePhrases =
      true ↔ ¬ (t.Avoids constraintNames ∧ c₂.Avoids constraintNames) := by
  have hblank : ∀ w ∈ "create".toList :: lowerTableWords t c₁ c₂, ' ' ∉ w := by
    rw [← lower_tableWords]
    intro w hw
    obtain ⟨v, hv, rfl⟩ := List.mem_map.mp hw
    rw [mem_lower_iff (by decide)]
    have hword : ∀ w ∈ "CREATE".toList :: "TABLE".toList :: tableWords t c₁ c₂, IsWord w := by
      rw [List.forall_mem_cons, List.forall_mem_cons]
      exact ⟨by decide, by decide, fun w hw ↦ (isWord_tableWords t c₁ c₂ w hw).1⟩
    exact (hword v hv).not_mem
  have hforeign : ∀ pattern ∈ createTablePhrases, BeginsBlank pattern ∧
      (phraseWords pattern = [] ∨ IsForeign ["table", "integer", "primary"] pattern ∨
        phraseWords pattern = ["primary".toList, "key".toList]) := by decide
  have hphrases : ∀ pattern ∈ createTablePhrases, BeginsBlank pattern ∧ (phraseWords pattern = [] ∨
      ¬ Occurs (phraseWords pattern) (phraseEnd pattern) (lowerTableWords t c₁ c₂)) := by
    intro pattern hpattern
    obtain ⟨hbegins, hnil | hforeign | hprimary⟩ := hforeign pattern hpattern
    · exact ⟨hbegins, .inl hnil⟩
    · exact ⟨hbegins, .inr ((isRowOf_lowerTableWords t c₁ c₂).not_occurs hforeign)⟩
    · exact ⟨hbegins, .inr (hprimary ▸ not_occurs_primaryKey t c₁ c₂ _)⟩
  have hopeners : openers createTablePhrases =
    "check(".toList :: constraintNames.map String.toList := by
    decide
  rw [lower_join, lower_tableWords, containsAny_row_iff hblank hphrases, hopeners]
  constructor
  · rintro ⟨p, hp, u, hu, hpre⟩ ⟨ht, hc₂⟩
    have hfixed : ∀ p ∈ "check(".toList :: constraintNames.map String.toList,
        ¬ p <+: "table".toList ∧ ¬ p <+: "integer".toList ∧ ¬ p <+: "primary".toList ∧
          ¬ p <+: "key,".toList ∧ ¬ p <+: "text)".toList ∧ p.head? ≠ some '(' ∧ p ≠ [] := by decide
    obtain ⟨htable, hinteger, hprimary, hkey, htext, hhead, hne⟩ := hfixed p hp
    have hname {name : OrdinaryName} (h : name.Avoids constraintNames) : ¬ p <+: name.word := by
      intro hpre
      rcases List.mem_cons.mp hp with rfl | hp
      · exact name.not_mem (by decide : isWordChar '(' = false) (hpre.subset (by decide))
      · obtain ⟨text, hmem, rfl⟩ := List.mem_map.mp hp
        exact h text hmem hpre
    simp only [lowerTableWords, List.mem_cons, List.not_mem_nil, or_false] at hu
    rcases hu with rfl | rfl | rfl | rfl | rfl | rfl | rfl | rfl
    · exact htable hpre
    · exact hname ht hpre
    · obtain ⟨d, p, rfl⟩ := List.exists_cons_of_ne_nil hne
      exact hhead (congrArg some (List.cons_prefix_cons.mp hpre).1)
    · exact hinteger hpre
    · exact hprimary hpre
    · exact hkey hpre
    · exact hname hc₂ hpre
    · exact htext hpre
  · intro hnot
    rw [not_and_or, t.not_avoids_iff, c₂.not_avoids_iff] at hnot
    rcases hnot with ⟨text, htext, hpre⟩ | ⟨text, htext, hpre⟩
    · exact ⟨_, List.mem_cons_of_mem _ (List.mem_map.mpr ⟨text, htext, rfl⟩), t.word,
        by simp [lowerTableWords], hpre⟩
    · exact ⟨_, List.mem_cons_of_mem _ (List.mem_map.mpr ⟨text, htext, rfl⟩), c₂.word,
        by simp [lowerTableWords], hpre⟩

/-- A text that ends with a parenthesis does not end with a word. -/
theorem isAdvancedCreateTable_eq : isAdvancedCreateTable
    (join ' ' ("CREATE".toList :: "TABLE".toList :: tableWords t c₁ c₂)) =
      containsAny (lower (join ' ' ("CREATE".toList :: "TABLE".toList :: tableWords t c₁ c₂)))
        createTablePhrases := by
  have hends : endsWith (lower (join ' ' ("CREATE".toList :: "TABLE".toList :: tableWords t c₁ c₂)))
      " strict".toList = false := by
    rw [← Bool.not_eq_true, endsWith, List.isSuffixOf_iff_suffix]
    rintro ⟨l, hl⟩
    have hlast := congrArg List.getLast? hl
    have hlower : lower (join ' ' ("CREATE".toList :: "TABLE".toList :: tableWords t c₁ c₂)) =
        join ' ' (("create".toList :: (lowerTableWords t c₁ c₂).dropLast) ++ ["text)".toList]) := by
      rw [lower_join, lower_tableWords]
      rfl
    rw [hlower, getLast?_join (by decide),
      show " strict".toList = " stric".toList ++ ['t'] from rfl,
      ← List.append_assoc, List.getLast?_concat] at hlast
    exact absurd hlast (by decide)
  rw [isAdvancedCreateTable, hends, Bool.or_false, createTablePhrases, containsAny, containsAny,
    containsAny, List.any_append]

/-! ### The definitions -/

theorem isWord_keyWords : ∀ w ∈ keyWords c₁, IsWord w := by
  simp only [keyWords, List.forall_mem_cons]
  exact ⟨c₁.isWord, by decide, by decide, by decide, fun _ hw ↦ absurd hw List.not_mem_nil⟩

theorem isWord_textWords : ∀ w ∈ textWords c₂, IsWord w := by
  simp only [textWords, List.forall_mem_cons]
  exact ⟨c₂.isWord, by decide, fun _ hw ↦ absurd hw List.not_mem_nil⟩

/-- The first column is the primary key, -/
theorem parseColumn_keyWords :
    parseColumn (join ' ' (keyWords c₁)) = .ok ⟨c₁.text, .integer, true⟩ := by
  have hty : ColumnType.parse "INTEGER".toList = .ok .integer := by decide
  have hkey : contains (lower (join ' ' (keyWords c₁))) "primary key".toList = true := by
    have htext : join ' ' (keyWords c₁) = (c₁.word ++ " INTEGER ".toList) ++
      "PRIMARY KEY".toList := by
      rw [List.append_assoc]
      rfl
    rw [contains_iff, htext, lower_append]
    exact (List.suffix_append _ _).isInfix
  rw [parseColumn, splitWhitespace_join (isWord_keyWords c₁)]
  simp only [keyWords, hty, c₁.identifier_eq c₁.isWord.trim_eq]
  rw [← keyWords, hkey]
  rfl

/-- and the second one is not. -/
theorem parseColumn_textWords :
    parseColumn (join ' ' (textWords c₂)) = .ok ⟨c₂.text, .text, false⟩ := by
  have hty : ColumnType.parse "TEXT".toList = .ok .text := by decide
  have hkey : contains (lower (join ' ' (textWords c₂))) "primary key".toList = false := by
    have htext : lower (join ' ' (textWords c₂)) = c₂.word ++ ' ' :: "text".toList := by
      rw [lower_join, textWords, List.map_cons, c₂.lower_word]
      rfl
    rw [← Bool.not_eq_true, contains_iff, htext,
      show "primary key".toList = "primary".toList ++ ' ' :: "key".toList from rfl]
    intro hinfix
    have hpre := prefix_of_infix_sep c₂.isWord.not_mem (by decide) hinfix
    exact absurd hpre (by decide)
  rw [parseColumn, splitWhitespace_join (isWord_textWords c₂)]
  simp only [textWords, hty, c₂.identifier_eq c₂.isWord.trim_eq]
  rw [← textWords, hkey]
  rfl

/-- The text between the parentheses. -/
def definitionsText : List Char := join ' ' (keyWords c₁) ++ ',' :: (' ' :: join ' ' (textWords c₂))

theorem mapM_parseColumn_definitionsText :
    (splitTopLevel (definitionsText c₁ c₂) ',').mapM parseColumn =
      .ok [⟨c₁.text, .integer, true⟩, ⟨c₂.text, .text, false⟩] := by
  have hkey : IsPiece (join ' ' (keyWords c₁)) :=
    IsPiece.append c₁.isPiece
      (by simp [IsPiece, Scan.Plain] : IsPiece " INTEGER PRIMARY KEY".toList)
  have htext : IsPiece (' ' :: join ' ' (textWords c₂)) :=
    IsPiece.append (by simp [IsPiece, Scan.Plain] : IsPiece [' '])
      (c₂.isPiece.append (by simp [IsPiece, Scan.Plain] : IsPiece " TEXT".toList))
  rw [definitionsText, splitTopLevel_pair hkey htext, trim_join (isWord_keyWords c₁),
    trim_cons_join (isWord_textWords c₂), List.mapM_cons, parseColumn_keyWords, List.mapM_cons,
    parseColumn_textWords]
  rfl

theorem join_tableWords : join ' ' (tableWords t c₁ c₂) =
    (t.word ++ [' ']) ++ '(' :: (definitionsText c₁ c₂ ++ [')']) := by
  simp [tableWords, definitionsText, keyWords, textWords, join]

theorem parseCreateTable_tableWords :
    parseCreateTable (join ' ' ("CREATE".toList :: "TABLE".toList :: tableWords t c₁ c₂)) =
      .ok (.createTable t.text [⟨c₁.text, .integer, true⟩, ⟨c₂.text, .text, false⟩]) := by
  have hrest : trim ((join ' ' ("CREATE".toList :: "TABLE".toList :: tableWords t c₁ c₂)).drop
      "CREATE TABLE".length) = join ' ' (tableWords t c₁ c₂) :=
    trim_cons_join fun w hw ↦ (isWord_tableWords t c₁ c₂ w hw).1
  have hparen : '(' ∉ t.word ++ [' '] := by simp [t.not_mem (by decide : isWordChar '(' = false)]
  obtain ⟨hopening, hclosing, htake, hslice⟩ := cut_parens hparen (definitionsText c₁ c₂)
  rw [parseCreateTable, hrest, join_tableWords, hopening, hclosing]
  dsimp only
  rw [if_neg (by omega), htake, t.identifier_concat, if_neg t.text_ne]
  exact bind_eq_ok_iff.mpr ⟨_, hslice, bind_eq_ok_iff.mpr
    ⟨_, monadLift_eq_ok_iff.mpr (mapM_parseColumn_definitionsText c₁ c₂), rfl⟩⟩

/-- **When a `CREATE TABLE` is read as it is meant.** -/
theorem parse_createTable_iff (dialect : SqlDialect) :
    parseSqlWithDialect (createTableText t c₁ c₂) dialect =
        .ok (.createTable t.text [⟨c₁.text, .integer, true⟩, ⟨c₂.text, .text, false⟩]) ↔
      t.Avoids constraintNames ∧ c₂.Avoids constraintNames := by
  have hword : ∀ w ∈ "CREATE".toList :: "TABLE".toList :: tableWords t c₁ c₂, IsWord w ∧
    ';' ∉ w := by
    rw [List.forall_mem_cons, List.forall_mem_cons]
    exact ⟨by decide, by decide, isWord_tableWords t c₁ c₂⟩
  constructor
  · intro hok
    have haccepts : AcceptsTable _ := accepts_of_parseSqlWithDialect hok
    have hplain := haccepts.plain
    rw [toList_createTableText, stripStatement_join hword, isAdvancedCreateTable_eq,
      ← Bool.not_eq_true, containsAny_tableWords, not_not] at hplain
    exact hplain
  · intro h
    have hplain := mt (containsAny_tableWords t c₁ c₂).mp (not_not.mpr h)
    rw [parse_of_toList (toList_createTableText t c₁ c₂) hword (by decide : "CREATE".toList ≠ [])
        (by decide) rfl, parseStatement_of_createTable rfl, isAdvancedCreateTable_eq, if_neg hplain]
    exact parseCreateTable_tableWords t c₁ c₂

end CreateTable

end Canonical

/-! ## All of them -/

/-- **A canonical statement**, by the names and the integers that it is made of. -/
inductive Canonical
  /-- A table with a primary key and a text column. -/
  | createTable (t c₁ c₂ : OrdinaryName)
  /-- An index on a column of a table. -/
  | createIndex (i t c : OrdinaryName)
  /-- A row for two columns of a table. -/
  | insert (t c₁ c₂ : OrdinaryName) (n m : IntegerLiteral)
  /-- Two columns of the rows with an integer in a column. -/
  | select (c₁ c₂ t c : OrdinaryName) (n : IntegerLiteral)
  /-- An integer for the rows with another one. -/
  | update (t c₁ : OrdinaryName) (n : IntegerLiteral) (c₂ : OrdinaryName) (m : IntegerLiteral)
  /-- No rows with an integer in a column. -/
  | delete (t c : OrdinaryName) (n : IntegerLiteral)

namespace Canonical

/-- The text of the statement. -/
def text : Canonical → String
  | .createTable t c₁ c₂ => createTableText t c₁ c₂
  | .createIndex i t c => createIndexText i t c
  | .insert t c₁ c₂ n m => insertText t c₁ c₂ n m
  | .select c₁ c₂ t c n => selectText c₁ c₂ t c n
  | .update t c₁ n c₂ m => updateText t c₁ n c₂ m
  | .delete t c n => deleteText t c n

/-- The statement that the text is written for. -/
def statement : Canonical → Statement
  | .createTable t c₁ c₂ =>
    .createTable t.text [⟨c₁.text, .integer, true⟩, ⟨c₂.text, .text, false⟩]
  | .createIndex i t c => .createIndex i.text t.text c.text false
  | .insert t c₁ c₂ n m =>
    .insert t.text (some [c₁.text, c₂.text]) [.integer n.value, .integer m.value]
  | .select c₁ c₂ t c n =>
    .select t.text (.columns [c₁.text, c₂.text]) (some (equals c n)) none none
  | .update t c₁ n c₂ m => .update t.text [(c₁.text, .integer n.value)] (some (equals c₂ m))
  | .delete t c n => .delete t.text (some (equals c n))

/-- No name of the statement is taken for a keyword where it stands. -/
def Clear : Canonical → Prop
  | .createTable t _ c₂ => t.Avoids constraintNames ∧ c₂.Avoids constraintNames
  | .createIndex i t _ => i.Avoids orderNames ∧ t.Avoids orderNames
  | .insert t c₁ c₂ _ _ => ClearOfValues t c₁ c₂
  | .select c₁ _ _ c _ => c₁.Avoids quantifierNames ∧ c.Avoids predicateNames
  | .update _ _ _ c₂ _ => c₂.Avoids predicateNames
  | .delete _ c _ => c.Avoids predicateNames

/-- **When a canonical statement is read as it is meant**: exactly if its names are clear of the
keywords that the parser looks for where they stand. -/
theorem parse_canonical_iff (form : Canonical) (dialect : SqlDialect) :
    parseSqlWithDialect form.text dialect = .ok form.statement ↔ form.Clear := by
  rcases form with ⟨t, c₁, c₂⟩ | ⟨i, t, c⟩ | ⟨t, c₁, c₂, n, m⟩ | ⟨c₁, c₂, t, c, n⟩ |
    ⟨t, c₁, n, c₂, m⟩ | ⟨t, c, n⟩
  · exact parse_createTable_iff t c₁ c₂ dialect
  · exact parse_createIndex_iff i t c dialect
  · exact parse_insert_iff t c₁ c₂ n m dialect
  · exact parse_select_iff c₁ c₂ t c n dialect
  · exact parse_update_iff t c₁ n c₂ m dialect
  · exact parse_delete_iff t c n dialect

/-- A name that begins with a keyword of an `INSERT`. -/
def valuesLog : OrdinaryName := ⟨"values_log", ⟨'v', rfl, by decide⟩, by decide, by decide⟩

/-- A name that begins with a keyword of a predicate. -/
def matchCount : OrdinaryName := ⟨"match_count", ⟨'m', rfl, by decide⟩, by decide, by decide⟩

/-- The integer one. -/
def one : IntegerLiteral := ⟨"1", 1, .unsigned (by decide) (by decide) (by decide)⟩

/-- **A table of an ordinary name takes no rows, and a column of one is not compared**: with
`INSERT INTO values_log (values_log, match_count) VALUES (1, 1)` and
`DELETE FROM values_log WHERE match_count = 1`, a name is read as a keyword. -/
theorem not_parse_canonical :
    parseSqlWithDialect (insertText valuesLog valuesLog matchCount one one) .fsql ≠
        .ok (.insert "values_log" (some ["values_log", "match_count"]) [.integer 1, .integer 1]) ∧
      parseSqlWithDialect (deleteText valuesLog matchCount one) .fsql ≠
        .ok (.delete "values_log" (some (.equals "match_count" (.integer 1)))) := by
  constructor
  · intro h
    have hclear := (parse_insert_iff valuesLog valuesLog matchCount one one .fsql).mp h
    exact hclear valuesLog (by simp) (by decide)
  · intro h
    have hclear := (parse_delete_iff valuesLog matchCount one .fsql).mp h
    exact absurd hclear (by decide)

end Canonical

end Fsql
