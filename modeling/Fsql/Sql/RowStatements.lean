import Fsql.Sql.Names

/-!
# Rows by ordinary names

The four statements about rows with names and integers in them: `INSERT INTO t (c₁, c₂) VALUES (n,
m)`, `SELECT c₁, c₂ FROM t WHERE c = n`, `UPDATE t SET c₁ = n WHERE c₂ = m` and
`DELETE FROM t WHERE c = n`.  Each is a row of words, and the parser is followed through it: the
keyword that cuts it (`cut_keyword`), the phrases that are not in it (`containsAny_row_eq_false`),
and the names and integers that are read.  What remains is where a keyword is looked for without its
blanks. The parser takes the statement for another one exactly if

* a name in the `INSERT` contains `values` (`parse_insert_iff`),
* the first column of the `SELECT` begins with `distinct` or `all` (`parse_select_iff`),
* the column behind a `WHERE` begins like a predicate (`parse_select_iff`, `parse_update_iff`,
  `parse_delete_iff`).
-/

set_option autoImplicit false

namespace Fsql

open Number Text

/-! ## The statements -/

namespace Canonical

/-- `INSERT INTO t (c₁, c₂) VALUES (n, m)`. -/
def insertText (t c₁ c₂ : OrdinaryName) (n m : IntegerLiteral) : String :=
  "INSERT INTO " ++ t.text ++ " (" ++ c₁.text ++ ", " ++ c₂.text ++ ") VALUES (" ++ n.text ++
    ", " ++
    m.text ++ ")"

/-- `SELECT c₁, c₂ FROM t WHERE c = n`. -/
def selectText (c₁ c₂ t c : OrdinaryName) (n : IntegerLiteral) : String :=
  "SELECT " ++ c₁.text ++ ", " ++ c₂.text ++ " FROM " ++ t.text ++ " WHERE " ++ c.text ++ " = " ++
    n.text

/-- `UPDATE t SET c₁ = n WHERE c₂ = m`. -/
def updateText (t c₁ : OrdinaryName) (n : IntegerLiteral) (c₂ : OrdinaryName) (m : IntegerLiteral) :
    String :=
  "UPDATE " ++ t.text ++ " SET " ++ c₁.text ++ " = " ++ n.text ++ " WHERE " ++ c₂.text ++ " = " ++
    m.text

/-- `DELETE FROM t WHERE c = n`. -/
def deleteText (t c : OrdinaryName) (n : IntegerLiteral) : String :=
  "DELETE FROM " ++ t.text ++ " WHERE " ++ c.text ++ " = " ++ n.text

/-- A column equals an integer. -/
def equals (c : OrdinaryName) (n : IntegerLiteral) : Filter := .equals c.text (.integer n.value)

/-! ## Common to all of them -/

/-- Nothing is stripped from a row of words without semicolons. -/
theorem stripStatement_join {ws : List (List Char)} (h : ∀ w ∈ ws, IsWord w ∧ ';' ∉ w) :
    stripStatement (join ' ' ws) = join ' ' ws := by
  have htrim : trim (join ' ' ws) = join ' ' ws := trim_join fun w hw ↦ (h w hw).1
  have hsemicolon : trimEndMatches ';' (join ' ' ws) = join ' ' ws := by
    rw [trimEndMatches, List.rdropWhile_eq_self_iff]
    intro hne hlast
    have hmem := List.getLast_mem hne
    rw [beq_iff_eq.mp hlast] at hmem
    rcases mem_join hmem with heq | ⟨w, hw, hmem⟩
    · cases heq
    · exact (h w hw).2 hmem
  rw [stripStatement, htrim, hsemicolon, htrim]

/-- **A row of words is parsed as it is**, if it begins with a keyword. -/
theorem parse_of_toList {sql keyword : String} {ws : List (List Char)}
    (htext : sql.toList = join ' ' ws)
    (h : ∀ w ∈ ws, IsWord w ∧ ';' ∉ w) (hne : keyword.toList ≠ [])
    (hkeyword : Apart keyword ["EXPLAIN"])
    (hstarts : startsWithCi (join ' ' ws) keyword.toList = true) (dialect : SqlDialect) :
    parseSqlWithDialect sql dialect = parseStatement (join ' ' ws) dialect := by
  have hstrip : stripStatement sql.toList = join ' ' ws := by rw [htext, stripStatement_join h]
  rw [parseSqlWithDialect_of_keyword hne hkeyword (hstrip ▸ hstarts), hstrip]

/-- The words of a statement are not trimmed, stripped or split. -/
theorem isWord_name (name : OrdinaryName) : IsWord name.word ∧ ';' ∉ name.word :=
  ⟨name.isWord, name.not_mem rfl⟩

theorem isWord_literal (literal : IntegerLiteral) : IsWord literal.word ∧ ';' ∉ literal.word :=
  ⟨literal.isWord, literal.not_mem rfl⟩

theorem isWord_equation (c : OrdinaryName) (n : IntegerLiteral) :
    ∀ w ∈ equationWords c n, IsWord w ∧ ';' ∉ w := by
  simp only [equationWords, List.forall_mem_cons]
  exact ⟨isWord_name c, by decide, isWord_literal n, fun _ hw ↦ absurd hw List.not_mem_nil⟩

/-! ## `DELETE` -/

/-- The words of a `DELETE` behind its keywords. -/
def deleteWords (t c : OrdinaryName) (n : IntegerLiteral) : List (List Char) :=
  [t.word] ++ "WHERE".toList :: equationWords c n

theorem toList_deleteText (t c : OrdinaryName) (n : IntegerLiteral) :
    (deleteText t c n).toList =
      join ' ' ("DELETE".toList :: "FROM".toList :: deleteWords t c n) := by
  dsimp only [deleteText]
  simp [deleteWords, equationWords, join, OrdinaryName.word, IntegerLiteral.word]

section Delete

variable (t c : OrdinaryName) (n : IntegerLiteral)

theorem isWord_deleteWords : ∀ w ∈ deleteWords t c n, IsWord w ∧ ';' ∉ w := by
  simp only [deleteWords, List.cons_append, List.nil_append, List.forall_mem_cons]
  exact ⟨isWord_name t, by decide, isWord_equation c n⟩

theorem cut_deleteWords :
    findCi (join ' ' (deleteWords t c n)) " WHERE ".toList = some t.word.length ∧
      (join ' ' (deleteWords t c n)).take t.word.length = t.word ∧
      (join ' ' (deleteWords t c n)).drop (t.word.length + " WHERE ".length) =
        join ' ' (equationWords c n) :=
  @cut_keyword (equationWords c n) [] t.word "WHERE".toList
    (List.forall_mem_singleton.mpr t.isWord.not_mem) (by decide) List.not_mem_nil
    (List.cons_ne_nil _ _)

theorem lower_deleteWords :
    (deleteWords t c n).map lower = t.word :: "where".toList :: equationWords c n := by
  simp only [deleteWords, List.map_append, List.map_cons, List.map_nil, t.lower_word,
    lower_equationWords]
  rfl

theorem isRowOf_where : IsRowOf ["where"] ("where".toList :: equationWords c n) :=
  (isRowOf_equationWords ["where"] c n).cons_fixed List.mem_cons_self

/-- Foreign phrases are not in a `DELETE`. -/
theorem containsAny_deleteWords {patterns : List String}
    (h : ∀ pattern ∈ patterns, BeginsBlank pattern ∧ IsForeign ["where"] pattern) :
    containsAny (lower (join ' ' (deleteWords t c n))) patterns = false := by
  have hblank : ∀ w ∈ t.word :: "where".toList :: equationWords c n, ' ' ∉ w := by
    rw [List.forall_mem_cons, List.forall_mem_cons]
    exact ⟨t.isWord.not_mem, by decide, fun w hw ↦ (isWord_equationWords c n w hw).not_mem⟩
  rw [lower_join, lower_deleteWords]
  exact containsAny_row_eq_false hblank (isRowOf_where c n) h

theorem isAdvancedDelete_deleteWords :
    isAdvancedDelete ("DELETE FROM ".toList ++ join ' ' (deleteWords t c n)) = false := by
  have hrest : trim (("DELETE FROM ".toList ++ join ' ' (deleteWords t c n)).drop
      "DELETE FROM".length) = join ' ' (deleteWords t c n) :=
    trim_cons_join fun w hw ↦ (isWord_deleteWords t c n w hw).1
  obtain ⟨hwhere, htake, hdrop⟩ := cut_deleteWords t c n
  rw [isAdvancedDelete, hrest, containsAny_deleteWords t c n (by decide)]
  simp only [hwhere, Option.getD_some, htake, hdrop, t.isWord.trim_eq,
    isAdvancedFrom_word (fun _ ↦ t.isWordChar) t.word_ne_nil, trim_join (isWord_equationWords c n),
    isAdvancedWhereClause_equationWords, Bool.false_eq_true, if_false, ite_self]

/-- **When a `DELETE` is read as it is meant.** -/
theorem parse_delete_iff (dialect : SqlDialect) :
    parseSqlWithDialect (deleteText t c n) dialect = .ok (.delete t.text (some (equals c n))) ↔
      c.Avoids predicateNames := by
  have htext : join ' ' ("DELETE".toList :: "FROM".toList :: deleteWords t c n) =
      "DELETE FROM ".toList ++ join ' ' (deleteWords t c n) := rfl
  have hword : ∀ w ∈ "DELETE".toList :: "FROM".toList :: deleteWords t c n, IsWord w ∧ ';' ∉ w := by
    rw [List.forall_mem_cons, List.forall_mem_cons]
    exact ⟨by decide, by decide, isWord_deleteWords t c n⟩
  have hrest : trim (("DELETE FROM ".toList ++ join ' ' (deleteWords t c n)).drop
      "DELETE FROM".length) = join ' ' (deleteWords t c n) :=
    trim_cons_join fun w hw ↦ (isWord_deleteWords t c n w hw).1
  obtain ⟨hwhere, htake, hdrop⟩ := cut_deleteWords t c n
  rw [parse_of_toList (toList_deleteText t c n) hword (by decide : "DELETE".toList ≠ [])
    (by decide) rfl,
    htext, parseStatement_delete, isAdvancedDelete_deleteWords, if_neg Bool.false_ne_true,
      parseDelete]
  simp only [hrest, hwhere, Option.getD_some, htake, Option.mapM_some, hdrop,
    trim_join (isWord_equationWords c n), t.identifier_eq t.isWord.trim_eq, if_neg t.text_ne]
  rw [← parseFilter_equation_iff c n]
  rcases parseFilter (join ' ' (equationWords c n)) with error | filter
  · exact ⟨fun h ↦ (by cases h), fun h ↦ (by cases h)⟩
  · refine ⟨fun h ↦ ?_, fun h ↦ ?_⟩
    · cases h
      rfl
    · cases h
      rfl

end Delete

/-! ## `UPDATE` -/

/-- The words of an `UPDATE` behind its `SET`. -/
def setWords (c₁ : OrdinaryName) (n : IntegerLiteral) (c₂ : OrdinaryName) (m : IntegerLiteral) :
    List (List Char) := equationWords c₁ n ++ "WHERE".toList :: equationWords c₂ m

/-- The words of an `UPDATE` behind its first keyword. -/
def updateWords (t c₁ : OrdinaryName) (n : IntegerLiteral) (c₂ : OrdinaryName)
    (m : IntegerLiteral) :
    List (List Char) := [t.word] ++ "SET".toList :: setWords c₁ n c₂ m

section Update

variable (t c₁ : OrdinaryName) (n : IntegerLiteral) (c₂ : OrdinaryName) (m : IntegerLiteral)

theorem toList_updateText :
    (updateText t c₁ n c₂ m).toList = join ' ' ("UPDATE".toList :: updateWords t c₁ n c₂ m) := by
  dsimp only [updateText]
  simp [updateWords, setWords, equationWords, join, OrdinaryName.word, IntegerLiteral.word]

theorem isWord_setWords : ∀ w ∈ setWords c₁ n c₂ m, IsWord w ∧ ';' ∉ w := by
  rw [setWords, List.forall_mem_append, List.forall_mem_cons]
  exact ⟨isWord_equation c₁ n, by decide, isWord_equation c₂ m⟩

theorem isWord_updateWords : ∀ w ∈ updateWords t c₁ n c₂ m, IsWord w ∧ ';' ∉ w := by
  simp only [updateWords, List.cons_append, List.nil_append, List.forall_mem_cons]
  exact ⟨isWord_name t, by decide, isWord_setWords c₁ n c₂ m⟩

theorem cut_updateWords :
    findCi (join ' ' (updateWords t c₁ n c₂ m)) " SET ".toList = some t.word.length ∧
      (join ' ' (updateWords t c₁ n c₂ m)).take t.word.length = t.word ∧
      (join ' ' (updateWords t c₁ n c₂ m)).drop (t.word.length + " SET ".length) =
        join ' ' (setWords c₁ n c₂ m) :=
  @cut_keyword (setWords c₁ n c₂ m) [] t.word "SET".toList
    (List.forall_mem_singleton.mpr t.isWord.not_mem) (by decide) List.not_mem_nil
    (List.cons_ne_nil _ _)

theorem cut_setWords :
    findCi (join ' ' (setWords c₁ n c₂ m)) " WHERE ".toList =
        some (join ' ' (equationWords c₁ n)).length ∧
      (join ' ' (setWords c₁ n c₂ m)).take (join ' ' (equationWords c₁ n)).length =
        join ' ' (equationWords c₁ n) ∧
      (join ' ' (setWords c₁ n c₂ m)).drop
        ((join ' ' (equationWords c₁ n)).length + " WHERE ".length) =
          join ' ' (equationWords c₂ m) := by
  refine @cut_keyword (equationWords c₂ m) [['='], n.word] c₁.word "WHERE".toList
    (fun w hw ↦ (isWord_equationWords c₁ n w hw).not_mem) (by decide) ?_ (List.cons_ne_nil _ _)
  have hlower : [['='], n.word].map lower = (equationWords c₁ n).tail := by
    rw [← lower_equationWords]
    rfl
  rw [hlower]
  intro hmem
  exact (isRowOf_equationWords [] c₁ n).not_mem (by decide : "where" ∈ reservedNames)
    List.not_mem_nil (List.mem_of_mem_tail hmem)

theorem trim_updateWords : trim (("UPDATE ".toList ++ join ' ' (updateWords t c₁ n c₂ m)).drop
    "UPDATE".length) = join ' ' (updateWords t c₁ n c₂ m) :=
  trim_cons_join fun w hw ↦ (isWord_updateWords t c₁ n c₂ m w hw).1

theorem containsAny_updateWords : containsAny (lower (join ' ' (updateWords t c₁ n c₂ m)))
    [" from ", " returning ", " order by ", " limit "] = false := by
  have hlower : (updateWords t c₁ n c₂ m).map lower = t.word :: "set".toList ::
      (equationWords c₁ n ++ "where".toList :: equationWords c₂ m) := by
    simp only [updateWords, setWords, List.map_append, List.map_cons, List.map_nil, t.lower_word,
      lower_equationWords]
    rfl
  have hblank : ∀ w ∈ t.word :: "set".toList ::
      (equationWords c₁ n ++ "where".toList :: equationWords c₂ m), ' ' ∉ w := by
    rw [List.forall_mem_cons, List.forall_mem_cons, List.forall_mem_append, List.forall_mem_cons]
    exact ⟨t.isWord.not_mem, by decide, fun w hw ↦ (isWord_equationWords c₁ n w hw).not_mem,
      by decide, fun w hw ↦ (isWord_equationWords c₂ m w hw).not_mem⟩
  have hrow : IsRowOf ["set", "where"]
      ("set".toList :: (equationWords c₁ n ++ "where".toList :: equationWords c₂ m)) := by
    refine IsRowOf.cons_fixed (List.forall_mem_append.mpr ⟨isRowOf_equationWords _ c₁ n, ?_⟩)
      (by decide)
    exact (isRowOf_equationWords _ c₂ m).cons_fixed (by decide)
  rw [lower_join, hlower]
  exact containsAny_row_eq_false hblank hrow (by decide)

theorem isAdvancedUpdate_updateWords :
    isAdvancedUpdate ("UPDATE ".toList ++ join ' ' (updateWords t c₁ n c₂ m)) = false := by
  obtain ⟨hset, -, hdrop⟩ := cut_updateWords t c₁ n c₂ m
  obtain ⟨hwhere, htake', hdrop'⟩ := cut_setWords c₁ n c₂ m
  have hset' : trim (join ' ' (setWords c₁ n c₂ m)) = join ' ' (setWords c₁ n c₂ m) :=
    trim_join fun w hw ↦ (isWord_setWords c₁ n c₂ m w hw).1
  have hassignments : advancedAssignments [join ' ' (equationWords c₁ n)] = none := by
    rw [advancedAssignments, splitOnceTopLevel_equationWords]
    simp only [n.parseValue_cons]
    rfl
  rw [isAdvancedUpdate, trim_updateWords, containsAny_updateWords]
  simp only [hset, hdrop, hset', hwhere, Option.getD_some, htake', hdrop',
    trim_join (isWord_equationWords c₁ n), trim_join (isWord_equationWords c₂ m),
    splitTopLevel_equationWords, hassignments, isAdvancedWhereClause_equationWords,
    Bool.false_eq_true, if_false, ite_self]

/-- **When an `UPDATE` is read as it is meant.** -/
theorem parse_update_iff (dialect : SqlDialect) :
    parseSqlWithDialect (updateText t c₁ n c₂ m) dialect =
        .ok (.update t.text [(c₁.text, .integer n.value)] (some (equals c₂ m))) ↔
      c₂.Avoids predicateNames := by
  have htext : join ' ' ("UPDATE".toList :: updateWords t c₁ n c₂ m) =
      "UPDATE ".toList ++ join ' ' (updateWords t c₁ n c₂ m) := rfl
  have hor : startsWithCi (join ' ' (updateWords t c₁ n c₂ m)) "OR ".toList = false :=
    t.not_startsWithCi_or (join ' ' ("SET".toList :: setWords c₁ n c₂ m))
  have hword : ∀ w ∈ "UPDATE".toList :: updateWords t c₁ n c₂ m, IsWord w ∧ ';' ∉ w :=
    List.forall_mem_cons.mpr ⟨by decide, isWord_updateWords t c₁ n c₂ m⟩
  obtain ⟨hset, htake, hdrop⟩ := cut_updateWords t c₁ n c₂ m
  obtain ⟨hwhere, htake', hdrop'⟩ := cut_setWords c₁ n c₂ m
  have hset' : trim (join ' ' (setWords c₁ n c₂ m)) = join ' ' (setWords c₁ n c₂ m) :=
    trim_join fun w hw ↦ (isWord_setWords c₁ n c₂ m w hw).1
  rw [parse_of_toList (toList_updateText t c₁ n c₂ m) hword (by decide : "UPDATE".toList ≠ [])
      (by decide) rfl, htext, parseStatement_update dialect hor,
    isAdvancedUpdate_updateWords, if_neg Bool.false_ne_true, parseUpdate, trim_updateWords,
    ← parseFilter_equation_iff c₂ m]
  simp only [hset, htake, hdrop, hset', hwhere, Option.getD_some, htake', hdrop', Option.mapM_some,
    trim_join (isWord_equationWords c₁ n), trim_join (isWord_equationWords c₂ m),
    splitTopLevel_equationWords, List.mapM_cons, List.mapM_nil, parseAssignment_equationWords,
    t.identifier_eq t.isWord.trim_eq]
  rcases parseFilter (join ' ' (equationWords c₂ m)) with error | filter
  · exact ⟨fun h ↦ (by cases h), fun h ↦ (by cases h)⟩
  · refine ⟨fun h ↦ ?_, fun h ↦ ?_⟩
    · cases h
      rfl
    · cases h
      rfl

end Update

/-! ## `SELECT` -/

/-- The words of a `SELECT` behind its first keyword. -/
def selectWords (c₁ c₂ t c : OrdinaryName) (n : IntegerLiteral) : List (List Char) :=
  [c₁.word ++ [','], c₂.word] ++ "FROM".toList :: deleteWords t c n

/-- The columns of a `SELECT`. -/
def projectionText (c₁ c₂ : OrdinaryName) : List Char := join ' ' [c₁.word ++ [','], c₂.word]

theorem projectionText_eq (c₁ c₂ : OrdinaryName) :
    projectionText c₁ c₂ = c₁.word ++ ',' :: ' ' :: c₂.word := by simp [projectionText, join]

theorem isWord_projection (c₁ c₂ : OrdinaryName) :
    ∀ w ∈ [c₁.word ++ [','], c₂.word], IsWord w ∧ ';' ∉ w := by
  simp only [List.forall_mem_cons]
  refine ⟨⟨c₁.isWord.append (by decide), ?_⟩, isWord_name c₂, fun _ hw ↦ absurd hw List.not_mem_nil⟩
  rw [List.mem_append, not_or]
  exact ⟨c₁.not_mem rfl, by decide⟩

/-- The columns are read one by one. -/
theorem columns_projectionText (c₁ c₂ : OrdinaryName) :
    (splitTopLevel (projectionText c₁ c₂) ',').map identifier = [c₁.text, c₂.text] := by
  have hblank : IsPiece (' ' :: c₂.word) :=
    IsPiece.append (by simp [IsPiece, Scan.Plain] : IsPiece [' ']) c₂.isPiece
  rw [projectionText_eq, splitTopLevel_pair c₁.isPiece hblank, List.map_cons, List.map_singleton,
    trim, trimBy_cons rfl, ← trim, c₁.isWord.trim_eq, c₂.isWord.trim_eq,
    c₁.identifier_eq c₁.isWord.trim_eq, c₂.identifier_eq c₂.isWord.trim_eq]

theorem parseProjection_projectionText (c₁ c₂ : OrdinaryName) :
    parseProjection (projectionText c₁ c₂) = .ok (.columns [c₁.text, c₂.text]) := by
  have hstar : trim (projectionText c₁ c₂) ≠ ['*'] := by
    rw [projectionText, trim_join fun w hw ↦ (isWord_projection c₁ c₂ w hw).1, ← projectionText,
      projectionText_eq]
    intro heq
    have hmem : ',' ∈ ['*'] := heq ▸ List.mem_append_right _ List.mem_cons_self
    exact absurd hmem (by decide)
  have hempty : [c₁.text, c₂.text].contains "" = false := by
    rw [← Bool.not_eq_true, List.contains_iff_mem]
    intro hmem
    rcases List.mem_cons.mp hmem with heq | hmem
    · exact c₁.text_ne heq.symm
    · exact c₂.text_ne (List.mem_singleton.mp hmem).symm
  rw [parseProjection, if_neg hstar]
  simp only [columns_projectionText, hempty, Bool.false_eq_true, if_false]

/-- Names alone are a projection that is executed. -/
theorem isAdvancedProjection_projectionText (c₁ c₂ : OrdinaryName) :
    isAdvancedProjection (projectionText c₁ c₂) = false := by
  have htrim : trim (projectionText c₁ c₂) = projectionText c₁ c₂ :=
    trim_join fun w hw ↦ (isWord_projection c₁ c₂ w hw).1
  have hlower : lower (projectionText c₁ c₂) = projectionText c₁ c₂ := by
    rw [projectionText_eq, lower_append, lower_cons, lower_cons, c₁.lower_word, c₂.lower_word]
    rfl
  have hphrases : containsAny (projectionText c₁ c₂)
      [" as ", "(", " + ", " - ", " * ", " / ", " || ", " case "] = false := by
    rw [containsAny, List.any_eq_false]
    intro pattern hpattern hcontains
    rw [contains_iff, projectionText_eq] at hcontains
    -- there is one blank between the names, and no parenthesis
    have hone : (c₁.word ++ ',' :: ' ' :: c₂.word).count ' ' = 1 := by
      rw [List.count_append, List.count_cons, List.count_cons,
        List.count_eq_zero_of_not_mem c₁.isWord.not_mem,
        List.count_eq_zero_of_not_mem c₂.isWord.not_mem]
      rfl
    have hcount := hcontains.sublist.count_le ' '
    have hparen : '(' ∉ c₁.word ++ ',' :: ' ' :: c₂.word := by
      simp [c₁.not_mem (by decide : isWordChar '(' = false),
        c₂.not_mem (by decide : isWordChar '(' = false)]
    have hneeds : ∀ pattern ∈ [" as ", "(", " + ", " - ", " * ", " / ", " || ", " case "],
        '(' ∈ pattern.toList ∨ 2 ≤ pattern.toList.count ' ' := by decide
    rcases hneeds pattern hpattern with hmem | htwo
    · exact hparen (hcontains.subset hmem)
    · omega
  rw [isAdvancedProjection, htrim, hlower, hphrases]
  simp only [ite_self]

section Select

variable (c₁ c₂ t c : OrdinaryName) (n : IntegerLiteral)

theorem toList_selectText :
    (selectText c₁ c₂ t c n).toList = join ' ' ("SELECT".toList :: selectWords c₁ c₂ t c n) := by
  dsimp only [selectText]
  simp [selectWords, deleteWords, equationWords, join, OrdinaryName.word, IntegerLiteral.word]

theorem isWord_selectWords : ∀ w ∈ selectWords c₁ c₂ t c n, IsWord w ∧ ';' ∉ w := by
  refine List.forall_mem_append.mpr ⟨isWord_projection c₁ c₂, ?_⟩
  exact List.forall_mem_cons.mpr ⟨by decide, isWord_deleteWords t c n⟩

theorem cut_selectWords :
    findCi (join ' ' (selectWords c₁ c₂ t c n)) " FROM ".toList =
        some (projectionText c₁ c₂).length ∧
      (join ' ' (selectWords c₁ c₂ t c n)).take (projectionText c₁ c₂).length =
        projectionText c₁ c₂ ∧
      (join ' ' (selectWords c₁ c₂ t c n)).drop ((projectionText c₁ c₂).length + " FROM ".length) =
        join ' ' (deleteWords t c n) := by
  refine @cut_keyword (deleteWords t c n) [c₂.word] (c₁.word ++ [',']) "FROM".toList
    (fun w hw ↦ (isWord_projection c₁ c₂ w hw).1.not_mem) (by decide) ?_ (List.cons_ne_nil _ _)
  rw [List.map_singleton, c₂.lower_word, List.mem_singleton]
  intro heq
  exact c₂.unreserved
    (String.toList_inj.mp (show "from".toList = c₂.text.toList from heq) ▸ by decide)

/-- What a `SELECT` is only parsed for if its first column's name begins with one of these. -/
def quantifierNames : List String := ["distinct", "all"]

/-- Whether a `SELECT` begins like one with a quantifier depends on its first column. -/
theorem startsWithCi_selectWords {pre : List Char} (hcomma : ',' ∉ lower pre) :
    startsWithCi (join ' ' (selectWords c₁ c₂ t c n)) pre = true ↔ lower pre <+: c₁.word := by
  have htext : join ' ' (selectWords c₁ c₂ t c n) =
      c₁.word ++ ',' :: (' ' :: join ' ' (c₂.word :: "FROM".toList :: deleteWords t c n)) := by
    rw [selectWords, List.cons_append, join_cons _ (List.append_ne_nil_of_left_ne_nil
      (List.cons_ne_nil _ _) _), List.append_assoc]
    rfl
  rw [htext, ByteParser.startsWithCi_iff, lower_append, lower_cons, c₁.lower_word]
  exact prefix_append_sep hcomma _ _

/-- Foreign phrases are not behind the `FROM`. -/
theorem findCi_deleteWords {keyword pattern : String}
    (hlower : lower keyword.toList = pattern.toList)
    (h : BeginsBlank pattern ∧ IsForeign ["where"] pattern) :
    findCi (join ' ' (deleteWords t c n)) keyword.toList = none := by
  have hnot := containsAny_deleteWords t c n (List.forall_mem_singleton.mpr h)
  rw [containsAny, List.any_cons, List.any_nil, Bool.or_false, contains, Option.isSome_eq_false_iff,
    Option.isNone_iff_eq_none] at hnot
  rw [findCi, hlower, hnot]

theorem trim_selectWords : trim (("SELECT ".toList ++ join ' ' (selectWords c₁ c₂ t c n)).drop
    "SELECT".length) = join ' ' (selectWords c₁ c₂ t c n) :=
  trim_cons_join fun w hw ↦ (isWord_selectWords c₁ c₂ t c n w hw).1

theorem containsAny_selectWords : containsAny (lower (join ' ' (selectWords c₁ c₂ t c n)))
    [" union ", " intersect ", " except ", " window "] = false := by
  have hlower : (selectWords c₁ c₂ t c n).map lower = lower (c₁.word ++ [',']) :: c₂.word ::
      "from".toList :: t.word :: "where".toList :: equationWords c n := by
    simp only [selectWords, List.map_append, List.map_cons, List.map_nil, lower_deleteWords,
      c₂.lower_word]
    rfl
  have hrow := (((isRowOf_equationWords ["from", "where"] c n).cons_fixed
    (by decide : "where" ∈ ["from", "where"])).cons_name t).cons_fixed
      (by decide : "from" ∈ ["from", "where"])
  have hblank : ∀ w ∈ (selectWords c₁ c₂ t c n).map lower, ' ' ∉ w := by
    intro w hw
    obtain ⟨v, hv, rfl⟩ := List.mem_map.mp hw
    rw [mem_lower_iff (by decide)]
    exact (isWord_selectWords c₁ c₂ t c n v hv).1.not_mem
  rw [hlower] at hblank
  rw [lower_join, hlower]
  exact containsAny_row_eq_false hblank (hrow.cons_name c₂) (by decide)

/-- The clauses behind the `FROM`. -/
theorem selectClauses_deleteWords : selectClauses (join ' ' (deleteWords t c n)) =
    ⟨some t.word.length, none, none, t.word.length⟩ := by
  rw [selectClauses, (cut_deleteWords t c n).1,
    @findCi_deleteWords t c n " ORDER BY " " order by " rfl (by decide),
    @findCi_deleteWords t c n " LIMIT " " limit " rfl (by decide)]
  rfl

/-- The text of the `WHERE`. -/
theorem whereText_deleteWords : (selectClauses (join ' ' (deleteWords t c n))).whereText
    (join ' ' (deleteWords t c n)) t.word.length = .ok (join ' ' (equationWords c n)) := by
  obtain ⟨hwhere, -, hdrop⟩ := cut_deleteWords t c n
  have hlength : t.word.length + " WHERE ".length ≤ (join ' ' (deleteWords t c n)).length :=
    ByteParser.length_le_of_findCi hwhere (by decide)
  have hslice : slice (join ' ' (deleteWords t c n)) (t.word.length + " WHERE ".length)
      (join ' ' (deleteWords t c n)).length = .ok (join ' ' (equationWords c n)) := by
    rw [slice, if_pos hlength, List.take_length, hdrop]
  rw [selectClauses_deleteWords, SelectClauses.whereText]
  simp only [List.map_cons, List.map_nil, Option.filter_none, minPosition, List.filterMap_cons,
    List.filterMap_nil, id_eq, List.min?_nil, Option.getD_none, hslice]
  exact congrArg Except.ok (trim_join (isWord_equationWords c n))

theorem avoids_quantifierNames_iff : c₁.Avoids quantifierNames ↔
    startsWithCi (join ' ' (selectWords c₁ c₂ t c n)) "DISTINCT".toList = false ∧
      startsWithCi (join ' ' (selectWords c₁ c₂ t c n)) "ALL".toList = false := by
  rw [← Bool.not_eq_true, ← Bool.not_eq_true, startsWithCi_selectWords c₁ c₂ t c n (by decide),
    startsWithCi_selectWords c₁ c₂ t c n (by decide), OrdinaryName.Avoids, quantifierNames,
    List.forall_mem_cons, List.forall_mem_singleton]
  exact Iff.rfl

/-- The clauses of the statement are looked at, unless it has a quantifier. -/
theorem selectFrom_selectWords (h : c₁.Avoids quantifierNames) :
    SelectFrom ("SELECT ".toList ++ join ' ' (selectWords c₁ c₂ t c n))
      (join ' ' (deleteWords t c n)) := by
  obtain ⟨hdistinct, hall⟩ := (avoids_quantifierNames_iff c₁ c₂ t c n).mp h
  obtain ⟨hfrom, htake, hdrop⟩ := cut_selectWords c₁ c₂ t c n
  have hnonempty : (join ' ' (selectWords c₁ c₂ t c n)).isEmpty = false := by
    rw [List.isEmpty_eq_false_iff]
    intro hnil
    rw [hnil] at hfrom
    cases hfrom
  refine ⟨?_, ?_, ⟨(projectionText c₁ c₂).length, ?_, ?_, ?_⟩, ?_, ?_⟩
  · rw [trim_selectWords, hnonempty]
  · rw [trim_selectWords, hdistinct, hall, containsAny_selectWords]
    rfl
  · rw [trim_selectWords, hfrom]
  · rw [trim_selectWords, htake, isAdvancedProjection_projectionText]
  · rw [trim_selectWords, hdrop, trim_join fun w hw ↦ (isWord_deleteWords t c n w hw).1]
  · rw [@findCi_deleteWords t c n " GROUP BY " " group by " rfl (by decide),
      @findCi_deleteWords t c n " HAVING " " having " rfl (by decide),
      @findCi_deleteWords t c n " OFFSET " " offset " rfl (by decide),
      @findCi_deleteWords t c n " WINDOW " " window " rfl (by decide)]
    rfl
  · rw [selectClauses_deleteWords, (cut_deleteWords t c n).2.1]
    exact isAdvancedFrom_word (fun _ ↦ t.isWordChar) t.word_ne_nil

theorem isAdvancedSelect_selectWords (h : c₁.Avoids quantifierNames) :
    isAdvancedSelect ("SELECT ".toList ++ join ' ' (selectWords c₁ c₂ t c n)) = .ok false := by
  have htext := whereText_deleteWords t c n
  rw [selectClauses_deleteWords] at htext
  rw [isAdvancedSelect_of_selectFrom (selectFrom_selectWords c₁ c₂ t c n h), advancedClauses,
    selectClauses_deleteWords]
  simp only [htext]
  show (if isAdvancedWhereClause (join ' ' (equationWords c n)) then (return true : Parse Bool)
    else return false) = .ok false
  rw [isAdvancedWhereClause_equationWords]
  rfl

theorem isAdvancedSelect_of_quantifier (h : ¬ c₁.Avoids quantifierNames) :
    isAdvancedSelect ("SELECT ".toList ++ join ' ' (selectWords c₁ c₂ t c n)) = .ok true := by
  have hquantifier : (startsWithCi (join ' ' (selectWords c₁ c₂ t c n)) "DISTINCT".toList ||
      startsWithCi (join ' ' (selectWords c₁ c₂ t c n)) "ALL".toList) = true := by
    rw [← Bool.not_eq_false, Bool.or_eq_false_iff, ← avoids_quantifierNames_iff]
    exact h
  have hnonempty : (join ' ' (selectWords c₁ c₂ t c n)).isEmpty = false := by
    rw [List.isEmpty_eq_false_iff]
    intro hnil
    rw [hnil] at hquantifier
    cases hquantifier
  rw [isAdvancedSelect, trim_selectWords, hnonempty, hquantifier]
  rfl

/-- **When a `SELECT` is read as it is meant.** -/
theorem parse_select_iff (dialect : SqlDialect) :
    parseSqlWithDialect (selectText c₁ c₂ t c n) dialect =
        .ok (.select t.text (.columns [c₁.text, c₂.text]) (some (equals c n)) none none) ↔
      c₁.Avoids quantifierNames ∧ c.Avoids predicateNames := by
  have htext : join ' ' ("SELECT".toList :: selectWords c₁ c₂ t c n) =
      "SELECT ".toList ++ join ' ' (selectWords c₁ c₂ t c n) := rfl
  have hword : ∀ w ∈ "SELECT".toList :: selectWords c₁ c₂ t c n, IsWord w ∧ ';' ∉ w :=
    List.forall_mem_cons.mpr ⟨by decide, isWord_selectWords c₁ c₂ t c n⟩
  rw [parse_of_toList (toList_selectText c₁ c₂ t c n) hword (by decide : "SELECT".toList ≠ [])
      (by decide) rfl, htext, parseStatement_select]
  by_cases h : c₁.Avoids quantifierNames
  · obtain ⟨hfrom, htake, hdrop⟩ := cut_selectWords c₁ c₂ t c n
    have hwhere := whereText_deleteWords t c n
    rw [selectClauses_deleteWords] at hwhere
    rw [isAdvancedSelect_selectWords c₁ c₂ t c n h, and_iff_right h, ← parseFilter_equation_iff c n]
    show parseSelect _ = _ ↔ _
    rw [parseSelect, trim_selectWords]
    simp only [hfrom, htake, hdrop, parseProjection_projectionText,
      trim_join fun w hw ↦ (isWord_deleteWords t c n w hw).1, selectClauses_deleteWords,
      Option.mapM_some, Option.mapM_none, hwhere, (cut_deleteWords t c n).2.1,
      t.identifier_eq t.isWord.trim_eq, ByteParser.ok_bind]
    rcases parseFilter (join ' ' (equationWords c n)) with error | filter
    · exact ⟨fun h ↦ (by cases h), fun h ↦ (by cases h)⟩
    · refine ⟨fun h ↦ ?_, fun h ↦ ?_⟩
      · cases h
        rfl
      · cases h
        rfl
  · rw [isAdvancedSelect_of_quantifier c₁ c₂ t c n h]
    refine iff_of_false (fun hok ↦ ?_) (fun hclear ↦ h hclear.1)
    have hparsed : (liftM (parseParsedOnly ("SELECT ".toList ++ join ' ' (selectWords c₁ c₂ t c n))
        .select "SELECT") : Parse Statement) = _ := hok
    rw [monadLift_eq_ok_iff, parseParsedOnly, parseWithTarget] at hparsed
    split at hparsed <;> cases hparsed

end Select

/-! ## `INSERT` -/

/-- The words of an `INSERT` between its keywords. -/
def targetWords (t c₁ c₂ : OrdinaryName) : List (List Char) :=
  [t.word, '(' :: (c₁.word ++ [',']), c₂.word ++ [')']]

/-- The words of an `INSERT` behind its last keyword. -/
def valuesWords (n m : IntegerLiteral) : List (List Char) :=
  ['(' :: (n.word ++ [',']), m.word ++ [')']]

/-- The words of an `INSERT` behind its first two keywords. -/
def insertWords (t c₁ c₂ : OrdinaryName) (n m : IntegerLiteral) : List (List Char) :=
  targetWords t c₁ c₂ ++ "VALUES".toList :: valuesWords n m

/-- The names of an `INSERT`, up to the closing parenthesis. -/
def namesText (t c₁ c₂ : OrdinaryName) : List Char :=
  t.word ++ ' ' :: ([] ++ '(' :: (c₁.word ++ ',' :: ([] ++ ' ' :: c₂.word)))

section Insert

variable (t c₁ c₂ : OrdinaryName) (n m : IntegerLiteral)

theorem toList_insertText : (insertText t c₁ c₂ n m).toList =
    join ' ' ("INSERT".toList :: "INTO".toList :: insertWords t c₁ c₂ n m) := by
  dsimp only [insertText]
  simp [insertWords, targetWords, valuesWords, join, OrdinaryName.word, IntegerLiteral.word]

theorem isWord_targetWords : ∀ w ∈ targetWords t c₁ c₂, IsWord w ∧ ';' ∉ w := by
  have hc₁ := (c₁.isWord.append (by decide : ∀ c ∈ [','], isWhitespace c = false)).cons
    (by decide : isWhitespace '(' = false)
  have hc₂ := c₂.isWord.append (by decide : ∀ c ∈ [')'], isWhitespace c = false)
  simp only [targetWords, List.forall_mem_cons]
  refine ⟨isWord_name t, ⟨hc₁, ?_⟩, ⟨hc₂, ?_⟩, fun _ hw ↦ absurd hw List.not_mem_nil⟩
  · simp [c₁.not_mem (by decide : isWordChar ';' = false)]
  · simp [c₂.not_mem (by decide : isWordChar ';' = false)]

theorem isWord_valuesWords : ∀ w ∈ valuesWords n m, IsWord w ∧ ';' ∉ w := by
  have hn := (n.isWord.append (by decide : ∀ c ∈ [','], isWhitespace c = false)).cons
    (by decide : isWhitespace '(' = false)
  have hm := m.isWord.append (by decide : ∀ c ∈ [')'], isWhitespace c = false)
  simp only [valuesWords, List.forall_mem_cons]
  refine ⟨⟨hn, ?_⟩, ⟨hm, ?_⟩, fun _ hw ↦ absurd hw List.not_mem_nil⟩
  · simp [n.not_mem (by decide : isIntegerChar ';' = false)]
  · simp [m.not_mem (by decide : isIntegerChar ';' = false)]

theorem isWord_insertWords : ∀ w ∈ insertWords t c₁ c₂ n m, IsWord w ∧ ';' ∉ w := by
  refine List.forall_mem_append.mpr ⟨isWord_targetWords t c₁ c₂, ?_⟩
  exact List.forall_mem_cons.mpr ⟨by decide, isWord_valuesWords n m⟩

theorem join_targetWords :
    join ' ' (targetWords t c₁ c₂) = namesText t c₁ c₂ ++ [')'] := by
  simp [targetWords, namesText, join]

theorem join_insertWords : join ' ' (insertWords t c₁ c₂ n m) =
    (join ' ' (targetWords t c₁ c₂) ++ [' ']) ++
      ("VALUES".toList ++ ' ' :: join ' ' (valuesWords n m)) := by
  have htarget : targetWords t c₁ c₂ ≠ [] := List.cons_ne_nil _ _
  have hvalues : valuesWords n m ≠ [] := List.cons_ne_nil _ _
  rw [insertWords, join_append htarget (List.cons_ne_nil _ _), join_cons _ hvalues,
    List.append_assoc]
  rfl

theorem lower_namesText : lower (namesText t c₁ c₂) = namesText t c₁ c₂ := by
  simp only [namesText, lower_append, lower_cons, t.lower_word, c₁.lower_word, c₂.lower_word]
  rfl

theorem not_mem_namesText : ')' ∉ namesText t c₁ c₂ := by
  have hname (name : OrdinaryName) : ')' ∉ name.word := name.not_mem (by decide)
  simp [namesText, hname]

/-- The names of an `INSERT` are clear of its keyword. -/
def ClearOfValues : Prop := ∀ name ∈ [t, c₁, c₂], ¬ "values".toList <:+: name.word

/-- What has no other characters than letters is in a name or nowhere. -/
theorem infix_namesText_iff :
    ¬ "values".toList <:+: namesText t c₁ c₂ ↔ ClearOfValues t c₁ c₂ := by
  rw [namesText, infix_append_sep (by decide) (by decide), infix_append_sep (by decide) (by decide),
    infix_append_sep (by decide) (by decide), infix_append_sep (by decide) (by decide),
    List.infix_nil, ClearOfValues, List.forall_mem_cons, List.forall_mem_cons,
    List.forall_mem_singleton]
  simp

theorem lower_insertWords : lower (join ' ' (insertWords t c₁ c₂ n m)) =
    (namesText t c₁ c₂ ++ [')', ' ']) ++
      ("values".toList ++ ' ' :: lower (join ' ' (valuesWords n m))) := by
  rw [join_insertWords, join_targetWords, List.append_assoc (namesText t c₁ c₂), lower_append,
    lower_append, lower_namesText, lower_append, lower_cons]
  rfl

/-- **The keyword of an `INSERT` is found**, if the names are clear of it. -/
theorem findCi_insertWords (h : ClearOfValues t c₁ c₂) :
    findCi (join ' ' (insertWords t c₁ c₂ n m)) "VALUES".toList =
      some (join ' ' (targetWords t c₁ c₂) ++ [' ']).length := by
  have hnot : ¬ "values".toList <:+: (namesText t c₁ c₂ ++ [')', ' ']) ++
    "values".toList.dropLast := by
    have htext : (namesText t c₁ c₂ ++ [')', ' ']) ++ "values".toList.dropLast =
        namesText t c₁ c₂ ++ ')' :: ([] ++ ' ' :: "value".toList) := by
      rw [List.append_assoc]
      rfl
    rw [htext, infix_append_sep (by decide) (by decide), infix_append_sep (by decide) (by decide)]
    rw [← infix_namesText_iff] at h
    rintro (hnames | hnil | hshort)
    · exact h hnames
    · cases List.infix_nil.mp hnil
    · exact absurd hshort.length_le (by decide)
  rw [findCi, lower_insertWords, show lower "VALUES".toList = "values".toList from rfl,
    find_append _ hnot, join_targetWords, List.append_assoc]
  rfl

/-- **If they are not, it is found before the closing parenthesis.** -/
theorem findCi_insertWords_lt (h : ¬ ClearOfValues t c₁ c₂) :
    ∃ pos, findCi (join ' ' (insertWords t c₁ c₂ n m)) "VALUES".toList = some pos ∧
      pos < (namesText t c₁ c₂).length := by
  rw [← infix_namesText_iff, not_not] at h
  obtain ⟨pos, hpos, hle⟩ := find_append_left h ([')', ' '] ++
    ("values".toList ++ ' ' :: lower (join ' ' (valuesWords n m))))
  refine ⟨pos, ?_, ?_⟩
  · rw [findCi, lower_insertWords, List.append_assoc]
    exact hpos
  · have hsix : "values".toList.length = 6 := rfl
    omega

/-- The text of an `INSERT` around its keyword. -/
theorem cut_insertWords :
    trim ((join ' ' (insertWords t c₁ c₂ n m)).take
        (join ' ' (targetWords t c₁ c₂) ++ [' ']).length) = join ' ' (targetWords t c₁ c₂) ∧
      trim ((join ' ' (insertWords t c₁ c₂ n m)).drop
        ((join ' ' (targetWords t c₁ c₂) ++ [' ']).length + "VALUES".length)) =
          join ' ' (valuesWords n m) := by
  rw [join_insertWords]
  constructor
  · rw [List.take_left, trim, trimBy_concat rfl, ← trim,
      trim_join fun w hw ↦ (isWord_targetWords t c₁ c₂ w hw).1]
  · rw [← List.append_assoc]
    have hdrop : List.drop ((join ' ' (targetWords t c₁ c₂) ++ [' ']).length + "VALUES".length)
        (join ' ' (targetWords t c₁ c₂) ++ [' '] ++ "VALUES".toList ++
          ' ' :: join ' ' (valuesWords n m)) = ' ' :: join ' ' (valuesWords n m) :=
      List.drop_left' List.length_append
    rw [hdrop]
    exact trim_cons_join fun w hw ↦ (isWord_valuesWords n m w hw).1

/-! ### The values -/

theorem join_valuesWords :
    join ' ' (valuesWords n m) = '(' :: (n.word ++ ',' :: (' ' :: m.word) ++ [')']) := by
  simp [valuesWords, join]

theorem isPiece_cons : IsPiece (' ' :: m.word) :=
  IsPiece.append (by simp [IsPiece, Scan.Plain] : IsPiece [' ']) m.isPiece

theorem hasMultiple_valuesWords :
    hasMultipleTopLevelParenthesizedGroups (join ' ' (valuesWords n m)) = false := by
  have hpieces (rest : List Char) :
    multipleGroups none 1 1 (n.word ++ ',' :: (' ' :: m.word) ++ rest) =
      multipleGroups none 1 1 rest := by
    rw [List.append_assoc, multipleGroups_piece n.isPiece]
    exact multipleGroups_piece (isPiece_cons m) 1 1 rest
  rw [hasMultipleTopLevelParenthesizedGroups, join_valuesWords]
  exact hpieces [')']

theorem parenthesizedBody_valuesWords (context : String) :
    parenthesizedBody (join ' ' (valuesWords n m)) context =
      .ok (n.word ++ ',' :: (' ' :: m.word)) := by
  have hlast : ('(' :: (n.word ++ ',' :: (' ' :: m.word) ++ [')'])).getLast? = some ')' := by
    rw [← List.cons_append, List.getLast?_concat]
  rw [parenthesizedBody, trim_join fun w hw ↦ (isWord_valuesWords n m w hw).1, join_valuesWords]
  rw [if_pos ⟨rfl, hlast⟩, List.tail_cons, List.dropLast_concat]

theorem mapM_parseValue_valuesWords :
    (splitTopLevel (n.word ++ ',' :: (' ' :: m.word)) ',').mapM parseValue =
      .ok [.integer n.value, .integer m.value] := by
  have hn : trim (trim n.word) = n.word := by rw [n.isWord.trim_eq, n.isWord.trim_eq]
  have hm : trim (trim (' ' :: m.word)) = m.word := by
    have hblank : trim (' ' :: m.word) = trim m.word := trimBy_cons rfl m.word
    rw [hblank, m.isWord.trim_eq, m.isWord.trim_eq]
  rw [splitTopLevel_pair n.isPiece (isPiece_cons m), List.mapM_cons, n.parseValue_eq hn,
    List.mapM_cons, m.parseValue_eq hm]
  rfl

/-! ### The statement -/

theorem trim_insertWords : trim (("INSERT INTO ".toList ++ join ' ' (insertWords t c₁ c₂ n m)).drop
    "INSERT INTO".length) = join ' ' (insertWords t c₁ c₂ n m) :=
  trim_cons_join fun w hw ↦ (isWord_insertWords t c₁ c₂ n m w hw).1

/-- Columns are not read without a closing parenthesis. -/
theorem mem_of_parseInsertTarget {target : List Char} {table : String} {columns : List String}
    (h : parseInsertTarget target = .ok (table, some columns)) : ')' ∈ target := by
  rw [parseInsertTarget] at h
  split at h
  · have hnone : none = some columns := congrArg Prod.snd (Except.ok.inj h)
    cases hnone
  · split at h
    · cases h
    · rename_i closing hclosing
      exact List.mem_of_getElem? (rfindChar_spec hclosing)

/-- The names are read up to the closing parenthesis. -/
theorem parseInsertTarget_targetWords : parseInsertTarget (join ' ' (targetWords t c₁ c₂)) =
    .ok (t.text, some [c₁.text, c₂.text]) := by
  have htext : join ' ' (targetWords t c₁ c₂) =
      (t.word ++ [' ']) ++ '(' :: (projectionText c₁ c₂ ++ [')']) := by
    rw [projectionText_eq]
    simp [targetWords, join]
  have hparen : '(' ∉ t.word ++ [' '] := by simp [t.not_mem (by decide : isWordChar '(' = false)]
  obtain ⟨hopening, hclosing, htake, hslice⟩ := cut_parens hparen (projectionText c₁ c₂)
  rw [parseInsertTarget, htext, hopening]
  dsimp only
  rw [hclosing, htake]
  simp only [hslice, ByteParser.ok_bind, columns_projectionText, t.identifier_concat]
  rfl

/-- Foreign phrases are not in an `INSERT`. -/
theorem containsAny_insertWords {patterns : List String}
    (h : ∀ pattern ∈ patterns, BeginsBlank pattern ∧ IsForeign ["values"] pattern) :
    containsAny (lower (join ' ' (insertWords t c₁ c₂ n m))) patterns = false := by
  have hblank : ∀ w ∈ (insertWords t c₁ c₂ n m).map lower, ' ' ∉ w := by
    intro w hw
    obtain ⟨v, hv, rfl⟩ := List.mem_map.mp hw
    rw [mem_lower_iff (by decide)]
    exact (isWord_insertWords t c₁ c₂ n m v hv).1.not_mem
  have hparen {l : List Char} {c : Char} (hc : c.isAlpha = false) (hmem : c ∈ l) : c ∈ lower l :=
    (mem_lower_iff hc).mpr hmem
  have hnil : IsRowOf ["values"] [] := fun _ hw ↦ absurd hw List.not_mem_nil
  have hvalues : IsRowOf ["values"] ("values".toList :: (valuesWords n m).map lower) :=
    ((hnil.cons_other (hparen (by decide : ')'.isAlpha = false) (by simp)) (by decide)).cons_other
      (hparen (by decide : '('.isAlpha = false) List.mem_cons_self) (by decide)).cons_fixed
        List.mem_cons_self
  have hrow : IsRowOf ["values"] ((insertWords t c₁ c₂ n m).map lower).tail :=
    (hvalues.cons_other (w := lower (c₂.word ++ [')'])) (hparen (by decide : ')'.isAlpha = false)
      (by simp)) (by decide)).cons_other (hparen (by decide : '('.isAlpha = false)
        List.mem_cons_self) (by decide)
  rw [lower_join]
  exact containsAny_row_eq_false hblank hrow h

theorem isAdvancedInsert_insertWords (h : ClearOfValues t c₁ c₂) :
    isAdvancedInsert ("INSERT INTO ".toList ++ join ' ' (insertWords t c₁ c₂ n m)) = false := by
  have hvalues := findCi_insertWords t c₁ c₂ n m h
  have hnonempty : (join ' ' (insertWords t c₁ c₂ n m)).isEmpty = false := by
    rw [List.isEmpty_eq_false_iff]
    intro hnil
    rw [hnil] at hvalues
    cases hvalues
  have hdefault : contains (lower (join ' ' (insertWords t c₁ c₂ n m))) " default values".toList =
      false := by
    have hnot := @containsAny_insertWords t c₁ c₂ n m [" default values"] (by decide)
    rwa [containsAny, List.any_cons, List.any_nil, Bool.or_false] at hnot
  have hends : endsWith (lower (join ' ' (insertWords t c₁ c₂ n m))) "default values".toList =
      false := by
    rw [← Bool.not_eq_true, endsWith, List.isSuffixOf_iff_suffix]
    rintro ⟨l, hl⟩
    -- the last character is the parenthesis
    have hlast := congrArg List.getLast? hl
    rw [lower_insertWords, join_valuesWords, lower_cons, lower_append, ← List.cons_append,
      ← List.cons_append, ← List.append_assoc, ← List.append_assoc,
      show lower [')'] = [')'] from rfl, List.getLast?_concat,
      show "default values".toList = "default value".toList ++ ['s'] from rfl, ← List.append_assoc,
      List.getLast?_concat] at hlast
    exact absurd (Option.some.inj hlast) (by decide)
  rw [isAdvancedInsert, trim_insertWords, isAdvancedInsertRest, hnonempty, hdefault, hends,
    containsAny_insertWords t c₁ c₂ n m (by decide), hvalues]
  simp only [(cut_insertWords t c₁ c₂ n m).2, hasMultiple_valuesWords, Bool.or_false,
    Bool.false_eq_true, if_false]

/-- **When an `INSERT` is read as it is meant.** -/
theorem parse_insert_iff (dialect : SqlDialect) :
    parseSqlWithDialect (insertText t c₁ c₂ n m) dialect = .ok (.insert t.text
        (some [c₁.text, c₂.text]) [.integer n.value, .integer m.value]) ↔
      ClearOfValues t c₁ c₂ := by
  have htext : join ' ' ("INSERT".toList :: "INTO".toList :: insertWords t c₁ c₂ n m) =
      "INSERT INTO ".toList ++ join ' ' (insertWords t c₁ c₂ n m) := rfl
  have hword : ∀ w ∈ "INSERT".toList :: "INTO".toList :: insertWords t c₁ c₂ n m,
      IsWord w ∧ ';' ∉ w := by
    rw [List.forall_mem_cons, List.forall_mem_cons]
    exact ⟨by decide, by decide, isWord_insertWords t c₁ c₂ n m⟩
  rw [parse_of_toList (toList_insertText t c₁ c₂ n m) hword (by decide : "INSERT".toList ≠ [])
      (by decide) rfl, htext, parseStatement_insert]
  by_cases h : ClearOfValues t c₁ c₂
  · refine iff_of_true ?_ h
    obtain ⟨htarget, hvalues⟩ := cut_insertWords t c₁ c₂ n m
    rw [isAdvancedInsert_insertWords t c₁ c₂ n m h, if_neg Bool.false_ne_true, parseInsert,
      trim_insertWords, findCi_insertWords t c₁ c₂ n m h]
    simp only [htarget, hvalues, parseInsertTarget_targetWords, ByteParser.ok_bind,
      parenthesizedBody_valuesWords]
    exact bind_eq_ok_iff.mpr ⟨_, rfl, bind_eq_ok_iff.mpr
      ⟨_, monadLift_eq_ok_iff.mpr (mapM_parseValue_valuesWords n m), rfl⟩⟩
  · refine iff_of_false (fun hok ↦ ?_) h
    obtain ⟨pos, hpos, hlt⟩ := findCi_insertWords_lt t c₁ c₂ n m h
    split at hok
    · rw [monadLift_eq_ok_iff, parseAdvancedInsertKind, parseWithTarget] at hok
      split at hok <;> cases hok
    · rw [parseInsert, trim_insertWords, hpos] at hok
      obtain ⟨⟨table, columns⟩, hnames, hok⟩ := bind_eq_ok_iff.mp hok
      obtain ⟨body, -, hok⟩ := bind_eq_ok_iff.mp hok
      obtain ⟨values, -, hok⟩ := bind_eq_ok_iff.mp hok
      obtain ⟨rfl, rfl, rfl⟩ := Statement.insert.inj (Except.ok.inj hok)
      -- the closing parenthesis would be before the keyword
      have hmem := mem_of_mem_trim (mem_of_parseInsertTarget hnames)
      rw [join_insertWords, join_targetWords, List.append_assoc, List.append_assoc,
        List.take_append_of_le_length (Nat.le_of_lt hlt)] at hmem
      exact not_mem_namesText t c₁ c₂ (List.mem_of_mem_take hmem)

end Insert

end Canonical

end Fsql
