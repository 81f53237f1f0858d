import Fsql.Sql.EnclosedRows

/-!
# Statements with an enclosed text as a value

`UPDATE t SET a = 's' WHERE b = 'body'` and `INSERT INTO t VALUES ('s')`.  Besides the phrases that
make them advanced, a word of the statement may be found too early: the `WHERE` of an `UPDATE` in
its new value, and the `VALUES` of an `INSERT` in the name of its table.

* `parse_updateText` — an `UPDATE` of `Assigns`, for any clause on an enclosed text.
* `parse_updateText_ne` — with ` WHERE ` in its value, it is not read as it is meant: what is left
  of the value has fewer blanks (`parseAssignments_ne`).
* `parse_insertText`, `parse_insertText_ne` — the same for an `INSERT`.
-/

set_option autoImplicit false

namespace Fsql

open Number Text

/-- One result is read from one text. -/
theorem mapM_eq_singleton {α β : Type} {f : α → Result β} {l : List α} {b : β}
    (h : l.mapM f = .ok [b]) : ∃ a, l = [a] ∧ f a = .ok b := by
  rcases l with _ | ⟨a, l⟩
  · cases h
  · rw [List.mapM_cons] at h
    obtain ⟨b', hb', h⟩ := bind_eq_ok_iff.mp h
    obtain ⟨rest, hrest, h⟩ := bind_eq_ok_iff.mp h
    obtain ⟨rfl, rfl⟩ := List.cons.inj (Except.ok.inj h)
    rcases l with _ | ⟨a', l⟩
    · exact ⟨a, rfl, hb'⟩
    · rw [List.mapM_cons] at hrest
      obtain ⟨c, -, hrest⟩ := bind_eq_ok_iff.mp hrest
      obtain ⟨cs, -, hrest⟩ := bind_eq_ok_iff.mp hrest
      cases hrest

/-- A list of one is the whole text. -/
theorem splitTopLevel_of_singleton {input piece : List Char} {delimiter : Char}
    (h : splitTopLevel input delimiter = [piece]) : piece = trim input := by
  have hlength := congrArg List.length h
  rw [splitTopLevel, List.length_map, Scan.pieces_eq, List.length_singleton,
    ← Scanner.splitFirst_eq_none_iff_length] at hlength
  rw [splitTopLevel, Scan.pieces_eq, Scanner.splitAll_of_splitFirst_eq_none _ hlength] at h
  exact (List.cons.inj h).1.symm

/-- Assignments that are read are executed. -/
theorem advancedAssignments_of_mapM {texts : List (List Char)}
    {assignments : List (String × Value)} (h : texts.mapM parseAssignment = .ok assignments) :
    advancedAssignments texts = none := by
  induction texts generalizing assignments with
  | nil => rfl
  | cons text texts ih =>
    rw [List.mapM_cons] at h
    obtain ⟨assignment, hread, h⟩ := bind_eq_ok_iff.mp h
    obtain ⟨rest, hrest, -⟩ := bind_eq_ok_iff.mp h
    rw [parseAssignment] at hread
    rw [advancedAssignments]
    split at hread
    · cases hread
    · rename_i column input hsplit
      obtain ⟨value, hvalue, -⟩ := bind_eq_ok_iff.mp hread
      have hexecuted : isErr (parseValue input) = false := by
        rw [hvalue]
        rfl
      rw [hexecuted, if_neg Bool.false_ne_true, ih hrest]

theorem length_identifier_le (input : List Char) : (identifier input).length ≤ input.length := by
  rw [identifier, normalizeIdentifier, String.length_ofList, length_lower, String.toList_ofList]
  exact (((length_trimBy_le _ _).trans (length_trimBy_le _ _)).trans (length_trimBy_le _ _)).trans
    (length_trimBy_le _ _)

namespace Quoted

/-! ## `UPDATE` -/

/-- The phrases that are looked for in the whole of an `UPDATE`. -/
def updatePhrases : List String := [" from ", " returning ", " order by ", " limit "]

/-- The text is read as these assignments, and the `WHERE` behind it is the first there is. -/
structure Assigns (text : List Char) (assignments : List (String × Value)) : Prop where
  ne_nil : text ≠ []
  trimmed : trim text = text
  read : (splitTopLevel text ',').mapM parseAssignment = .ok assignments
  clear : ¬" where ".toList <:+: lower text ++ " where".toList

/-- `t SET assignment WHERE a = 'body'`. -/
def setWhere (t : String) (assignment : List Char) (a : String) (body : List Char) : List Char :=
  t.toList ++ (" SET ".toList ++ withWhere assignment a body)

theorem updateText_eq (t assignment a : String) (body : List Char) :
    updateText t assignment (equation a body) =
      String.ofList ("UPDATE ".toList ++ setWhere t assignment.toList a body) := by
  rw [← String.toList_inj, String.toList_ofList]
  simp [updateText, toList_equation, setWhere, withWhere, String.toList_append]

/-- Only what is behind its first keyword is looked at. -/
theorem parse_setWhere {t : String} (ht : SimpleName t) (assignment a : String) (body : List Char)
    (dialect : SqlDialect) :
    parseSqlWithDialect (updateText t assignment (equation a body)) dialect = (do
      if isAdvancedUpdate ("UPDATE ".toList ++ setWhere t assignment.toList a body) then
        parseParsedOnly ("UPDATE ".toList ++ setWhere t assignment.toList a body) .update "UPDATE"
      else parseUpdate ("UPDATE ".toList ++ setWhere t assignment.toList a body) :
        Parse Statement) := by
  have hlast : ("UPDATE ".toList ++ setWhere t assignment.toList a body).getLast? = some '\'' := by
    rw [setWhere, ← List.append_assoc, ← List.append_assoc, getLast?_append_withWhere]
  rw [updateText_eq, parseSqlWithDialect_of_ends rfl hlast (by decide) (by decide)]
  exact parseStatement_update dialect (ht.not_startsWithCi_or _)

section Update

variable {t : String} (ht : SimpleName t)
include ht

theorem trim_setWhere (assignment : List Char) (a : String) (body : List Char) :
    trim (("UPDATE ".toList ++ setWhere t assignment a body).drop "UPDATE".length) =
      setWhere t assignment a body := by
  show trim (' ' :: setWhere t assignment a body) = _
  rw [trim, trimBy_cons rfl]
  exact trim_append ht.ne_nil ht.isWhitespace_head (getLast?_append_withWhere _ assignment a body)

/-- The `SET` of an `UPDATE`, and what is before and behind it. -/
theorem cut_setWhere (assignment : List Char) (a : String) (body : List Char) :
    findCi (setWhere t assignment a body) " SET ".toList = some t.toList.length ∧
      (setWhere t assignment a body).take t.toList.length = t.toList ∧
        (setWhere t assignment a body).drop (t.toList.length + " SET ".length) =
          withWhere assignment a body :=
  ht.cut_keyword "SET ".toList (withWhere assignment a body)

/-- An `UPDATE` with a phrase in it is kept as a text. -/
theorem parseParsedOnly_setWhere (assignment : String) (a : String) (body : List Char) :
    parseParsedOnly ("UPDATE ".toList ++ setWhere t assignment.toList a body) .update "UPDATE" =
      .ok (.parsedOnly .update (updateText t assignment (equation a body))) := by
  have hnonempty : (trim (("UPDATE ".toList ++ setWhere t assignment.toList a body).drop
      "UPDATE".length)).isEmpty = false := by
    rw [trim_setWhere ht]
    exact List.isEmpty_eq_false_iff.mpr (List.append_ne_nil_of_left_ne_nil ht.ne_nil _)
  rw [parseParsedOnly, parseWithTarget_ok hnonempty, updateText_eq]

/-- **The phrases in an `UPDATE`** are in its assignments or in the equation. -/
theorem containsAny_setWhere (assignment : List Char) (a : String) (body : List Char) :
    containsAny (lower (setWhere t assignment a body)) updatePhrases =
      (containsAny (' ' :: (lower assignment ++ [' '])) updatePhrases ||
        containsAny (' ' :: lower (equationText a body)) updatePhrases) := by
  have htable : containsAny (lower t.toList ++ [' ']) updatePhrases = false :=
    containsAny_eq_false_of_infix (List.infix_cons List.infix_rfl)
      (containsAny_table ht (by decide))
  have htext : lower (setWhere t assignment a body) =
      lower t.toList ++ ' ' :: ("set".toList ++ ' ' :: (lower assignment ++
        ' ' :: ("where".toList ++ ' ' :: lower (equationText a body)))) := by
    rw [setWhere, withWhere, lower_append, lower_append, lower_append, lower_append]
    rfl
  rw [htext, containsAny_across (by decide), htable, Bool.false_or, ← List.cons_append,
    containsAny_across (by decide), List.cons_append]

variable {a : String} (ha : IsColumn a)
include ha

variable {assignment : String} {assignments : List (String × Value)}
  (hread : Assigns assignment.toList assignments) (body : List Char)

omit ht ha in
/-- The `WHERE` of an `UPDATE` is the one behind its assignments. -/
theorem findCi_withWhere (hread : Assigns assignment.toList assignments) (a : String)
    (body : List Char) : findCi (withWhere assignment.toList a body) " WHERE ".toList =
      some assignment.toList.length := by
  rw [findCi, withWhere, lower_append, lower_append, ← length_lower assignment.toList]
  exact find_append _ hread.clear

include hread

/-- Whether an `UPDATE` is advanced. -/
theorem isAdvancedUpdate_setWhere :
    isAdvancedUpdate ("UPDATE ".toList ++ setWhere t assignment.toList a body) =
      (containsAny (' ' :: (lower assignment.toList ++ [' '])) updatePhrases ||
        containsAny (' ' :: lower (equationText a body)) updatePhrases) := by
  obtain ⟨hset, htake, hdrop⟩ := cut_setWhere ht assignment.toList a body
  have hnonempty : (setWhere t assignment.toList a body).isEmpty = false :=
    List.isEmpty_eq_false_iff.mpr (List.append_ne_nil_of_left_ne_nil ht.ne_nil _)
  have htrim := trim_withWhere hread.ne_nil (not_of_trimBy_eq_self hread.trimmed).1 a body
  rw [isAdvancedUpdate, trim_setWhere ht, hnonempty, if_neg Bool.false_ne_true,
    show [" from ", " returning ", " order by ", " limit "] = updatePhrases from rfl,
    containsAny_setWhere ht]
  simp only [hset, hdrop, htrim, findCi_withWhere hread, Option.getD_some, take_withWhere,
    drop_withWhere, hread.trimmed, List.isEmpty_eq_false_iff.mpr hread.ne_nil,
    advancedAssignments_of_mapM hread.read, trim_equation ha, isAdvancedWhereClause_equation ha,
    Bool.false_eq_true, if_false]
  split
  · rename_i h
    exact h.symm
  · rename_i h
    exact (Bool.eq_false_iff.mpr h).symm

/-- **What becomes of an `UPDATE`.** -/
theorem parse_updateText (dialect : SqlDialect) :
    parseSqlWithDialect (updateText t assignment (equation a body)) dialect =
      if containsAny (' ' :: (lower assignment.toList ++ [' '])) updatePhrases ||
          containsAny (' ' :: lower (equationText a body)) updatePhrases then
        .ok (.parsedOnly .update (updateText t assignment (equation a body)))
      else liftM ((parseFilter (equationText a body)).map fun filter ↦
        Statement.update (normalizeIdentifier t) assignments (some filter)) := by
  obtain ⟨hset, htake, hdrop⟩ := cut_setWhere ht assignment.toList a body
  have htrim := trim_withWhere hread.ne_nil (not_of_trimBy_eq_self hread.trimmed).1 a body
  rw [parse_setWhere ht, isAdvancedUpdate_setWhere ht ha hread]
  split
  · rw [parseParsedOnly_setWhere ht]
    rfl
  · rw [parseUpdate, trim_setWhere ht]
    simp only [hset, htake, hdrop, htrim, findCi_withWhere hread, Option.getD_some, take_withWhere,
      drop_withWhere, hread.trimmed, hread.read, Option.mapM_some, trim_equation ha,
      ht.identifier_eq ht.isWord.trim_eq]
    rcases parseFilter (equationText a body) with error | filter
    · rfl
    · rfl

end Update

/-! ### A literal as the new value -/

/-- A column and a string as a literal. -/
def literal (a s : String) : String := a ++ " = " ++ quoted s

theorem literal_eq (a s : String) : literal a s = equation a (double '\'' s.toList) := rfl

theorem toList_literal (a s : String) :
    (literal a s).toList = equationText a (double '\'' s.toList) :=
  toList_equation a (double '\'' s.toList)

section Literal

variable {a : String} (ha : SimpleName a) (s : String)
include ha

theorem plain_equation : ∀ c ∈ words [a.toList, ['=']], Scan.Plain c ∧ c ≠ ',' := by
  have htext : words [a.toList, ['=']] = a.toList ++ [' ', '=', ' '] := by simp [words]
  rw [htext, List.forall_mem_append]
  refine ⟨fun c hc ↦ ⟨(ha.plain hc).1, (ha.plain hc).2.2⟩, ?_⟩
  simp [Scan.Plain]

/-- **An assignment of a literal is read as one**, if there is no `WHERE` in the literal. -/
theorem assigns_literal (hclear : contains (lower s.toList) " where ".toList = false) :
    Assigns (literal a s).toList [(normalizeIdentifier a, .text s)] := by
  have hpieces : splitTopLevel (equationText a (double '\'' s.toList)) ',' =
      [equationText a (double '\'' s.toList)] := by
    rw [splitTopLevel, equationText, Scan.pieces_enclosed (plain_equation ha), List.map_singleton,
      ← equationText, trim_equation ha.isColumn]
  have hassignment : parseAssignment (equationText a (double '\'' s.toList)) =
      .ok (normalizeIdentifier a, .text s) := by
    rw [parseAssignment, equationText, splitOnceTopLevel_equation ha.isColumn]
    simp only [parseValue_cons_enclosed, identifier_concat, undouble_double,
      String.ofList_toList]
    rfl
  rw [toList_literal]
  refine ⟨by simp [equationText, words], trim_equation ha.isColumn _, ?_, ?_⟩
  · rw [hpieces, List.mapM_cons, hassignment]
    rfl
  · have hforeign : Foreign ["="] [" where "] := by decide
    have htext : lower (equationText a (double '\'' s.toList)) ++ " where".toList =
        lower (words [a.toList, ['=']]) ++
          '\'' :: (lower (double '\'' s.toList) ++ '\'' :: " where".toList) := by
      rw [equationText, lower_append, lower_enclosed, enclosed]
      simp
    have hnone : containsAny (lower (equationText a (double '\'' s.toList)) ++ " where".toList)
        [" where "] = false := by
      rw [htext, containsAny_quote (isRow_equation ha) hforeign,
        containsAny_append_sep hforeign.1, containsAny_double rfl hforeign.1]
      simp only [containsAny, List.any_cons, List.any_nil, Bool.or_false, hclear]
      decide
    rw [← contains_iff]
    simpa only [containsAny, List.any_cons, List.any_nil, Bool.or_false, Bool.not_eq_true]
      using hnone

/-- The phrases in an assignment of a literal are those in the literal. -/
theorem containsAny_literal {patterns : List String} (hforeign : Foreign ["="] patterns) :
    containsAny (' ' :: (lower (literal a s).toList ++ [' '])) patterns =
      containsAny (lower s.toList) patterns := by
  have htext : ' ' :: (lower (literal a s).toList ++ [' ']) =
      ' ' :: (lower (words [a.toList, ['=']]) ++
        '\'' :: (lower (double '\'' s.toList) ++ '\'' :: [' '])) := by
    rw [toList_literal, equationText, lower_append, lower_enclosed, enclosed]
    simp
  rw [htext, containsAny_words_quote (isRow_equation ha) hforeign,
    containsAny_closed hforeign (by decide), containsAny_double rfl hforeign.1]

/-- **Where an `UPDATE` is cut if there is a `WHERE` in its literal**: in the literal. -/
theorem exists_findCi_literal (h : contains (lower s.toList) " where ".toList = true) (b : String)
    (body : List Char) :
    ∃ pos front, findCi (withWhere (literal a s).toList b body) " WHERE ".toList = some pos ∧
      (withWhere (literal a s).toList b body).take pos =
        words [a.toList, ['=']] ++ '\'' :: front ∧ front.count ' ' < s.toList.count ' ' := by
  have hquote : '\'' ∉ " where ".toList := by decide
  have hne : " where ".toList ≠ [] := by decide
  have hnone : ¬" where ".toList <:+: lower (words [a.toList, ['=']]) := by
    have hwords := containsAny_eq_false_of_infix (List.infix_cons List.infix_rfl)
      (containsAny_words (isRow_equation ha) (by decide : Foreign ["="] [" where "]))
    rw [← contains_iff, Bool.not_eq_true]
    simpa only [containsAny, List.any_cons, List.any_nil, Bool.or_false] using hwords
  obtain ⟨rest, hrest⟩ : ∃ rest, withWhere (literal a s).toList b body =
      words [a.toList, ['=']] ++ '\'' :: (double '\'' s.toList ++ rest) := by
    rw [withWhere, toList_literal, equationText, enclosed, List.append_assoc, List.cons_append,
      List.append_assoc]
    exact ⟨_, rfl⟩
  rw [contains_iff, ← infix_double hquote hne, ← lower_double rfl] at h
  obtain ⟨i, hfind, hle⟩ := find_append_left h (lower rest)
  have hpos : findCi (withWhere (literal a s).toList b body) " WHERE ".toList =
      some (i + ((words [a.toList, ['=']]).length + 1)) := by
    rw [findCi, hrest, lower_append, lower_cons, lower_append,
      show '\''.toLower = '\'' from rfl, show lower " WHERE ".toList = " where ".toList from rfl,
      find_append_sep hquote hne hnone, hfind, length_lower]
    rfl
  have hlength : i < (double '\'' s.toList).length := by
    rw [length_lower, show " where ".toList.length = 7 from rfl] at hle
    omega
  refine ⟨_, (double '\'' s.toList).take i, hpos, ?_, ?_⟩
  · rw [hrest, Nat.add_comm i, ← List.take_append_of_le_length hlength.le, Nat.add_assoc,
      Nat.add_comm 1 i, List.take_append, List.take_of_length_le (Nat.le_add_right _ _),
      Nat.add_sub_cancel_left, List.take_succ_cons]
  · -- the blank of the `WHERE` is in the literal, and not in front
    have hblank : ' ' ∈ (double '\'' s.toList).drop i := by
      obtain ⟨more, hmore⟩ := prefix_drop_of_find hfind
      rw [List.drop_append_of_le_length (by rw [length_lower]; exact hlength.le), lower,
        ← List.map_drop, ← lower] at hmore
      obtain ⟨c, behind, hbehind⟩ := List.exists_cons_of_ne_nil
        (List.ne_nil_of_length_pos (List.length_drop ▸ Nat.sub_pos_of_lt hlength))
      rw [hbehind, lower_cons] at hmore
      have hc : c.toLower = ' ' := (List.cons.inj hmore).1.symm
      rw [hbehind, (toLower_eq_iff rfl).mp hc]
      exact List.mem_cons_self
    have hcount := congrArg (List.count ' ') (List.take_append_drop i (double '\'' s.toList))
    rw [List.count_append, count_double (by decide)] at hcount
    have hpos := List.count_pos_iff.mpr hblank
    omega

omit s in
/-- **An assignment is not read from a text that is cut in its literal.** -/
theorem parseAssignments_ne {s : String} {front : List Char}
    (hcount : front.count ' ' < s.toList.count ' ') (column : String) :
    (splitTopLevel (trim (words [a.toList, ['=']] ++ '\'' :: front)) ',').mapM parseAssignment ≠
      .ok [(column, .text s)] := by
  have hcut (l : List Char) : ∃ l', trim (words [a.toList, ['=']] ++ '\'' :: l) =
      words [a.toList, ['=']] ++ '\'' :: l' ∧ l' <+: l := by
    refine exists_trimBy_eq (fun c hc ↦ ?_) rfl l
    obtain ⟨d, name, hname⟩ := List.exists_cons_of_ne_nil ha.ne_nil
    rw [words_cons, hname, List.cons_append, List.cons_append, List.head?_cons] at hc
    exact Option.some.inj hc ▸ ha.isWord.2 d (hname ▸ List.mem_cons_self)
  intro hread
  obtain ⟨piece, hpiece, hread⟩ := mapM_eq_singleton hread
  obtain ⟨l₁, htrim₁, hpre₁⟩ := hcut front
  obtain ⟨l₂, htrim₂, hpre₂⟩ := hcut l₁
  rw [splitTopLevel_of_singleton hpiece, htrim₁, htrim₂, parseAssignment,
    splitOnceTopLevel_equation ha.isColumn] at hread
  obtain ⟨value, hvalue, hread⟩ := bind_eq_ok_iff.mp hread
  obtain rfl := (Prod.mk.inj (Except.ok.inj hread)).2
  obtain ⟨q, body, -, heq, rfl⟩ := parseValue_eq_text_iff.mp hvalue
  obtain ⟨l₃, htrim₃, hpre₃⟩ := @exists_trimBy_eq isWhitespace [] '\''
    (fun c hc ↦ Option.some.inj hc ▸ rfl) rfl l₂
  rw [List.nil_append, List.nil_append] at htrim₃
  rw [trim, trimBy_cons rfl, htrim₃] at heq
  obtain ⟨rfl, hbody⟩ := List.cons.inj heq
  -- the literal that is read has no more blanks than the text it is read from
  rw [String.toList_ofList, count_undouble (by decide)] at hcount
  have hle := ((hpre₃.trans hpre₂).trans hpre₁).sublist.count_le ' '
  rw [hbody, List.count_append] at hle
  omega

/-- **An `UPDATE` with a `WHERE` in its literal** is not read as it is meant. -/
theorem parse_updateText_ne {t b : String} (ht : SimpleName t)
    (h : contains (lower s.toList) " where ".toList = true) (body : List Char)
    (dialect : SqlDialect) (table column : String) (filter : Option Filter) :
    parseSqlWithDialect (updateText t (literal a s) (equation b body)) dialect ≠
      .ok (.update table [(column, .text s)] filter) := by
  have htrim : trim (withWhere (literal a s).toList b body) =
      withWhere (literal a s).toList b body := by
    have hliteral : trim (literal a s).toList = (literal a s).toList := by
      rw [toList_literal, trim_equation ha.isColumn]
    refine trim_withWhere ?_ (not_of_trimBy_eq_self hliteral).1 b body
    simp [toList_literal, equationText, words]
  obtain ⟨hset, htake, hdrop⟩ := cut_setWhere ht (literal a s).toList b body
  obtain ⟨pos, front, hpos, hfront, hcount⟩ := exists_findCi_literal ha s h b body
  rw [parse_setWhere ht]
  intro hupdate
  split at hupdate
  · rw [parseParsedOnly_setWhere ht] at hupdate
    cases monadLift_eq_ok_iff.mp hupdate
  · have hupdate := monadLift_eq_ok_iff.mp hupdate
    rw [parseUpdate, trim_setWhere ht] at hupdate
    simp only [hset, hdrop, htrim, hpos, Option.getD_some, hfront] at hupdate
    obtain ⟨filter', -, hupdate⟩ := bind_eq_ok_iff.mp hupdate
    obtain ⟨assignments, hread, hupdate⟩ := bind_eq_ok_iff.mp hupdate
    obtain ⟨-, rfl, -⟩ := Statement.update.inj (Except.ok.inj hupdate)
    exact parseAssignments_ne ha hcount column hread

end Literal

/-! ## `INSERT` -/

/-- The phrases that are looked for in the whole of an `INSERT`. -/
def insertPhrases : List String := [" default values", " on conflict", " returning "]

/-- `t VALUES ('body')`. -/
def tableValues (t : String) (body : List Char) : List Char :=
  t.toList ++ (" VALUES (".toList ++ (enclosed body ++ [')']))

theorem insertText_eq (t s : String) :
    insertText t s =
      String.ofList ("INSERT INTO ".toList ++ tableValues t (double '\'' s.toList)) := by
  rw [← String.toList_inj, String.toList_ofList]
  simp [insertText, quoted, tableValues, String.toList_append]

theorem getLast?_tableValues (t : String) (body : List Char) :
    (tableValues t body).getLast? = some ')' := by
  rw [tableValues, ← List.append_assoc, ← List.append_assoc, List.getLast?_concat]

/-- **The `VALUES` of an `INSERT`** is found behind a name that does not contain it. -/
theorem cut_tableValues {t : String} (hname : contains (lower t.toList) "values".toList = false)
    (body : List Char) :
    findCi (tableValues t body) "VALUES".toList = some (t.toList ++ [' ']).length ∧
      (tableValues t body).take (t.toList ++ [' ']).length = t.toList ++ [' '] ∧
      trim ((tableValues t body).drop ((t.toList ++ [' ']).length + "VALUES".length)) =
        '(' :: (enclosed body ++ [')']) := by
  have htext : tableValues t body =
      (t.toList ++ [' ']) ++ ("VALUES".toList ++ ' ' :: '(' :: (enclosed body ++ [')'])) := by
    simp [tableValues]
  have hnot : ¬"values".toList <:+: lower (t.toList ++ [' ']) ++ "values".toList.dropLast := by
    rw [lower_append, List.append_assoc]
    show ¬"values".toList <:+: lower t.toList ++ ' ' :: "value".toList
    rw [infix_append_sep (by decide) (by decide), ← contains_iff, hname]
    rintro (hoccurs | hoccurs)
    · exact Bool.false_ne_true hoccurs
    · exact absurd hoccurs.length_le (by decide)
  refine ⟨?_, ?_, ?_⟩
  · rw [findCi, htext, lower_append, lower_append "VALUES".toList,
      ← length_lower (t.toList ++ [' '])]
    exact find_append _ hnot
  · rw [htext, List.take_left]
  · have hdrop : (tableValues t body).drop ((t.toList ++ [' ']).length + "VALUES".length) =
        ' ' :: '(' :: (enclosed body ++ [')']) := by
      rw [htext, ← List.append_assoc]
      exact List.drop_left' (by rw [List.length_append]; rfl)
    rw [hdrop, trim, trimBy_cons rfl]
    refine trimBy_eq_self (fun c hc ↦ Option.some.inj hc ▸ rfl) (fun c hc ↦ ?_)
    rw [← List.cons_append, List.getLast?_concat] at hc
    exact Option.some.inj hc ▸ rfl

/-- In a name that contains it, it is found before the end of the name. -/
theorem findCi_tableValues_lt {t : String}
    (hname : contains (lower t.toList) "values".toList = true) (body : List Char) :
    ∃ pos, findCi (tableValues t body) "VALUES".toList = some pos ∧ pos < t.toList.length := by
  rw [contains_iff] at hname
  obtain ⟨pos, hpos, hle⟩ := find_append_left hname
    (lower (" VALUES (".toList ++ (enclosed body ++ [')'])))
  refine ⟨pos, ?_, ?_⟩
  · rw [findCi, tableValues, lower_append]
    exact hpos
  · rw [length_lower, show "values".toList.length = 6 from rfl] at hle
    omega

section Insert

variable {t : String} (ht : SimpleName t)
include ht

/-- The statement behind its first keyword. -/
theorem trim_insert (body : List Char) :
    trim (("INSERT INTO ".toList ++ tableValues t body).drop "INSERT INTO".length) =
      tableValues t body := by
  show trim (' ' :: tableValues t body) = _
  rw [trim, trimBy_cons rfl]
  refine trimBy_eq_self (fun c hc ↦ ?_) (fun c hc ↦ ?_)
  · rw [tableValues, List.head?_append_of_ne_nil _ ht.ne_nil] at hc
    exact ht.isWord.2 c (List.mem_of_mem_head? hc)
  · exact Option.some.inj ((getLast?_tableValues t body).symm.trans hc) ▸ rfl

/-- **The phrases in an `INSERT`** are in the enclosed text. -/
theorem containsAny_tableValues {patterns : List String} (hforeign : Foreign ["values"] patterns)
    (hparen : Without '(' patterns) (body : List Char) :
    containsAny (lower (tableValues t body)) patterns = containsAny (lower body) patterns := by
  have hrow : IsRow ["values"] [t.toList, "VALUES".toList] := by
    simp only [IsRow, List.forall_mem_cons]
    exact ⟨.inr ⟨t, ht, rfl⟩, .inl (by decide), fun _ hw ↦ absurd hw List.not_mem_nil⟩
  have htext : lower (tableValues t body) = lower (words [t.toList, "VALUES".toList]) ++
      '(' :: (['\''] ++ (lower body ++ '\'' :: [')'])) := by
    rw [tableValues, lower_append, lower_append, lower_append, lower_enclosed, enclosed]
    simp [lower, words]
  rw [htext, containsAny_append_sep hparen, containsAny_eq_false_of_infix
    (List.infix_cons List.infix_rfl) (containsAny_words hrow hforeign), Bool.false_or,
    containsAny_skip hforeign (by decide), containsAny_closed hforeign (by decide)]

variable (s : String) (dialect : SqlDialect)

omit ht in
/-- Only what is behind its first keywords is looked at. -/
theorem parse_tableValues : parseSqlWithDialect (insertText t s) dialect = (do
    if isAdvancedInsert ("INSERT INTO ".toList ++ tableValues t (double '\'' s.toList)) then
      parseAdvancedInsertKind ("INSERT INTO ".toList ++ tableValues t (double '\'' s.toList))
        .insert "INSERT INTO"
    else parseInsert ("INSERT INTO ".toList ++ tableValues t (double '\'' s.toList)) :
      Parse Statement) := by
  have hlast : ("INSERT INTO ".toList ++ tableValues t (double '\'' s.toList)).getLast? =
      some ')' := by
    rw [List.getLast?_append, getLast?_tableValues]
    rfl
  rw [insertText_eq, parseSqlWithDialect_of_ends rfl hlast (by decide) (by decide)]
  exact parseStatement_insert _ dialect

/-- An advanced one is kept as a text. -/
theorem parseAdvancedInsertKind_tableValues :
    parseAdvancedInsertKind ("INSERT INTO ".toList ++ tableValues t (double '\'' s.toList))
      .insert "INSERT INTO" = .ok (.parsedOnly .insert (insertText t s)) := by
  have hnonempty : (trim (("INSERT INTO ".toList ++ tableValues t (double '\'' s.toList)).drop
      "INSERT INTO".length)).isEmpty = false := by
    rw [trim_insert ht]
    exact List.isEmpty_eq_false_iff.mpr (List.append_ne_nil_of_left_ne_nil ht.ne_nil _)
  rw [parseAdvancedInsertKind, parseWithTarget_ok hnonempty, insertText_eq]

/-- Whether an `INSERT` of a literal is advanced. -/
theorem isAdvancedInsert_tableValues
    (hname : contains (lower t.toList) "values".toList = false) :
    isAdvancedInsert ("INSERT INTO ".toList ++ tableValues t (double '\'' s.toList)) =
      containsAny (lower s.toList) insertPhrases := by
  obtain ⟨hfind, -, hdrop⟩ := cut_tableValues hname (double '\'' s.toList)
  have hphrases {patterns : List String} (hforeign : Foreign ["values"] patterns)
      (hparen : Without '(' patterns) :
      containsAny (lower (tableValues t (double '\'' s.toList))) patterns =
        containsAny (lower s.toList) patterns := by
    rw [containsAny_tableValues ht hforeign hparen, containsAny_double rfl hforeign.1]
  have hdefault : contains (lower (tableValues t (double '\'' s.toList)))
      " default values".toList = contains (lower s.toList) " default values".toList := by
    have hone := @hphrases [" default values"] (by decide) (by decide)
    simpa only [containsAny, List.any_cons, List.any_nil, Bool.or_false] using hone
  have hends : endsWith (lower (tableValues t (double '\'' s.toList))) "default values".toList =
      false := by
    rw [← Bool.not_eq_true, endsWith, List.isSuffixOf_iff_suffix]
    rintro ⟨l, hl⟩
    -- the last character is the parenthesis
    have hlast := congrArg List.getLast? hl
    rw [lower, List.getLast?_map, getLast?_tableValues, List.getLast?_append] at hlast
    exact absurd (Option.some.inj hlast) (by decide)
  have hnonempty : (tableValues t (double '\'' s.toList)).isEmpty = false :=
    List.isEmpty_eq_false_iff.mpr (List.append_ne_nil_of_left_ne_nil ht.ne_nil _)
  have hgroups : hasMultipleTopLevelParenthesizedGroups
      ('(' :: (enclosed (double '\'' s.toList) ++ [')'])) = false := by
    have hopen : hasMultipleTopLevelParenthesizedGroups
        ('(' :: (enclosed (double '\'' s.toList) ++ [')'])) =
          multipleGroups (some '\'') 1 1 (double '\'' s.toList ++ ['\''] ++ [')']) := rfl
    rw [hopen, List.append_assoc]
    exact multipleGroups_literal 1 1 s.toList [')']
  rw [isAdvancedInsert, trim_insert ht, isAdvancedInsertRest, hnonempty,
    if_neg Bool.false_ne_true, hdefault, hends, hphrases (by decide) (by decide), Bool.or_false]
  simp only [hfind, hdrop, hgroups]
  show (if containsAny (lower s.toList) insertPhrases = true then true else false) = _
  cases containsAny (lower s.toList) insertPhrases <;> rfl

/-- **What becomes of an `INSERT`** into a table whose name does not contain `VALUES`. -/
theorem parse_insertText (hname : contains (lower t.toList) "values".toList = false) :
    parseSqlWithDialect (insertText t s) dialect =
      .ok (if containsAny (lower s.toList) insertPhrases then .parsedOnly .insert (insertText t s)
        else .insert (normalizeIdentifier t) none [.text s]) := by
  obtain ⟨hfind, htake, hdrop⟩ := cut_tableValues hname (double '\'' s.toList)
  rw [parse_tableValues, isAdvancedInsert_tableValues ht s hname]
  split
  · rw [parseAdvancedInsertKind_tableValues ht]
    rfl
  · have htarget : parseInsertTarget (trim (t.toList ++ [' '])) =
        .ok (normalizeIdentifier t, none) := by
      have hnone : findChar '(' t.toList = none := by
        rw [findChar, List.findIdx?_eq_none_iff]
        exact fun c hc ↦ beq_eq_false_iff_ne.mpr fun heq ↦ ht.not_mem rfl (heq ▸ hc)
      rw [trim, trimBy_concat rfl, ← trim, ht.isWord.trim_eq, parseInsertTarget, hnone,
        ht.identifier_eq ht.isWord.trim_eq]
    have hbody : parenthesizedBody ('(' :: (enclosed (double '\'' s.toList) ++ [')']))
        "INSERT VALUES" = .ok (enclosed (double '\'' s.toList)) := by
      have hends : ('(' :: (enclosed (double '\'' s.toList) ++ [')'])).getLast? = some ')' := by
        rw [← List.cons_append, List.getLast?_concat]
      have htrim : trim ('(' :: (enclosed (double '\'' s.toList) ++ [')'])) =
          '(' :: (enclosed (double '\'' s.toList) ++ [')']) :=
        trimBy_eq_self (fun c hc ↦ Option.some.inj hc ▸ rfl)
          (fun c hc ↦ Option.some.inj (hends.symm.trans hc) ▸ rfl)
      rw [parenthesizedBody, htrim, if_pos ⟨rfl, hends⟩, List.tail_cons, List.dropLast_concat]
    have hvalues : (splitTopLevel (enclosed (double '\'' s.toList)) ',').mapM parseValue =
        .ok [.text s] := by
      have hpieces := @Scan.pieces_enclosed ',' [] (fun _ h ↦ absurd h List.not_mem_nil) s.toList
      rw [List.nil_append] at hpieces
      rw [splitTopLevel, hpieces, List.map_singleton, trim_enclosed, List.mapM_cons,
        parseValue_enclosed (trim_enclosed _), undouble_double, String.ofList_toList]
      rfl
    rw [parseInsert, trim_insert ht]
    simp only [hfind, htake, hdrop, htarget, ByteParser.ok_bind, hbody]
    exact bind_eq_ok_iff.mpr ⟨_, rfl, bind_eq_ok_iff.mpr
      ⟨_, monadLift_eq_ok_iff.mpr hvalues, rfl⟩⟩

/-- **An `INSERT` into a table whose name contains `VALUES`** is not one into that table. -/
theorem parse_insertText_ne (hname : contains (lower t.toList) "values".toList = true)
    (columns : Option (List String)) (values : List Value) :
    parseSqlWithDialect (insertText t s) dialect ≠
      .ok (.insert (normalizeIdentifier t) columns values) := by
  obtain ⟨pos, hpos, hlt⟩ := findCi_tableValues_lt hname (double '\'' s.toList)
  rw [parse_tableValues]
  intro hinsert
  split at hinsert
  · rw [parseAdvancedInsertKind_tableValues ht] at hinsert
    cases monadLift_eq_ok_iff.mp hinsert
  · rw [parseInsert, trim_insert ht, hpos] at hinsert
    obtain ⟨⟨table, columns'⟩, htarget, hinsert⟩ := bind_eq_ok_iff.mp hinsert
    obtain ⟨body, -, hinsert⟩ := bind_eq_ok_iff.mp hinsert
    obtain ⟨values', -, hinsert⟩ := bind_eq_ok_iff.mp hinsert
    obtain ⟨htable, -, -⟩ := Statement.insert.inj (Except.ok.inj hinsert)
    -- the name in front of the keyword is shorter
    have hbefore : (tableValues t (double '\'' s.toList)).take pos = t.toList.take pos :=
      List.take_append_of_le_length hlt.le
    have hnone : findChar '(' (trim (t.toList.take pos)) = none := by
      rw [findChar, List.findIdx?_eq_none_iff]
      exact fun c hc ↦ beq_eq_false_iff_ne.mpr fun heq ↦
        ht.not_mem rfl (heq ▸ List.mem_of_mem_take (mem_of_mem_trim hc))
    rw [hbefore, parseInsertTarget, hnone] at htarget
    have hlength := congrArg (String.length ·) (Prod.mk.inj (Except.ok.inj htarget)).1
    have hle := length_identifier_le (trim (t.toList.take pos))
    have hshort := length_trimBy_le isWhitespace (t.toList.take pos)
    rw [htable, ht.normalizeIdentifier_eq] at hlength
    simp only [String.length_ofList, length_lower] at hlength
    rw [List.length_take, ← trim] at hshort
    omega

end Insert

end Quoted

end Fsql
