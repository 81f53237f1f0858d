import Fsql.Sql.Enclosed

/-!
# Statements with a clause on an enclosed text

What becomes of `DELETE FROM t WHERE a = 'body'` and of `SELECT columns FROM t WHERE a = 'body'`,
for any text between the quotes.  Each of them is executed for the equation exactly if the equation
contains none of the phrases that the parser looks for in the whole of the statement
(`parse_deleteText`, `parse_selectText`).

With one of them, a `DELETE` is only parsed.  A `SELECT` need not be: an `ORDER BY` or a `LIMIT` in
the text is taken for a clause, which ends with the quote and is therefore none
(`parse_selectText_ne`).
-/

set_option autoImplicit false

namespace Fsql

open Number Text

namespace Quoted

/-! ## The texts -/

/-- `INSERT INTO t VALUES (s)`. -/
def insertText (t s : String) : String := "INSERT INTO " ++ t ++ " VALUES (" ++ quoted s ++ ")"

/-- `SELECT columns FROM t WHERE clause`. -/
def selectText (columns t clause : String) : String :=
  "SELECT " ++ columns ++ " FROM " ++ t ++ " WHERE " ++ clause

/-- `UPDATE t SET assignment WHERE clause`. -/
def updateText (t assignment clause : String) : String :=
  "UPDATE " ++ t ++ " SET " ++ assignment ++ " WHERE " ++ clause

/-- `DELETE FROM t WHERE clause`. -/
def deleteText (t clause : String) : String := "DELETE FROM " ++ t ++ " WHERE " ++ clause

/-- A column and an enclosed text. -/
def equation (a : String) (body : List Char) : String :=
  a ++ " = " ++ String.ofList (enclosed body)

theorem toList_equation (a : String) (body : List Char) :
    (equation a body).toList = equationText a body := by
  simp [equation, equationText, words, String.toList_append]

/-! ## Behind a table or an assignment -/

/-- `front WHERE a = 'body'`. -/
def withWhere (front : List Char) (a : String) (body : List Char) : List Char :=
  front ++ (" WHERE ".toList ++ equationText a body)

theorem getLast?_withWhere (front : List Char) (a : String) (body : List Char) :
    (withWhere front a body).getLast? = some '\'' := by
  rw [withWhere, equationText, ← List.append_assoc, ← List.append_assoc, getLast?_append_enclosed]

theorem getLast?_append_withWhere (before front : List Char) (a : String) (body : List Char) :
    (before ++ withWhere front a body).getLast? = some '\'' := by
  rw [List.getLast?_append, getLast?_withWhere]
  rfl

theorem take_withWhere (front : List Char) (a : String) (body : List Char) :
    (withWhere front a body).take front.length = front := List.take_left

theorem drop_withWhere (front : List Char) (a : String) (body : List Char) :
    (withWhere front a body).drop (front.length + " WHERE ".length) = equationText a body := by
  rw [withWhere, ← List.append_assoc]
  exact List.drop_left' (by rw [List.length_append]; rfl)

theorem isEmpty_withWhere (front : List Char) (a : String) (body : List Char) :
    (withWhere front a body).isEmpty = false :=
  List.isEmpty_eq_false_iff.mpr (List.append_ne_nil_of_right_ne_nil _ (List.cons_ne_nil _ _))

/-- A text that is not trimmed is not trimmed with a clause behind it. -/
theorem trim_withWhere {front : List Char} (hne : front ≠ [])
    (hhead : ∀ c ∈ front.head?, isWhitespace c = false) (a : String) (body : List Char) :
    trim (withWhere front a body) = withWhere front a body :=
  trim_append hne hhead (by rw [equationText, ← List.append_assoc, getLast?_append_enclosed])

section Table

variable {t : String} (ht : SimpleName t) (a : String) (body : List Char)
include ht

theorem trim_cons_tableWhere :
    trim (' ' :: withWhere t.toList a body) = withWhere t.toList a body := by
  rw [trim, trimBy_cons rfl, ← trim, trim_withWhere ht.ne_nil ht.isWhitespace_head]

theorem findCi_tableWhere :
    findCi (withWhere t.toList a body) " WHERE ".toList = some t.toList.length :=
  (ht.cut_keyword "WHERE ".toList (equationText a body)).1

/-- A table has no phrase in it, with blanks around it. -/
theorem containsAny_table {patterns : List String} (hforeign : Foreign [] patterns) :
    containsAny (' ' :: (lower t.toList ++ [' '])) patterns = false := by
  have hrow : IsRow [] [t.toList] := List.forall_mem_singleton.mpr (.inr ⟨t, ht, rfl⟩)
  have hwords := containsAny_words hrow hforeign
  rwa [words_cons, lower_append] at hwords

/-- **The phrases behind a table** are those in the equation. -/
theorem containsAny_tableWhere {patterns : List String} (hforeign : Foreign [] patterns)
    (hacross : Across "where" patterns) :
    containsAny (lower (withWhere t.toList a body)) patterns =
      containsAny (' ' :: lower (equationText a body)) patterns := by
  have htext : lower (withWhere t.toList a body) =
      lower t.toList ++ ' ' :: ("where".toList ++ ' ' :: lower (equationText a body)) := by
    rw [withWhere, lower_append, lower_append]
    rfl
  rw [htext, containsAny_across hacross, containsAny_eq_false_of_infix
    (List.infix_cons List.infix_rfl) (containsAny_table ht hforeign), Bool.false_or]

end Table

/-! ## `DELETE` -/

/-- The phrases that are looked for in the whole of a `DELETE`. -/
def deletePhrases : List String := [" returning ", " order by ", " limit ", " using "]

theorem deleteText_eq (t a : String) (body : List Char) :
    deleteText t (equation a body) =
      String.ofList ("DELETE FROM ".toList ++ withWhere t.toList a body) := by
  rw [← String.toList_inj, String.toList_ofList]
  simp [deleteText, toList_equation, withWhere, String.toList_append]

section Delete

variable {t a : String} (ht : SimpleName t) (ha : IsColumn a) (body : List Char)
include ht ha

/-- Whether a `DELETE` is advanced. -/
theorem isAdvancedDelete_tableWhere :
    isAdvancedDelete ("DELETE FROM ".toList ++ withWhere t.toList a body) =
      containsAny (' ' :: lower (equationText a body)) deletePhrases := by
  have hrest : trim (("DELETE FROM ".toList ++ withWhere t.toList a body).drop
      "DELETE FROM".length) = withWhere t.toList a body := trim_cons_tableWhere ht a body
  have hphrases : containsAny (lower (withWhere t.toList a body))
      [" returning ", " order by ", " limit ", " using "] =
        containsAny (' ' :: lower (equationText a body)) deletePhrases :=
    containsAny_tableWhere ht a body (by decide) (by decide)
  rw [isAdvancedDelete, hrest]
  simp only [isEmpty_withWhere, hphrases, findCi_tableWhere ht, Option.getD_some, take_withWhere,
    drop_withWhere, ht.isWord.trim_eq, isAdvancedFrom_word ht.word ht.ne_nil, trim_equation ha,
    isAdvancedWhereClause_equation ha, Bool.false_eq_true, if_false]
  cases containsAny (' ' :: lower (equationText a body)) deletePhrases <;> rfl

/-- **What becomes of a `DELETE`.** -/
theorem parse_deleteText (dialect : SqlDialect) :
    parseSqlWithDialect (deleteText t (equation a body)) dialect =
      if containsAny (' ' :: lower (equationText a body)) deletePhrases then
        .ok (.parsedOnly .delete (deleteText t (equation a body)))
      else liftM ((parseFilter (equationText a body)).map fun filter ↦
        Statement.delete (normalizeIdentifier t) (some filter)) := by
  have hrest : trim (("DELETE FROM ".toList ++ withWhere t.toList a body).drop
      "DELETE FROM".length) = withWhere t.toList a body := trim_cons_tableWhere ht a body
  rw [deleteText_eq, parseSqlWithDialect_of_ends rfl (getLast?_append_withWhere _ _ a body)
    (by decide) (by decide), parseStatement_delete, isAdvancedDelete_tableWhere ht ha]
  split
  · have hnonempty : (trim (("DELETE FROM ".toList ++ withWhere t.toList a body).drop
        "DELETE FROM".length)).isEmpty = false := by rw [hrest, isEmpty_withWhere]
    rw [parseParsedOnly, parseWithTarget_ok hnonempty]
    rfl
  · rw [parseDelete, hrest]
    simp only [findCi_tableWhere ht, Option.getD_some, take_withWhere, Option.mapM_some,
      drop_withWhere, trim_equation ha, ht.identifier_eq ht.isWord.trim_eq,
      if_neg ht.normalizeIdentifier_ne]
    rcases parseFilter (equationText a body) with error | filter
    · rfl
    · rfl

end Delete

/-! ## `SELECT` -/

/-- The phrases that are looked for in the whole of a `SELECT`. -/
def statementPhrases : List String := [" union ", " intersect ", " except ", " window "]

/-- The phrases that are looked for in what follows its `FROM`. -/
def fromPhrases : List String := [" group by ", " having ", " offset ", " window "]

/-- All the phrases that are looked for in a `SELECT`. -/
def selectPhrases : List String := statementPhrases ++ fromPhrases ++ [" order by ", " limit "]

/-- The text is read as this projection, and the `FROM` behind it is the first there is. -/
structure Projects (text : List Char) (projection : Projection) : Prop where
  ne_nil : text ≠ []
  trimmed : trim text = text
  read : parseProjection text = .ok projection
  plain : isAdvancedProjection text = false
  simple : (startsWithCi text "DISTINCT".toList || startsWithCi text "ALL".toList) = false
  clear : ¬" from ".toList <:+: lower text ++ " from".toList

/-- All columns are read as such. -/
theorem projects_all : Projects "*".toList .all :=
  ⟨by decide, by decide, by decide, by decide, by decide, by decide⟩

/-- `columns FROM t WHERE a = 'body'`. -/
def fromWhere (columns : List Char) (t a : String) (body : List Char) : List Char :=
  columns ++ (" FROM ".toList ++ withWhere t.toList a body)

theorem selectText_eq (columns t a : String) (body : List Char) :
    selectText columns t (equation a body) =
      String.ofList ("SELECT ".toList ++ fromWhere columns.toList t a body) := by
  rw [← String.toList_inj, String.toList_ofList]
  simp [selectText, toList_equation, fromWhere, withWhere, String.toList_append]

theorem getLast?_fromWhere (columns : List Char) (t a : String) (body : List Char) :
    (fromWhere columns t a body).getLast? = some '\'' := by
  rw [fromWhere, ← List.append_assoc, getLast?_append_withWhere]

/-- The text ends with a quote, if it ends with anything. -/
def EndsWithQuote (l : List Char) : Prop := ∀ c ∈ l.getLast?, c = '\''

namespace EndsWithQuote

variable {l : List Char} (h : EndsWithQuote l)
include h

theorem drop (n : Nat) : EndsWithQuote (l.drop n) := by
  intro c hc
  rw [List.getLast?_drop] at hc
  split at hc
  · cases hc
  · exact h c hc

theorem trim : EndsWithQuote (trim l) := by
  cases hlast : l.getLast? with
  | none =>
    rw [List.getLast?_eq_none_iff] at hlast
    subst hlast
    exact h
  | some c =>
    obtain rfl := h c hlast
    intro d hd
    rw [Text.trim, getLast?_trimBy hlast rfl] at hd
    exact (Option.some.inj hd).symm

/-- Such a text is no limit. -/
theorem parseLimit (limit : Nat) : parseLimit l ≠ .ok limit := by
  intro hlimit
  rw [Fsql.parseLimit] at hlimit
  split at hlimit
  · rename_i n hn
    have hn := parseUnbounded_of_parseNat hn
    cases hlast : (Text.trim l).getLast? with
    | none =>
      rw [List.getLast?_eq_none_iff] at hlast
      rw [hlast] at hn
      cases hn
    | some c =>
      obtain rfl := h.trim c hlast
      exact not_mem_of_parseUnbounded hn (by decide) (by decide) (List.mem_of_getLast? hlast)
  · cases hlimit

/-- Nor does it end with a word. -/
theorem stripSuffixCi {suffix : List Char} (hne : suffix ≠ []) (hquote : '\'' ∉ lower suffix) :
    stripSuffixCi l suffix = none := by
  rw [Fsql.stripSuffixCi, if_neg]
  rintro ⟨hle, heq⟩
  rw [eqIgnoreCase, beq_iff_eq] at heq
  refine hquote (heq ▸ (mem_lower_iff (by decide)).mpr ?_)
  have hlength : (l.drop (l.length - suffix.length)).length = suffix.length := by
    rw [List.length_drop]
    omega
  have hne' : l.drop (l.length - suffix.length) ≠ [] := by
    intro hnil
    rw [hnil, List.length_nil] at hlength
    exact hne (List.length_eq_zero_iff.mp hlength.symm)
  have hlast := List.getLast?_eq_some_getLast hne'
  exact h.drop _ _ hlast ▸ List.mem_of_getLast? hlast

/-- Nor is it anything in parentheses. -/
theorem parenthesizedBody (context : String) (body : List Char) :
    parenthesizedBody l context ≠ .ok body := by
  intro hbody
  rw [Fsql.parenthesizedBody] at hbody
  split at hbody
  · rename_i hends
    exact absurd (h.trim _ hends.2) (by decide)
  · cases hbody

/-- Such a text is no order. -/
theorem parseOrder (order : Order) : parseOrder l ≠ .ok order := by
  intro horder
  rw [Fsql.parseOrder, h.stripSuffixCi (by decide) (by decide),
    h.stripSuffixCi (by decide) (by decide)] at horder
  simp only at horder
  split at horder
  · cases horder
  · obtain ⟨body, hbody, -⟩ := bind_eq_ok_iff.mp horder
    exact (h.trim.drop _).parenthesizedBody _ _ hbody

end EndsWithQuote

theorem endsWithQuote_withWhere (front : List Char) (a : String) (body : List Char) :
    EndsWithQuote (withWhere front a body) :=
  fun _ hc ↦ (Option.some.inj ((getLast?_withWhere front a body).symm.trans hc)).symm

section Select

variable {columns t a : String} {projection : Projection}
  (hread : Projects columns.toList projection) (ht : SimpleName t) (ha : IsColumn a)
  (body : List Char)

include hread in
/-- The statement without its first keyword. -/
theorem trim_select (t a : String) :
    trim (("SELECT ".toList ++ fromWhere columns.toList t a body).drop "SELECT".length) =
      fromWhere columns.toList t a body := by
  show trim (' ' :: fromWhere columns.toList t a body) = _
  rw [trim, trimBy_cons rfl, ← trim]
  refine trim_append hread.ne_nil (not_of_trimBy_eq_self hread.trimmed).1 ?_
  rw [getLast?_append_withWhere]

include hread ht in
/-- The `FROM` of the statement, and what is before and behind it. -/
theorem cut_select (a : String) :
    findCi (fromWhere columns.toList t a body) " FROM ".toList = some columns.toList.length ∧
      (fromWhere columns.toList t a body).take columns.toList.length = columns.toList ∧
        trim ((fromWhere columns.toList t a body).drop
          (columns.toList.length + " FROM ".length)) = withWhere t.toList a body := by
  refine ⟨?_, List.take_left, ?_⟩
  · rw [findCi, fromWhere, lower_append, lower_append, ← length_lower columns.toList]
    exact find_append _ hread.clear
  · have hdrop : (fromWhere columns.toList t a body).drop
        (columns.toList.length + " FROM ".length) = withWhere t.toList a body := by
      rw [fromWhere, ← List.append_assoc]
      exact List.drop_left' (by rw [List.length_append]; rfl)
    rw [hdrop, trim_withWhere ht.ne_nil ht.isWhitespace_head]

include ht

/-- **The phrases in a `SELECT`** are in its columns or in the equation. -/
theorem containsAny_select (columns a : String) :
    containsAny (lower (fromWhere columns.toList t a body)) statementPhrases =
      (containsAny (lower columns.toList ++ [' ']) statementPhrases ||
        containsAny (' ' :: lower (equationText a body)) statementPhrases) := by
  have hforeign : Foreign [] statementPhrases := by decide
  have htext : lower (fromWhere columns.toList t a body) =
      lower columns.toList ++ ' ' :: ("from".toList ++ ' ' :: (lower t.toList ++
        ' ' :: ("where".toList ++ ' ' :: lower (equationText a body)))) := by
    rw [fromWhere, withWhere, lower_append, lower_append, lower_append, lower_append]
    rfl
  rw [htext, containsAny_across (by decide), ← @List.cons_append _ ' ' (lower t.toList),
    containsAny_across (by decide), List.cons_append, containsAny_table ht hforeign, Bool.false_or]

/-- A phrase is found behind the `FROM` exactly if it is in the equation. -/
theorem isSome_findCi_tableWhere (a : String) {keyword pattern : String}
    (hlower : lower keyword.toList = pattern.toList) (hforeign : Foreign [] [pattern])
    (hacross : Across "where" [pattern]) :
    (findCi (withWhere t.toList a body) keyword.toList).isSome =
      contains (' ' :: lower (equationText a body)) pattern.toList := by
  have hcontains := containsAny_tableWhere ht a body hforeign hacross
  simp only [containsAny, List.any_cons, List.any_nil, Bool.or_false] at hcontains
  rw [findCi, hlower]
  exact hcontains

/-- The phrases in what follows it. -/
theorem containsAny_fromPhrases (a : String) :
    ((findCi (withWhere t.toList a body) " GROUP BY ".toList).isSome ||
      (findCi (withWhere t.toList a body) " HAVING ".toList).isSome ||
      (findCi (withWhere t.toList a body) " OFFSET ".toList).isSome ||
      (findCi (withWhere t.toList a body) " WINDOW ".toList).isSome) =
        containsAny (' ' :: lower (equationText a body)) fromPhrases := by
  rw [@isSome_findCi_tableWhere t ht body a " GROUP BY " " group by " rfl (by decide) (by decide),
    @isSome_findCi_tableWhere t ht body a " HAVING " " having " rfl (by decide) (by decide),
    @isSome_findCi_tableWhere t ht body a " OFFSET " " offset " rfl (by decide) (by decide),
    @isSome_findCi_tableWhere t ht body a " WINDOW " " window " rfl (by decide) (by decide)]
  simp only [fromPhrases, containsAny, List.any_cons, List.any_nil, Bool.or_assoc, Bool.or_false]

/-- A `SELECT` with one of these phrases is an advanced one. -/
theorem isAdvancedSelect_of_phrases (hread : Projects columns.toList projection)
    (h : (containsAny (lower columns.toList ++ [' ']) statementPhrases ||
      containsAny (' ' :: lower (equationText a body)) (statementPhrases ++ fromPhrases)) = true) :
    isAdvancedSelect ("SELECT ".toList ++ fromWhere columns.toList t a body) = .ok true := by
  obtain ⟨hfrom, htake, hdrop⟩ := cut_select hread ht body a
  have hnonempty : (fromWhere columns.toList t a body).isEmpty = false :=
    List.isEmpty_eq_false_iff.mpr (List.append_ne_nil_of_left_ne_nil hread.ne_nil _)
  rw [containsAny, containsAny, List.any_append, ← containsAny, ← containsAny, ← containsAny,
    ← Bool.or_assoc, ← containsAny_select ht body] at h
  rw [isAdvancedSelect, trim_select hread, hnonempty,
    show [" union ", " intersect ", " except ", " window "] = statementPhrases from rfl]
  rcases hstatement : containsAny (lower (fromWhere columns.toList t a body)) statementPhrases with
    _ | _
  · rw [hstatement, Bool.false_or] at h
    simp only [hfrom, htake, hdrop, hread.plain, containsAny_fromPhrases ht, h]
    cases startsWithCi (fromWhere columns.toList t a body) "DISTINCT".toList <;>
      cases startsWithCi (fromWhere columns.toList t a body) "ALL".toList <;> rfl
  · rw [Bool.or_true]
    rfl

/-- Without them the clauses are looked at. -/
theorem selectFrom_tableWhere (hread : Projects columns.toList projection)
    (h : (containsAny (lower columns.toList ++ [' ']) statementPhrases ||
      containsAny (' ' :: lower (equationText a body)) (statementPhrases ++ fromPhrases)) = false)
    (htable : isAdvancedFrom ((withWhere t.toList a body).take
      (selectClauses (withWhere t.toList a body)).tableEnd) = false) :
    SelectFrom ("SELECT ".toList ++ fromWhere columns.toList t a body)
      (withWhere t.toList a body) := by
  obtain ⟨hfrom, htake, hdrop⟩ := cut_select hread ht body a
  have hnonempty : (fromWhere columns.toList t a body).isEmpty = false :=
    List.isEmpty_eq_false_iff.mpr (List.append_ne_nil_of_left_ne_nil hread.ne_nil _)
  have hbegins {pre : List Char} (hpre : ∀ c ∈ pre, c.toLower ≠ ' ') :
      startsWithCi (fromWhere columns.toList t a body) pre = startsWithCi columns.toList pre :=
    startsWithCi_append hpre columns.toList ("FROM ".toList ++ withWhere t.toList a body)
  rw [containsAny, containsAny, List.any_append, ← containsAny, ← containsAny, ← containsAny,
    ← Bool.or_assoc, ← containsAny_select ht body, Bool.or_eq_false_iff] at h
  refine ⟨by rw [trim_select hread, hnonempty], ?_, ⟨columns.toList.length, ?_, ?_, ?_⟩, ?_, htable⟩
  · rw [trim_select hread, show [" union ", " intersect ", " except ", " window "] =
      statementPhrases from rfl, h.1, hbegins (by decide), hbegins (by decide), hread.simple]
    rfl
  · rw [trim_select hread, hfrom]
  · rw [trim_select hread, htake, hread.plain]
  · rw [trim_select hread, hdrop]
  · rw [containsAny_fromPhrases ht, h.2]

/-- Without an order and a limit, the clause is all that is behind the table. -/
theorem selectClauses_tableWhere
    (h : containsAny (' ' :: lower (equationText a body)) [" order by ", " limit "] = false) :
    selectClauses (withWhere t.toList a body) =
      ⟨some t.toList.length, none, none, t.toList.length⟩ := by
  have hnone {keyword pattern : String} (hlower : lower keyword.toList = pattern.toList)
      (hforeign : Foreign [] [pattern]) (hacross : Across "where" [pattern])
      (hcontains : contains (' ' :: lower (equationText a body)) pattern.toList = false) :
      findCi (withWhere t.toList a body) keyword.toList = none := by
    rw [← Option.not_isSome_iff_eq_none, isSome_findCi_tableWhere ht body a hlower hforeign
      hacross, hcontains]
    exact Bool.false_ne_true
  simp only [containsAny, List.any_cons, List.any_nil, Bool.or_false, Bool.or_eq_false_iff] at h
  rw [selectClauses, findCi_tableWhere ht,
    @hnone " ORDER BY " " order by " rfl (by decide) (by decide) h.1,
    @hnone " LIMIT " " limit " rfl (by decide) (by decide) h.2]
  rfl

include ha in
/-- **What becomes of a `SELECT`** without any of the phrases. -/
theorem parse_selectText (hread : Projects columns.toList projection)
    (hcolumns : containsAny (lower columns.toList ++ [' ']) statementPhrases = false)
    (h : containsAny (' ' :: lower (equationText a body)) selectPhrases = false)
    (dialect : SqlDialect) :
    parseSqlWithDialect (selectText columns t (equation a body)) dialect =
      liftM ((parseFilter (equationText a body)).map fun filter ↦
        Statement.select (normalizeIdentifier t) projection (some filter) none none) := by
  have hlast : ("SELECT ".toList ++ fromWhere columns.toList t a body).getLast? = some '\'' := by
    rw [List.getLast?_append, getLast?_fromWhere]
    rfl
  rw [selectPhrases, containsAny, List.any_append, ← containsAny, ← containsAny,
    Bool.or_eq_false_iff] at h
  have hclauses := selectClauses_tableWhere ht body h.2
  obtain ⟨hfrom, htake, hdrop⟩ := cut_select hread ht body a
  have hwhere : (selectClauses (withWhere t.toList a body)).whereText (withWhere t.toList a body)
      t.toList.length = .ok (equationText a body) := by
    have hlength : t.toList.length + " WHERE ".length ≤ (withWhere t.toList a body).length :=
      ByteParser.length_le_of_findCi (findCi_tableWhere ht a body) (by decide)
    rw [hclauses, SelectClauses.whereText]
    simp only [List.map_cons, List.map_nil, Option.filter_none, minPosition, List.filterMap_cons,
      List.filterMap_nil, id_eq, List.min?_nil, Option.getD_none, slice, if_pos hlength,
      List.take_length, drop_withWhere]
    exact congrArg Except.ok (trim_equation ha body)
  have hadvanced : isAdvancedSelect ("SELECT ".toList ++ fromWhere columns.toList t a body) =
      .ok false := by
    have htable : isAdvancedFrom ((withWhere t.toList a body).take
        (selectClauses (withWhere t.toList a body)).tableEnd) = false := by
      rw [hclauses, take_withWhere, isAdvancedFrom_word ht.word ht.ne_nil]
    have hphrases := Bool.or_eq_false_iff.mpr ⟨hcolumns, h.1⟩
    rw [isAdvancedSelect_of_selectFrom (selectFrom_tableWhere ht body hread hphrases htable),
      advancedClauses]
    rw [hclauses] at hwhere ⊢
    simp only [hwhere]
    show (if isAdvancedWhereClause (equationText a body) then
      (return true : Parse Bool) else return false) = .ok false
    rw [isAdvancedWhereClause_equation ha]
    rfl
  rw [selectText_eq, parseSqlWithDialect_of_ends rfl hlast (by decide) (by decide),
    parseStatement_select, hadvanced]
  rw [hclauses] at hwhere
  show parseSelect _ = _
  rw [parseSelect, trim_select hread]
  simp only [hfrom, htake, hdrop, hread.read, hclauses, Option.mapM_some, Option.mapM_none, hwhere,
    take_withWhere, ht.identifier_eq ht.isWord.trim_eq, ByteParser.ok_bind]
  rcases parseFilter (equationText a body) with error | filter
  · rfl
  · rfl

/-- **With one of the phrases it is not executed.** -/
theorem parse_selectText_ne (hread : Projects columns.toList projection)
    (h : (containsAny (lower columns.toList ++ [' ']) statementPhrases ||
      containsAny (' ' :: lower (equationText a body)) selectPhrases) = true)
    (dialect : SqlDialect) (table : String) (projection : Projection) (filter : Option Filter)
    (order : Option Order) (limit : Option Nat) :
    parseSqlWithDialect (selectText columns t (equation a body)) dialect ≠
      .ok (.select table projection filter order limit) := by
  have hlast : ("SELECT ".toList ++ fromWhere columns.toList t a body).getLast? = some '\'' := by
    rw [List.getLast?_append, getLast?_fromWhere]
    rfl
  rw [selectText_eq, parseSqlWithDialect_of_ends rfl hlast (by decide) (by decide),
    parseStatement_select]
  intro hselect
  obtain ⟨advanced, hadvanced, hselect⟩ := bind_eq_ok_iff.mp hselect
  rcases advanced with _ | _
  · have hphrases : (containsAny (lower columns.toList ++ [' ']) statementPhrases ||
        containsAny (' ' :: lower (equationText a body)) (statementPhrases ++ fromPhrases)) =
          false := by
      rw [← Bool.not_eq_true]
      intro hphrases
      rw [isAdvancedSelect_of_phrases ht body hread hphrases] at hadvanced
      cases hadvanced
    rw [selectPhrases, containsAny, containsAny, List.any_append, ← containsAny, ← containsAny,
      ← Bool.or_assoc, hphrases, Bool.false_or] at h
    have hselect : parseSelect _ = .ok _ := hselect
    obtain ⟨hfrom, htake, hdrop⟩ := cut_select hread ht body a
    rw [parseSelect, trim_select hread] at hselect
    simp only [hfrom, hdrop] at hselect
    obtain ⟨_, -, hselect⟩ := bind_eq_ok_iff.mp hselect
    obtain ⟨_, -, hselect⟩ := bind_eq_ok_iff.mp hselect
    obtain ⟨order, horder, hselect⟩ := bind_eq_ok_iff.mp hselect
    obtain ⟨limit, hlimit, -⟩ := bind_eq_ok_iff.mp hselect
    have hends := endsWithQuote_withWhere t.toList a body
    -- a limit would have to end with the quote, and so would an order without a limit behind it
    rcases hlimitPos : (selectClauses (withWhere t.toList a body)).limitPos with _ | pos
    · have horderPos : ∃ pos, (selectClauses (withWhere t.toList a body)).orderPos = some pos := by
        have hnone := @isSome_findCi_tableWhere t ht body a " LIMIT " " limit " rfl (by decide)
          (by decide)
        rw [show findCi (withWhere t.toList a body) " LIMIT ".toList = none from hlimitPos,
          Option.isSome_none] at hnone
        rw [List.any_cons, List.any_cons, List.any_nil, ← hnone, Bool.or_false,
          Bool.or_false, ← @isSome_findCi_tableWhere t ht body a " ORDER BY " " order by "
            rfl (by decide) (by decide)] at h
        exact Option.isSome_iff_exists.mp h
      obtain ⟨pos, hpos⟩ := horderPos
      rw [hpos, Option.mapM_some] at horder
      obtain ⟨order', horder', -⟩ := bind_eq_ok_iff.mp horder
      obtain ⟨text, htext, horder'⟩ := bind_eq_ok_iff.mp horder'
      rw [SelectClauses.orderText, hlimitPos, Option.filter_none, Option.getD_none] at htext
      obtain ⟨behind, hslice, htext⟩ := bind_eq_ok_iff.mp htext
      obtain ⟨-, rfl⟩ := slice_eq_ok_iff.mp hslice
      obtain rfl := Except.ok.inj htext
      rw [List.take_length] at horder'
      exact (hends.drop _).trim.parseOrder _ (monadLift_eq_ok_iff.mp horder')
    · rw [hlimitPos, Option.mapM_some] at hlimit
      obtain ⟨limit', hlimit', -⟩ := bind_eq_ok_iff.mp hlimit
      exact (hends.drop _).parseLimit _ (monadLift_eq_ok_iff.mp hlimit')
  · have hparsed := monadLift_eq_ok_iff.mp hselect
    rw [parseParsedOnly, parseWithTarget] at hparsed
    split at hparsed <;> cases hparsed

end Select

end Quoted

end Fsql
