import Fsql.Sql.EnclosedValues

/-!
# Whether literals are opaque

An application that makes up statements from strings writes each of them in single quotes and
doubles the quotes inside.  Then nothing in the string should be part of the statement
(`parse_form_iff`), and a clause of two equations should not be taken for one (`literals_iff`).

Both fail for the same reason: the parser looks for its keywords in the whole of a text, and takes
what is between the first quote of a value and its last one for one literal.  A statement with a
string is read as it is meant exactly if the string contains none of the phrases that are looked
for in the statement, in any case; and an `UPDATE` is cut at a ` where ` in its new value, and what
stands behind it is executed as the clause (`not_parse_form`).
-/

set_option autoImplicit false

namespace Fsql

open Number Text

namespace Quoted

/-! ## Strings in a statement -/

/-- A simple name, as it is written. -/
abbrev Name := {name : String // SimpleName name}

/-- **A statement with literals** that an application writes for its names and strings. -/
inductive Form
  /-- A row of one string. -/
  | insert (t : Name) (s : String)
  /-- The rows with a string in a column. -/
  | select (t a : Name) (s : String)
  /-- A string for the rows with another one. -/
  | update (t a : Name) (s : String) (b : Name) (r : String)
  /-- No rows with a string in a column. -/
  | delete (t a : Name) (s : String)

/-- A column has a string. -/
def equals (a s : String) : Filter := .equals (normalizeIdentifier a) (.text s)

namespace Form

/-- The text of the statement. -/
def text : Form → String
  | .insert t s => insertText t s
  | .select t a s => selectText "*" t (literal a s)
  | .update t a s b r => updateText t (literal a s) (literal b r)
  | .delete t a s => deleteText t (literal a s)

/-- The statement that the text is written for. -/
def statement : Form → Statement
  | .insert t s => .insert (normalizeIdentifier t) none [.text s]
  | .select t a s => .select (normalizeIdentifier t) .all (some (equals a s)) none none
  | .update t a s b r =>
    .update (normalizeIdentifier t) [(normalizeIdentifier a, .text s)] (some (equals b r))
  | .delete t a s => .delete (normalizeIdentifier t) (some (equals a s))

/-- No string contains a phrase that is looked for in the statement, and no name begins like a
predicate or contains a keyword where that is looked for. -/
def Clear : Form → Prop
  | .insert t s => contains (lower t.val.toList) "values".toList = false ∧
      containsAny (lower s.toList) insertPhrases = false
  | .select _ a s => beginsPredicate a = false ∧ containsAny (lower s.toList) selectPhrases = false
  | .update _ _ s b r => beginsPredicate b = false ∧
      containsAny (lower s.toList) (" where " :: updatePhrases) = false ∧
        containsAny (lower r.toList) updatePhrases = false
  | .delete _ a s => beginsPredicate a = false ∧ containsAny (lower s.toList) deletePhrases = false

end Form

/-- What an equation with a literal is read as. -/
theorem parseFilter_literal_iff {a : String} (h : IsColumn a) (s : String) :
    parseFilter (equationText a (double '\'' s.toList)) = .ok (equals a s) ↔
      beginsPredicate a = false := by
  rcases hplain : beginsPredicate a with _ | _
  · rw [parseFilter_equation h _ hplain, undouble_double, String.ofList_toList]
    exact iff_of_true rfl rfl
  · obtain ⟨error, herror⟩ := parseFilter_equation_error h (double '\'' s.toList) hplain
    rw [herror]
    exact ⟨fun h ↦ (by cases h), fun h ↦ (by cases h)⟩

/-- A filter is read as it is if its text is, and then put into its statement. -/
theorem liftM_map_eq_ok_iff {α β : Type} {x : Result α} {f : α → β} {b : β}
    (hf : ∀ a a', f a = f a' → a = a') {a : α} (hb : f a = b) :
    (liftM (x.map f) : Parse β) = .ok b ↔ x = .ok a := by
  rw [monadLift_eq_ok_iff, ← hb]
  rcases x with error | a'
  · exact ⟨fun h ↦ (by cases h), fun h ↦ (by cases h)⟩
  · exact ⟨fun h ↦ congrArg Except.ok (hf _ _ (Except.ok.inj h)),
      fun h ↦ congrArg (Except.ok ∘ f) (Except.ok.inj h)⟩

section Forms

variable {t a b : String} (ht : SimpleName t) (ha : SimpleName a) (hb : SimpleName b)
  (s r : String) (dialect : SqlDialect)
include ht

/-- **When an `INSERT` of a literal is read as it is meant.** -/
theorem parse_insert_iff :
    parseSqlWithDialect (insertText t s) dialect =
        .ok (.insert (normalizeIdentifier t) none [.text s]) ↔
      contains (lower t.toList) "values".toList = false ∧
        containsAny (lower s.toList) insertPhrases = false := by
  rcases hname : contains (lower t.toList) "values".toList with _ | _
  · rw [parse_insertText ht s dialect hname]
    rcases containsAny (lower s.toList) insertPhrases with _ | _
    · exact iff_of_true rfl ⟨rfl, rfl⟩
    · refine iff_of_false (fun h ↦ ?_) (fun h ↦ Bool.false_ne_true h.2.symm)
      cases Except.ok.inj h
  · refine iff_of_false (parse_insertText_ne ht s dialect hname _ _) (fun h ↦ ?_)
    exact Bool.false_ne_true h.1.symm

include ha

omit ht in
/-- The phrases in an equation with a literal are those in its string. -/
theorem containsAny_equation_literal {patterns : List String} (hforeign : Foreign ["="] patterns) :
    containsAny (' ' :: lower (equationText a (double '\'' s.toList))) patterns =
      containsAny (lower s.toList) patterns := by
  rw [containsAny_equation ha hforeign, containsAny_double rfl hforeign.1]

/-- **When a `SELECT` with a literal is read as it is meant.** -/
theorem parse_select_iff :
    parseSqlWithDialect (selectText "*" t (literal a s)) dialect =
        .ok (.select (normalizeIdentifier t) .all (some (equals a s)) none none) ↔
      beginsPredicate a = false ∧ containsAny (lower s.toList) selectPhrases = false := by
  have hcolumns : containsAny (lower "*".toList ++ [' ']) statementPhrases = false := by decide
  rw [literal_eq, ← containsAny_equation_literal ha s (by decide)]
  rcases h : containsAny (' ' :: lower (equationText a (double '\'' s.toList))) selectPhrases with
    _ | _
  · rw [parse_selectText ht ha.isColumn _ projects_all hcolumns h, liftM_map_eq_ok_iff
      (fun _ _ h ↦ Option.some.inj (Statement.select.inj h).2.2.1) rfl,
      parseFilter_literal_iff ha.isColumn]
    exact (and_iff_left rfl).symm
  · have hphrases : (containsAny (lower "*".toList ++ [' ']) statementPhrases || containsAny
        (' ' :: lower (equationText a (double '\'' s.toList))) selectPhrases) = true := by
      rw [h, Bool.or_true]
    refine iff_of_false (parse_selectText_ne ht _ projects_all hphrases dialect _ _ _ _ _)
      (fun h ↦ ?_)
    exact Bool.false_ne_true h.2.symm

/-- **When a `DELETE` with a literal is read as it is meant.** -/
theorem parse_delete_iff :
    parseSqlWithDialect (deleteText t (literal a s)) dialect =
        .ok (.delete (normalizeIdentifier t) (some (equals a s))) ↔
      beginsPredicate a = false ∧ containsAny (lower s.toList) deletePhrases = false := by
  rw [literal_eq, parse_deleteText ht ha.isColumn, containsAny_equation_literal ha s (by decide)]
  rcases containsAny (lower s.toList) deletePhrases with _ | _
  · rw [if_neg Bool.false_ne_true, liftM_map_eq_ok_iff
      (fun _ _ h ↦ Option.some.inj (Statement.delete.inj h).2) rfl,
      parseFilter_literal_iff ha.isColumn]
    exact (and_iff_left rfl).symm
  · rw [if_pos rfl]
    refine iff_of_false (fun h ↦ ?_) (fun h ↦ Bool.false_ne_true h.2.symm)
    cases Except.ok.inj h

include hb

/-- **When an `UPDATE` with two literals is read as it is meant.** -/
theorem parse_update_iff :
    parseSqlWithDialect (updateText t (literal a s) (literal b r)) dialect =
        .ok (.update (normalizeIdentifier t) [(normalizeIdentifier a, .text s)]
          (some (equals b r))) ↔
      beginsPredicate b = false ∧
        containsAny (lower s.toList) (" where " :: updatePhrases) = false ∧
          containsAny (lower r.toList) updatePhrases = false := by
  have hcons : containsAny (lower s.toList) (" where " :: updatePhrases) =
      (contains (lower s.toList) " where ".toList ||
        containsAny (lower s.toList) updatePhrases) := rfl
  rw [hcons, Bool.or_eq_false_iff, literal_eq b]
  rcases hwhere : contains (lower s.toList) " where ".toList with _ | _
  · rw [parse_updateText ht hb.isColumn (assigns_literal ha s hwhere),
      containsAny_literal ha s (by decide), containsAny_equation_literal hb r (by decide)]
    rcases containsAny (lower s.toList) updatePhrases with _ | _
    · rcases containsAny (lower r.toList) updatePhrases with _ | _
      · rw [Bool.or_false, if_neg Bool.false_ne_true, liftM_map_eq_ok_iff
          (fun _ _ h ↦ Option.some.inj (Statement.update.inj h).2.2) rfl,
          parseFilter_literal_iff hb.isColumn]
        exact (and_iff_left ⟨⟨rfl, rfl⟩, rfl⟩).symm
      · rw [Bool.or_true, if_pos rfl]
        refine iff_of_false (fun h ↦ ?_) (fun h ↦ Bool.false_ne_true h.2.2.symm)
        cases Except.ok.inj h
    · rw [Bool.true_or, if_pos rfl]
      refine iff_of_false (fun h ↦ ?_) (fun h ↦ Bool.false_ne_true h.2.1.2.symm)
      cases Except.ok.inj h
  · refine iff_of_false (parse_updateText_ne ha s ht hwhere _ dialect _ _ _) (fun h ↦ ?_)
    exact Bool.false_ne_true h.2.1.1.symm

end Forms

/-- **When a statement with literals is read as it is meant.** -/
theorem parse_form_iff (form : Form) (dialect : SqlDialect) :
    parseSqlWithDialect form.text dialect = .ok form.statement ↔ form.Clear := by
  rcases form with ⟨t, s⟩ | ⟨t, a, s⟩ | ⟨t, a, s, b, r⟩ | ⟨t, a, s⟩
  · exact parse_insert_iff t.2 s dialect
  · exact parse_select_iff t.2 a.2 s dialect
  · exact parse_update_iff t.2 a.2 b.2 s r dialect
  · exact parse_delete_iff t.2 a.2 s dialect

/-- A string with a clause in it for the rows that another column selects. -/
def hidingForm : Form :=
  .update ⟨"t", by decide, by decide, by decide⟩ ⟨"a", by decide, by decide, by decide⟩
    "x' where c = 'y" ⟨"b", by decide, by decide, by decide⟩ "r"

/-- **A string is executed**: of `UPDATE t SET a = 'x'' where c = ''y' WHERE b = 'r'`, the clause
is the one in the string. -/
theorem not_parse_form :
    parseSqlWithDialect hidingForm.text .fsql =
        .ok (.update "t" [("a", .text "x'")] (some (.equals "c" (.text "'y' WHERE b = 'r")))) ∧
      parseSqlWithDialect hidingForm.text .fsql ≠ .ok hidingForm.statement := by
  decide +kernel

/-! ## Two equations in a clause -/

/-- The word between two equations. -/
inductive Connective
  | and
  | or
deriving DecidableEq, Repr

/-- The connective as it is written. -/
def Connective.word : Connective → String
  | .and => "AND"
  | .or => "OR"

/-- **A clause of two equations**, each of a column and a literal. -/
structure Clause where
  /-- The first column. -/
  a : {column : String // IsColumn column}
  /-- The string it is compared with. -/
  x : String
  /-- What joins the equations. -/
  connective : Connective
  /-- The second column. -/
  b : String
  /-- The string it is compared with. -/
  y : String

namespace Clause

variable (clause : Clause)

/-- The text of the clause. -/
def text : String :=
  literal clause.a clause.x ++ " " ++ clause.connective.word ++ " " ++ literal clause.b clause.y

/-- What is between the first quote of the clause and the last one. -/
def body : List Char :=
  double '\'' clause.x.toList ++ "' ".toList ++ clause.connective.word.toList ++ [' '] ++
    clause.b.toList ++ " = '".toList ++ double '\'' clause.y.toList

/-- **The clause has the ends of one equation.** -/
theorem toList_text : clause.text.toList = equationText clause.a clause.body := by
  rw [text]
  simp [String.toList_append, toList_literal, equationText, body, enclosed, words]

theorem text_eq : clause.text = equation clause.a clause.body := by
  rw [← String.toList_inj, toList_text, toList_equation]

/-- **When a clause of two equations is read as one.** -/
theorem parseFilter_text_iff :
    (∃ column value, parseFilter clause.text.toList = .ok (.equals column value)) ↔
      beginsPredicate clause.a = false := by
  rw [toList_text]
  rcases hplain : beginsPredicate clause.a with _ | _
  · exact iff_of_true ⟨_, _, parseFilter_equation clause.a.2 _ hplain⟩ rfl
  · obtain ⟨error, herror⟩ := parseFilter_equation_error clause.a.2 clause.body hplain
    refine iff_of_false ?_ Bool.false_ne_true.symm
    rintro ⟨column, value, heq⟩
    rw [herror] at heq
    cases heq

end Clause

/-- **The columns of a `SELECT`**, as they are written and as they are read. -/
structure Columns where
  /-- The text behind the `SELECT`. -/
  text : String
  /-- The columns. -/
  projection : Projection
  projects : Projects text.toList projection

/-- **The assignments of an `UPDATE`**, as they are written and as they are read. -/
structure NewValues where
  /-- The text behind the `SET`. -/
  text : String
  /-- The columns and their values. -/
  assignments : List (String × Value)
  assigns : Assigns text.toList assignments

/-- **A statement about the rows of a clause.** -/
inductive Host
  /-- Some columns of the rows. -/
  | select (columns : Columns) (t : Name)
  /-- New values for them. -/
  | update (t : Name) (new : NewValues)
  /-- No such rows. -/
  | delete (t : Name)

namespace Host

/-- The statement with the clause. -/
def text (clause : String) : Host → String
  | .select columns t => selectText columns.text t clause
  | .update t new => updateText t new.text clause
  | .delete t => deleteText t clause

/-- The phrases that are looked for in the clause. -/
def phrases : Host → List String
  | .select .. => selectPhrases
  | .update .. => updatePhrases
  | .delete _ => deletePhrases

/-- Those that are looked for before the clause are not there. -/
def Clear : Host → Prop
  | .select columns _ => containsAny (lower columns.text.toList ++ [' ']) statementPhrases = false
  | .update _ new => containsAny (' ' :: (lower new.text.toList ++ [' '])) updatePhrases = false
  | .delete _ => True

end Host

/-- The clause of a statement about rows. -/
def filterOf : Statement → Option Filter
  | .select _ _ filter _ _ => filter
  | .update _ _ filter => filter
  | .delete _ filter => filter
  | _ => none

/-- The statement is executed for the rows with one value in one column. -/
def ExecutesEquals (outcome : Parse Statement) : Prop :=
  ∃ statement column value, outcome = .ok statement ∧
    filterOf statement = some (.equals column value)

/-- There is no statement to execute: the text is only parsed, or it is refused. -/
inductive Declined : Parse Statement → Prop
  | parsedOnly (kind : ParsedOnlyStatementKind) (text : String) :
    Declined (.ok (.parsedOnly kind text))
  | fault (fault : Fault) : Declined (.error fault)

theorem Declined.not_executesEquals {outcome : Parse Statement} (h : Declined outcome) :
    ¬ExecutesEquals outcome := by
  rintro ⟨statement, column, value, heq, hfilter⟩
  rcases h with ⟨kind, text⟩ | fault
  · obtain rfl := Except.ok.inj heq
    cases hfilter
  · cases heq

/-- The statement is executed for one equation under the condition, and declined otherwise. -/
structure ExecutedIf (condition : Prop) (outcome : Parse Statement) : Prop where
  executes : condition → ExecutesEquals outcome
  declines : ¬condition → Declined outcome

namespace ExecutedIf

variable {condition other : Prop} {outcome : Parse Statement}

theorem iff (h : ExecutedIf condition outcome) :
    (ExecutesEquals outcome ↔ condition) ∧ (Declined outcome ↔ ¬condition) := by
  by_cases hcondition : condition
  · have hexecutes := h.executes hcondition
    exact ⟨iff_of_true hexecutes hcondition,
      iff_of_false (fun hdeclined ↦ hdeclined.not_executesEquals hexecutes)
        (not_not.mpr hcondition)⟩
  · have hdeclined := h.declines hcondition
    exact ⟨iff_of_false hdeclined.not_executesEquals hcondition,
      iff_of_true hdeclined hcondition⟩

theorem of_declined (hother : ¬other) (h : Declined outcome) :
    ExecutedIf (condition ∧ other) outcome :=
  ⟨fun hboth ↦ absurd hboth.2 hother, fun _ ↦ h⟩

theorem and_right (h : ExecutedIf condition outcome) (hother : other) :
    ExecutedIf (condition ∧ other) outcome :=
  ⟨fun hboth ↦ h.executes hboth.1, fun hnot ↦ h.declines fun hone ↦ hnot ⟨hone, hother⟩⟩

/-- **What an equation is read as in its statement.** -/
theorem equation {a : String} (ha : IsColumn a) (body : List Char) {f : Filter → Statement}
    (hf : ∀ filter, filterOf (f filter) = some filter) :
    ExecutedIf (beginsPredicate a = false) (liftM ((parseFilter (equationText a body)).map f)) := by
  refine ⟨fun hplain ↦ ?_, fun hpredicate ↦ ?_⟩
  · rw [parseFilter_equation ha body hplain]
    exact ⟨_, _, _, rfl, hf _⟩
  · obtain ⟨error, herror⟩ := parseFilter_equation_error ha body
      (Bool.not_eq_false _ ▸ hpredicate)
    rw [herror]
    exact .fault (.error error)

end ExecutedIf

/-- A text that begins with `SELECT` is one, or none that is executed. -/
theorem parseStatement_select_cases (rest : List Char) (dialect : SqlDialect) :
    Declined (parseStatement ("SELECT ".toList ++ rest) dialect) ∨
      ∃ table projection filter order limit, parseStatement ("SELECT ".toList ++ rest) dialect =
        .ok (.select table projection filter order limit) := by
  rw [parseStatement_select]
  rcases isAdvancedSelect ("SELECT ".toList ++ rest) with fault | _ | _
  · exact .inl (.fault fault)
  · show Declined (parseSelect _) ∨ ∃ _ _ _ _ _, parseSelect _ = _
    rcases hselect : parseSelect ("SELECT ".toList ++ rest) with fault | statement
    · exact .inl (.fault fault)
    · rw [parseSelect] at hselect
      split at hselect
      · cases hselect
      · obtain ⟨projection, -, hselect⟩ := bind_eq_ok_iff.mp hselect
        obtain ⟨filter, -, hselect⟩ := bind_eq_ok_iff.mp hselect
        obtain ⟨order, -, hselect⟩ := bind_eq_ok_iff.mp hselect
        obtain ⟨limit, -, hselect⟩ := bind_eq_ok_iff.mp hselect
        exact .inr ⟨_, _, _, _, _, hselect.symm⟩
  · refine .inl ?_
    show Declined (liftM (parseParsedOnly _ _ _))
    rw [parseParsedOnly, parseWithTarget]
    split
    · exact .fault _
    · exact .parsedOnly _ _

section Hosts

variable {t a : String} (ht : SimpleName t) (ha : IsColumn a) (body : List Char)
  (dialect : SqlDialect)
include ht ha

/-- **When a `SELECT` is executed for an equation.** -/
theorem executedIf_selectText (columns : Columns) :
    ExecutedIf (beginsPredicate a = false ∧
        (containsAny (lower columns.text.toList ++ [' ']) statementPhrases ||
          containsAny (' ' :: lower (equationText a body)) selectPhrases) = false)
      (parseSqlWithDialect (selectText columns.text t (equation a body)) dialect) := by
  rcases hphrases : containsAny (lower columns.text.toList ++ [' ']) statementPhrases ||
    containsAny (' ' :: lower (equationText a body)) selectPhrases with _ | _
  · rw [Bool.or_eq_false_iff] at hphrases
    rw [parse_selectText ht ha body columns.projects hphrases.1 hphrases.2]
    exact (ExecutedIf.equation ha body fun _ ↦ rfl).and_right rfl
  · refine .of_declined Bool.false_ne_true.symm ?_
    have hlast : ("SELECT ".toList ++ fromWhere columns.text.toList t a body).getLast? =
        some '\'' := by
      rw [List.getLast?_append, getLast?_fromWhere]
      rfl
    have hne := parse_selectText_ne ht body columns.projects hphrases dialect
    rw [selectText_eq, parseSqlWithDialect_of_ends rfl hlast (by decide) (by decide)] at hne ⊢
    rcases parseStatement_select_cases (fromWhere columns.text.toList t a body) dialect with
      hdeclined | ⟨table, projection, filter, order, limit, hselect⟩
    · exact hdeclined
    · exact absurd hselect (hne table projection filter order limit)

/-- **When a `DELETE` is executed for an equation.** -/
theorem executedIf_deleteText :
    ExecutedIf (beginsPredicate a = false ∧
        containsAny (' ' :: lower (equationText a body)) deletePhrases = false)
      (parseSqlWithDialect (deleteText t (equation a body)) dialect) := by
  rw [parse_deleteText ht ha]
  rcases containsAny (' ' :: lower (equationText a body)) deletePhrases with _ | _
  · rw [if_neg Bool.false_ne_true]
    exact (ExecutedIf.equation ha body fun _ ↦ rfl).and_right rfl
  · rw [if_pos rfl]
    exact .of_declined Bool.false_ne_true.symm (.parsedOnly _ _)

/-- **When an `UPDATE` is executed for an equation.** -/
theorem executedIf_updateText (new : NewValues) :
    ExecutedIf (beginsPredicate a = false ∧
        (containsAny (' ' :: (lower new.text.toList ++ [' '])) updatePhrases ||
          containsAny (' ' :: lower (equationText a body)) updatePhrases) = false)
      (parseSqlWithDialect (updateText t new.text (equation a body)) dialect) := by
  rw [parse_updateText ht ha new.assigns]
  rcases containsAny (' ' :: (lower new.text.toList ++ [' '])) updatePhrases ||
    containsAny (' ' :: lower (equationText a body)) updatePhrases with _ | _
  · rw [if_neg Bool.false_ne_true]
    exact (ExecutedIf.equation ha body fun _ ↦ rfl).and_right rfl
  · rw [if_pos rfl]
    exact .of_declined Bool.false_ne_true.symm (.parsedOnly _ _)

end Hosts

/-- The condition under which a clause of two equations is executed as one. -/
structure Mistaken (host : Host) (clause : Clause) : Prop where
  plain : beginsPredicate clause.a = false
  clear : host.Clear
  absent : containsAny (' ' :: lower clause.text.toList) host.phrases = false

/-- **When a clause of two equations is executed as one.** -/
theorem executedIf_mistaken (host : Host) (clause : Clause) (dialect : SqlDialect) :
    ExecutedIf (Mistaken host clause) (parseSqlWithDialect (host.text clause.text) dialect) := by
  have hmistaken : Mistaken host clause ↔ beginsPredicate clause.a = false ∧ host.Clear ∧
      containsAny (' ' :: lower (equationText clause.a clause.body)) host.phrases = false := by
    rw [← clause.toList_text]
    exact ⟨fun h ↦ ⟨h.plain, h.clear, h.absent⟩, fun ⟨hplain, hclear, habsent⟩ ↦
      ⟨hplain, hclear, habsent⟩⟩
  rw [hmistaken, clause.text_eq]
  rcases host with ⟨columns, t⟩ | ⟨t, new⟩ | t
  · rw [Host.Clear, ← Bool.or_eq_false_iff]
    exact executedIf_selectText t.2 clause.a.2 clause.body dialect columns
  · rw [Host.Clear, ← Bool.or_eq_false_iff]
    exact executedIf_updateText t.2 clause.a.2 clause.body dialect new
  · rw [show Host.Clear (.delete t) = True from rfl, true_and]
    exact executedIf_deleteText t.2 clause.a.2 clause.body dialect

/-- Two equations that are one: `DELETE FROM t WHERE a = 'x' AND b = 'y'`. -/
def twoEquations : Clause :=
  ⟨⟨"a", SimpleName.isColumn ⟨by decide, by decide, by decide⟩⟩, "x", .and, "b", "y"⟩

end Quoted

end Fsql
