import Fsql.Library.Words
import Fsql.Sql.Panics

/-!
# Which clauses are dropped

The parser takes a text for an executable `CREATE TABLE`, `CREATE INDEX` or `INSERT` unless it finds
a phrase in it that it knows it does not support, and then cuts the names and the columns out.  What
is left over is not looked at.  `PRIMARY KEY` is one more phrase that is looked for, with one blank.

* `AcceptsTable`, `AcceptsIndex`, `AcceptsInsert` — the texts that are taken for one of the three:
  by `accepts_of_parseSqlWithDialect` no other text is, and by `AcceptsTable.parse`,
  `AcceptsIndex.parse` and `AcceptsInsert.parse` all of these are.
* `tableKept`, `indexKept`, `insertKept` — what such a text is when nothing in it is left over.
* `clausesKept_iff` — a clause is dropped from the texts of `DropsClause` and from no others.
-/

set_option autoImplicit false

namespace Fsql

open Text

/-! ## Texts without further clauses -/

/-- The text up to the parenthesis that closes the open one, outside of quotes, and the text behind
it. -/
def closeParen : Scan → List Char → Option (List Char × List Char)
  | _, [] => none
  | s, ch :: input =>
    if s.quote.isNone && s.parens == 0 && ch == ')' then some ([], input)
    else (closeParen (s.next ch) input).map fun p ↦ (ch :: p.1, p.2)

/-- What the first parenthesis of a text encloses, and the text behind the closing one. -/
def parenthesizedList (input : List Char) : Option (List Char × List Char) :=
  (findChar '(' input).bind fun opening ↦ closeParen {} (input.drop (opening + 1))

/-- The first parenthesis is closed and there is only whitespace behind. -/
def listEnds (input : List Char) : Bool :=
  (parenthesizedList input).any fun p ↦ (trim p.2).isEmpty

/-- The two words are `PRIMARY KEY`. -/
def isPrimaryKey (primary key : List Char) : Bool :=
  eqIgnoreCase primary "PRIMARY".toList && eqIgnoreCase key "KEY".toList

/-- A column definition is a name, a type and perhaps `PRIMARY KEY`. -/
def exactDefinition (definition : List Char) : Bool :=
  match splitWhitespace definition with
  | [_, _] => true
  | [_, _, primary, key] => isPrimaryKey primary key
  | _ => false

/-- The column an exact definition stands for. -/
def exactColumn (definition : List Char) : Option Column :=
  match splitWhitespace definition with
  | [name, ty] => (ColumnType.parse ty).toOption.map fun ty ↦ ⟨identifier name, ty, false⟩
  | [name, ty, primary, key] =>
    if isPrimaryKey primary key then
      (ColumnType.parse ty).toOption.map fun ty ↦ ⟨identifier name, ty, true⟩
    else none
  | _ => none

/-- **Nothing but the columns**: the list of a `CREATE TABLE` has only whitespace behind it, and the
columns are those of exact definitions. -/
def tableKept (sql : List Char) (columns : List Column) : Bool :=
  (parenthesizedList sql).any fun p ↦
    (trim p.2).isEmpty && (splitTopLevel p.1 ',').map exactColumn = columns.map some

/-- Nothing follows the column of a `CREATE INDEX`. -/
def indexKept (sql : List Char) : Bool := listEnds sql

/-- Nothing stands between the columns of an `INSERT`, if it has any, and its `VALUES`. -/
def insertKept (sql : List Char) : Bool :=
  (findCi sql "VALUES".toList).all fun valuesPos ↦
    !(sql.take valuesPos).contains '(' || listEnds (sql.take valuesPos)

/-- What is executed is all of the text. -/
def kept (sql : List Char) : Statement → Bool
  | .createTable _ columns => tableKept sql columns
  | .createIndex .. => indexKept sql
  | .insert .. => insertKept sql
  | _ => true

/-- **No clause of the text is dropped**: if it yields one of the three statements, all that stands
behind its names, or in its column definitions, is in the statement. -/
def ClausesKept (sql : String) (dialect : SqlDialect) : Prop :=
  ∀ statement, parseSqlWithDialect sql dialect = .ok statement →
    kept (stripStatement sql.toList) statement = true

theorem closeParen_eq_some {s : Scan} {input list tail : List Char}
    (h : closeParen s input = some (list, tail)) : input = list ++ ')' :: tail := by
  induction input generalizing s list with
  | nil => cases h
  | cons ch input ih =>
    rw [closeParen] at h
    split at h
    · rename_i hclose
      obtain ⟨rfl, rfl⟩ := Prod.mk.inj (Option.some.inj h)
      simp only [Bool.and_eq_true, beq_iff_eq] at hclose
      rw [hclose.2]
      rfl
    · obtain ⟨⟨list', tail'⟩, hrest, heq⟩ := Option.map_eq_some_iff.mp h
      obtain ⟨rfl, rfl⟩ := Prod.mk.inj heq
      rw [ih hrest]
      rfl

/-- A text that is trimmed away is whitespace. -/
theorem isWhitespace_of_trim_eq_nil {l : List Char} (h : trim l = []) {c : Char} (hc : c ∈ l) :
    isWhitespace c = true := by
  obtain ⟨front, back, hl, hfront, hback⟩ := exists_eq_append_trimBy isWhitespace l
  rw [show trimBy isWhitespace l = [] from h, List.append_nil] at hl
  rw [hl, List.mem_append] at hc
  exact hc.elim (hfront c) (hback c)

/-- The keyword of a `CREATE TABLE` has no parenthesis. -/
theorem not_mem_take_of_keyword {sql : List Char}
    (h : startsWithCi sql "CREATE TABLE".toList = true) :
    '(' ∉ sql.take "CREATE TABLE".length := by
  intro hmem
  have htake := List.prefix_iff_eq_take.mp (ByteParser.startsWithCi_iff.mp h)
  have hlower : '(' ∈ lower (sql.take "CREATE TABLE".length) := (mem_lower_iff rfl).mpr hmem
  rw [lower, List.map_take, ← lower] at hlower
  rw [length_lower] at htake
  rw [show "CREATE TABLE".length = "CREATE TABLE".toList.length from rfl, ← htake] at hlower
  revert hlower
  decide

theorem parenthesizedList_append {before : List Char} (h : '(' ∉ before) (behind : List Char) :
    parenthesizedList (before ++ '(' :: behind) = closeParen {} behind := by
  have hdrop : (before ++ '(' :: behind).drop (before.length + 1) = behind := by
    rw [← List.drop_drop, List.drop_left]
    rfl
  rw [parenthesizedList, findChar_append h, Option.bind_some, hdrop]

/-- **What is between the first parenthesis and the last one** is the list, if nothing follows it.
-/
theorem body_eq {sql list tail : List Char}
    (hkeyword : startsWithCi sql "CREATE TABLE".toList = true)
    (hlist : parenthesizedList sql = some (list, tail)) (htail : trim tail = [])
    {opening closing : Nat}
    (hopening : findChar '(' (trim (sql.drop "CREATE TABLE".length)) = some opening)
    (hclosing : rfindChar ')' (trim (sql.drop "CREATE TABLE".length)) = some closing) :
    ((trim (sql.drop "CREATE TABLE".length)).take closing).drop (opening + 1) = list := by
  have hfree := not_mem_take_of_keyword hkeyword
  have hsql := (List.take_append_drop "CREATE TABLE".length sql).symm
  generalize sql.take "CREATE TABLE".length = keyword at hfree hsql
  generalize sql.drop "CREATE TABLE".length = rest at hsql hopening hclosing ⊢
  subst hsql
  obtain ⟨front, back, hrest, hfront, hback⟩ := exists_eq_append_trimBy isWhitespace rest
  rw [← trim] at hrest
  generalize trim rest = text at hrest hopening hclosing ⊢
  subst hrest
  obtain ⟨before, behind, rfl, hbefore⟩ :=
    List.eq_append_cons_of_mem (List.mem_of_getElem? (findChar_spec hopening))
  obtain rfl := Option.some.inj ((findChar_append hbefore behind).symm.trans hopening)
  -- the first parenthesis of the statement is that of the text behind the keyword
  have hnone : '(' ∉ keyword ++ front ++ before := by
    rw [List.mem_append, List.mem_append, not_or, not_or]
    exact ⟨⟨hfree, fun hmem ↦ (by cases hfront _ hmem)⟩, hbefore⟩
  have hcut : keyword ++ (front ++ (before ++ '(' :: behind) ++ back) =
      keyword ++ front ++ before ++ '(' :: (behind ++ back) := by simp
  rw [hcut, parenthesizedList_append hnone] at hlist
  -- and its list is closed by the last one, as there is only whitespace behind
  obtain ⟨tail', rfl, htail'⟩ : ∃ tail', behind = list ++ ')' :: tail' ∧ ')' ∉ tail' := by
    rcases List.append_eq_append_iff.mp (closeParen_eq_some hlist) with
      ⟨more, rfl, hmore⟩ | ⟨more, rfl, hmore⟩
    · have hclose : ')' ∈ back := by
        rw [hmore]
        simp
      cases hback _ hclose
    · rcases more with _ | ⟨ch, tail'⟩
      · have hclose : ')' ∈ back := by
          rw [← List.nil_append back, ← hmore]
          exact List.mem_cons_self
        cases hback _ hclose
      · obtain ⟨rfl, rfl⟩ := List.cons.inj hmore
        refine ⟨tail', rfl, fun hmem ↦ ?_⟩
        cases isWhitespace_of_trim_eq_nil htail (List.mem_append_left back hmem)
  have hshift : before ++ '(' :: (list ++ ')' :: tail') =
      (before ++ '(' :: list) ++ ')' :: tail' := by simp
  rw [hshift] at hclosing ⊢
  obtain rfl := Option.some.inj ((rfindChar_append htail' _).symm.trans hclosing)
  rw [List.take_left, ← List.drop_drop, List.drop_left]
  rfl

/-! ## Texts that are executed -/

/-- The first two words are a name and a type. -/
def Readable (definition : List Char) : Prop :=
  ∃ name ty more, splitWhitespace definition = name :: ty :: more ∧
    ∃ columnType, ColumnType.parse ty = .ok columnType

/-- A name, and parentheses in order around columns that can be read. -/
def ReadsColumns (rest : List Char) : Prop :=
  ∃ opening closing, findChar '(' rest = some opening ∧ rfindChar ')' rest = some closing ∧
    opening < closing ∧ identifier (rest.take opening) ≠ "" ∧
    ∀ definition ∈ splitTopLevel ((rest.take closing).drop (opening + 1)) ',', Readable definition

/-- The columns that are read from such a text. -/
def ReadsColumnsAs (rest : List Char) (columns : List Column) : Prop :=
  ∃ opening closing, findChar '(' rest = some opening ∧ rfindChar ')' rest = some closing ∧
    opening < closing ∧ identifier (rest.take opening) ≠ "" ∧
    (splitTopLevel ((rest.take closing).drop (opening + 1)) ',').mapM parseColumn = .ok columns

/-- An `ON` with parentheses in order behind it. -/
def ReadsTarget (rest : List Char) : Prop :=
  ∃ onPos opening closing, findCi rest " ON ".toList = some onPos ∧
    findChar '(' (trim (rest.drop (onPos + " ON ".length))) = some opening ∧
    rfindChar ')' (trim (rest.drop (onPos + " ON ".length))) = some closing ∧ opening < closing

/-- No opening parenthesis, or parentheses in order. -/
def ReadsNames (target : List Char) : Prop :=
  ∀ opening, findChar '(' target = some opening →
    ∃ closing, rfindChar ')' target = some closing ∧ opening < closing

/-- A `VALUES` with names before it and values that can be read behind it. -/
def ReadsValues (rest : List Char) : Prop :=
  ∃ valuesPos body, findCi rest "VALUES".toList = some valuesPos ∧
    ReadsNames (trim (rest.take valuesPos)) ∧
    parenthesizedBody (trim (rest.drop (valuesPos + "VALUES".length))) "INSERT VALUES" = .ok body ∧
    ∀ text ∈ splitTopLevel body ',', ∃ value, parseValue text = .ok value

/-- **The texts that are taken for a `CREATE TABLE`.** -/
structure AcceptsTable (sql : List Char) : Prop where
  keyword : startsWithCi sql "CREATE TABLE".toList = true
  plain : isAdvancedCreateTable sql = false
  columns : ReadsColumns (trim (sql.drop "CREATE TABLE".length))

/-- **The texts that are taken for a `CREATE INDEX`.** -/
structure AcceptsIndex (sql : List Char) : Prop where
  keyword : startsWithAny sql ["CREATE FULLTEXT INDEX", "CREATE INDEX"] = true
  plain : isAdvancedCreateIndex sql = .ok false
  target : ReadsTarget (createIndexRest sql)

/-- **The texts that are taken for an `INSERT`.** -/
structure AcceptsInsert (sql : List Char) : Prop where
  keyword : startsWithCi sql "INSERT INTO".toList = true
  plain : isAdvancedInsert sql = false
  values : ReadsValues (trim (sql.drop "INSERT INTO".length))

/-- A list is read if all of its members are. -/
theorem exists_mapM_iff {α β : Type} {f : α → Result β} {l : List α} :
    (∃ read, l.mapM f = .ok read) ↔ ∀ a ∈ l, ∃ b, f a = .ok b := by
  induction l with
  | nil => simp [pure, Except.pure]
  | cons a l ih =>
    rw [List.forall_mem_cons, ← ih, List.mapM_cons]
    constructor
    · rintro ⟨read, hread⟩
      obtain ⟨b, hb, hread⟩ := bind_eq_ok_iff.mp hread
      obtain ⟨rest, hrest, -⟩ := bind_eq_ok_iff.mp hread
      exact ⟨⟨b, hb⟩, rest, hrest⟩
    · rintro ⟨⟨b, hb⟩, rest, hrest⟩
      exact ⟨b :: rest, bind_eq_ok_iff.mpr ⟨b, hb, bind_eq_ok_iff.mpr ⟨rest, hrest, rfl⟩⟩⟩

theorem slice_eq_ok_iff {l text : List Char} {start stop : Nat} :
    slice l start stop = .ok text ↔ start ≤ stop ∧ text = (l.take stop).drop start := by
  rw [slice]
  split
  · rename_i hle
    exact ⟨fun h ↦ ⟨hle, (Except.ok.inj h).symm⟩, fun h ↦ congrArg Except.ok h.2.symm⟩
  · rename_i hle
    exact ⟨fun h ↦ (by cases h), fun h ↦ absurd h.1 hle⟩

/-- Parentheses in order can be sliced at. -/
theorem slice_of_lt {l : List Char} {opening closing : Nat} (h : opening < closing) :
    slice l (opening + 1) closing = .ok ((l.take closing).drop (opening + 1)) := if_pos h

/-- What is read as a column. -/
theorem exists_parseColumn_iff {definition : List Char} :
    (∃ column, parseColumn definition = .ok column) ↔ Readable definition := by
  rw [parseColumn, Readable]
  rcases splitWhitespace definition with _ | ⟨name, _ | ⟨ty, more⟩⟩
  · refine ⟨fun ⟨_, h⟩ ↦ (by cases h), ?_⟩
    rintro ⟨name, ty, more, h, -⟩
    cases h
  · refine ⟨fun ⟨_, h⟩ ↦ (by cases h), ?_⟩
    rintro ⟨name, ty, more, h, -⟩
    cases h
  · constructor
    · rintro ⟨column, h⟩
      obtain ⟨columnType, hty, -⟩ := bind_eq_ok_iff.mp h
      exact ⟨name, ty, more, rfl, columnType, hty⟩
    · rintro ⟨name, ty, more, ⟨rfl, rfl, rfl⟩, columnType, hty⟩
      exact ⟨_, bind_eq_ok_iff.mpr ⟨columnType, hty, rfl⟩⟩

/-- **What is read as a table.** -/
theorem parseCreateTable_eq_ok {sql : List Char} {statement : Statement}
    (h : parseCreateTable sql = .ok statement) :
    ∃ name columns, statement = .createTable name columns ∧
      ReadsColumnsAs (trim (sql.drop "CREATE TABLE".length)) columns := by
  rw [parseCreateTable] at h
  simp only [ReadsColumnsAs]
  generalize trim (sql.drop "CREATE TABLE".length) = rest at h ⊢
  dsimp only at h
  rcases hopening : findChar '(' rest with _ | opening
  · rw [hopening] at h
    cases h
  rcases hclosing : rfindChar ')' rest with _ | closing
  · rw [hopening, hclosing] at h
    cases h
  rw [hopening, hclosing] at h
  dsimp only at h
  split at h
  · cases h
  · rename_i hlt
    split at h
    · cases h
    · rename_i hname
      obtain ⟨body, hslice, h⟩ := bind_eq_ok_iff.mp h
      obtain ⟨-, rfl⟩ := slice_eq_ok_iff.mp hslice
      obtain ⟨columns, hcolumns, h⟩ := bind_eq_ok_iff.mp h
      obtain rfl := Except.ok.inj h
      exact ⟨_, columns, rfl, opening, closing, rfl, rfl, Nat.not_le.mp hlt, hname,
        monadLift_eq_ok_iff.mp hcolumns⟩

theorem ReadsColumnsAs.readsColumns {rest : List Char} {columns : List Column}
    (h : ReadsColumnsAs rest columns) : ReadsColumns rest := by
  obtain ⟨opening, closing, hopening, hclosing, hlt, hname, hcolumns⟩ := h
  exact ⟨opening, closing, hopening, hclosing, hlt, hname, fun definition hmem ↦
    exists_parseColumn_iff.mp (exists_mapM_iff.mp ⟨columns, hcolumns⟩ definition hmem)⟩

/-- **What is read as an index.** -/
theorem parseCreateIndex_eq_ok {sql : List Char} {statement : Statement}
    (h : parseCreateIndex sql = .ok statement) :
    (∃ name table column fulltext, statement = .createIndex name table column fulltext) ∧
      ReadsTarget (createIndexRest sql) := by
  rw [parseCreateIndex, ← createIndexRest] at h
  rw [ReadsTarget]
  generalize createIndexRest sql = rest at h ⊢
  dsimp only at h
  rcases hon : findCi rest " ON ".toList with _ | onPos
  · rw [hon] at h
    cases h
  rw [hon] at h
  dsimp only at h
  rcases hopening : findChar '(' (trim (rest.drop (onPos + " ON ".length))) with _ | opening
  · rw [hopening] at h
    cases h
  rcases hclosing : rfindChar ')' (trim (rest.drop (onPos + " ON ".length))) with _ | closing
  · rw [hopening, hclosing] at h
    cases h
  rw [hopening, hclosing] at h
  obtain ⟨column, hslice, h⟩ := bind_eq_ok_iff.mp h
  obtain ⟨hle, -⟩ := slice_eq_ok_iff.mp hslice
  obtain rfl := Except.ok.inj h
  exact ⟨⟨_, _, _, _, rfl⟩, onPos, opening, closing, rfl, hopening, hclosing, hle⟩

theorem parseInsertTarget_eq_ok {target : List Char} {names : String × Option (List String)}
    (h : parseInsertTarget target = .ok names) : ReadsNames target := by
  intro opening hopening
  rw [parseInsertTarget, hopening] at h
  dsimp only at h
  rcases hclosing : rfindChar ')' target with _ | closing
  · rw [hclosing] at h
    cases h
  rw [hclosing] at h
  obtain ⟨columns, hslice, -⟩ := bind_eq_ok_iff.mp h
  exact ⟨closing, rfl, (slice_eq_ok_iff.mp hslice).1⟩

/-- **What is read as an insertion.** -/
theorem parseInsert_eq_ok {sql : List Char} {statement : Statement}
    (h : parseInsert sql = .ok statement) :
    (∃ table columns values, statement = .insert table columns values) ∧
      ReadsValues (trim (sql.drop "INSERT INTO".length)) := by
  rw [parseInsert] at h
  rw [ReadsValues]
  generalize trim (sql.drop "INSERT INTO".length) = rest at h ⊢
  dsimp only at h
  rcases hvalues : findCi rest "VALUES".toList with _ | valuesPos
  · rw [hvalues] at h
    cases h
  rw [hvalues] at h
  obtain ⟨names, hnames, h⟩ := bind_eq_ok_iff.mp h
  obtain ⟨body, hbody, h⟩ := bind_eq_ok_iff.mp h
  obtain ⟨values, hread, h⟩ := bind_eq_ok_iff.mp h
  obtain rfl := Except.ok.inj h
  exact ⟨⟨_, _, values, rfl⟩, valuesPos, body, rfl, parseInsertTarget_eq_ok hnames,
    monadLift_eq_ok_iff.mp hbody, exists_mapM_iff.mp ⟨values, monadLift_eq_ok_iff.mp hread⟩⟩

theorem exists_parseCreateTable {sql : List Char}
    (h : ReadsColumns (trim (sql.drop "CREATE TABLE".length))) :
    ∃ statement, parseCreateTable sql = .ok statement := by
  obtain ⟨opening, closing, hopening, hclosing, hlt, hname, hcolumns⟩ := h
  obtain ⟨columns, hread⟩ := exists_mapM_iff.mpr fun definition hmem ↦
    exists_parseColumn_iff.mpr (hcolumns definition hmem)
  rw [parseCreateTable, hopening, hclosing]
  dsimp only
  rw [if_neg (Nat.not_le.mpr hlt), if_neg hname]
  exact ⟨_, bind_eq_ok_iff.mpr ⟨_, slice_of_lt hlt,
    bind_eq_ok_iff.mpr ⟨columns, monadLift_eq_ok_iff.mpr hread, rfl⟩⟩⟩

theorem exists_parseCreateIndex {sql : List Char} (h : ReadsTarget (createIndexRest sql)) :
    ∃ statement, parseCreateIndex sql = .ok statement := by
  obtain ⟨onPos, opening, closing, hon, hopening, hclosing, hlt⟩ := h
  rw [parseCreateIndex, ← createIndexRest, hon]
  dsimp only
  rw [hopening, hclosing]
  exact ⟨_, bind_eq_ok_iff.mpr ⟨_, slice_of_lt hlt, rfl⟩⟩

theorem exists_parseInsertTarget {target : List Char} (h : ReadsNames target) :
    ∃ names, parseInsertTarget target = .ok names := by
  rw [parseInsertTarget]
  rcases hopening : findChar '(' target with _ | opening
  · exact ⟨_, rfl⟩
  · obtain ⟨closing, hclosing, hlt⟩ := h opening hopening
    rw [hclosing]
    exact ⟨_, bind_eq_ok_iff.mpr ⟨_, slice_of_lt hlt, rfl⟩⟩

theorem exists_parseInsert {sql : List Char}
    (h : ReadsValues (trim (sql.drop "INSERT INTO".length))) :
    ∃ statement, parseInsert sql = .ok statement := by
  obtain ⟨valuesPos, body, hvalues, htarget, hbody, hread⟩ := h
  obtain ⟨names, hnames⟩ := exists_parseInsertTarget htarget
  obtain ⟨values, hvalue⟩ := exists_mapM_iff.mpr hread
  rw [parseInsert, hvalues]
  exact ⟨_, bind_eq_ok_iff.mpr ⟨names, hnames, bind_eq_ok_iff.mpr ⟨body,
    monadLift_eq_ok_iff.mpr hbody,
    bind_eq_ok_iff.mpr ⟨values, monadLift_eq_ok_iff.mpr hvalue, rfl⟩⟩⟩⟩

/-! ## Dispatch -/

/-- A `CREATE TABLE` is not looked for under other keywords. -/
theorem parseStatement_of_createTable {sql : List Char}
    (h : startsWithCi sql "CREATE TABLE".toList = true) (dialect : SqlDialect) :
    parseStatement sql dialect = (do
      if isAdvancedCreateTable sql then parseParsedOnly sql .createTable "CREATE TABLE"
      else parseCreateTable sql : Parse Statement) := by
  have hfalse := @Apart.startsWithCi_eq_false "CREATE TABLE"
    ["WITH", "VALUES", "INSERT OR ", "UPDATE OR ", "ROLLBACK TO", "SAVEPOINT", "RELEASE",
      "ALTER TABLE", "ANALYZE", "ATTACH", "DETACH", "BEGIN", "COMMIT", "END", "ROLLBACK"]
    (by decide) sql h
  obtain ⟨hbegin, hcommit, hrollback⟩ := @not_transaction_of sql
    (fun text htext ↦ hfalse text (by revert text; decide)) dialect
  simp only [List.forall_mem_cons] at hfalse
  rw [parseStatement]
  simp only [hfalse, hbegin, hcommit, hrollback, h]
  rfl

/-- What a text has to be to yield a statement. -/
def Accepts (sql : List Char) : Statement → Prop
  | .createTable .. => AcceptsTable sql
  | .createIndex .. => AcceptsIndex sql
  | .insert .. => AcceptsInsert sql
  | _ => True

theorem accepts_of_parseWithTarget {sql : List Char} {required : String}
    {kind : ParsedOnlyStatementKind} {pre : String} {statement : Statement}
    (h : (liftM (parseWithTarget required sql kind pre) : Parse Statement) = .ok statement) :
    Accepts sql statement := by
  rw [monadLift_eq_ok_iff, parseWithTarget] at h
  split at h
  · cases h
  · obtain rfl := Except.ok.inj h
    trivial

/-- A statement that is only parsed if a condition fails. -/
theorem accepts_of_parsedOnly {sql : List Char} {error : Bool} {message : String}
    {kind : ParsedOnlyStatementKind} {statement : Statement}
    (h : (liftM (if error then parseError message else .ok (.parsedOnly kind (String.ofList sql)) :
      Result Statement) : Parse Statement) = .ok statement) : Accepts sql statement := by
  rw [monadLift_eq_ok_iff] at h
  split at h
  · cases h
  · obtain rfl := Except.ok.inj h
    trivial

theorem accepts_of_parseSelect {sql : List Char} {statement : Statement}
    (h : parseSelect sql = .ok statement) : Accepts sql statement := by
  rw [parseSelect] at h
  dsimp only at h
  split at h
  · cases h
  · obtain ⟨projection, -, h⟩ := bind_eq_ok_iff.mp h
    obtain ⟨filter, -, h⟩ := bind_eq_ok_iff.mp h
    obtain ⟨order, -, h⟩ := bind_eq_ok_iff.mp h
    obtain ⟨limit, -, h⟩ := bind_eq_ok_iff.mp h
    obtain rfl := Except.ok.inj h
    trivial

theorem accepts_of_parseUpdate {sql : List Char} {statement : Statement}
    (h : (liftM (parseUpdate sql) : Parse Statement) = .ok statement) : Accepts sql statement := by
  rw [monadLift_eq_ok_iff, parseUpdate] at h
  dsimp only at h
  split at h
  · cases h
  · obtain ⟨filter, -, h⟩ := bind_eq_ok_iff.mp h
    obtain ⟨assignments, -, h⟩ := bind_eq_ok_iff.mp h
    obtain rfl := Except.ok.inj h
    trivial

theorem accepts_of_parseDelete {sql : List Char} {statement : Statement}
    (h : (liftM (parseDelete sql) : Parse Statement) = .ok statement) : Accepts sql statement := by
  rw [monadLift_eq_ok_iff, parseDelete] at h
  split at h
  · cases h
  · obtain ⟨filter, -, h⟩ := bind_eq_ok_iff.mp h
    obtain rfl := Except.ok.inj h
    trivial

theorem accepts_of_ite {sql : List Char} {statement : Statement} {c : Prop} [Decidable c]
    {x y : Parse Statement} (hx : c → x = .ok statement → Accepts sql statement)
    (hy : ¬ c → y = .ok statement → Accepts sql statement) :
    (if c then x else y) = .ok statement → Accepts sql statement := by
  split
  · exact hx ‹_›
  · exact hy ‹_›

/-- A statement that is only parsed if it is an advanced one. -/
theorem accepts_of_advanced {sql : List Char} {statement : Statement} {advanced : Parse Bool}
    {x y : Parse Statement} (hx : x = .ok statement → Accepts sql statement)
    (hy : advanced = .ok false → y = .ok statement → Accepts sql statement)
    (h : (do if ← advanced then x else y) = .ok statement) : Accepts sql statement := by
  obtain ⟨answer, hanswer, h⟩ := bind_eq_ok_iff.mp h
  rcases answer with _ | _
  · exact hy hanswer h
  · exact hx h

/-- **No other text yields one of the three statements.** -/
theorem accepts_of_parseStatement {sql : List Char} {dialect : SqlDialect} {statement : Statement} :
    parseStatement sql dialect = .ok statement → Accepts sql statement := by
  rw [parseStatement]
  simp only [parseParsedOnly, parseAttachOrDetach, parseDrop, parseAdvancedInsertKind]
  repeat' with_reducible refine accepts_of_ite (fun h ↦ ?_) (fun _ ↦ ?_)
  all_goals try with_reducible exact accepts_of_parseWithTarget
  · rintro ⟨⟩
    trivial
  · rintro ⟨⟩
    trivial
  · rintro ⟨⟩
    trivial
  · exact accepts_of_parsedOnly
  · rename_i hadvanced
    intro hok
    obtain ⟨name, columns, rfl, hcolumns⟩ := parseCreateTable_eq_ok hok
    exact ⟨‹_›, Bool.not_eq_true _ ▸ hadvanced, hcolumns.readsColumns⟩
  · exact accepts_of_parsedOnly
  · exact accepts_of_parsedOnly
  · exact accepts_of_parsedOnly
  · refine accepts_of_advanced accepts_of_parseWithTarget fun hadvanced hok ↦ ?_
    obtain ⟨⟨name, table, column, fulltext, rfl⟩, htarget⟩ := parseCreateIndex_eq_ok hok
    exact ⟨h, hadvanced, htarget⟩
  · rename_i hadvanced
    intro hok
    obtain ⟨⟨table, columns, values, rfl⟩, hvalues⟩ := parseInsert_eq_ok hok
    exact ⟨‹_›, Bool.not_eq_true _ ▸ hadvanced, hvalues⟩
  · exact accepts_of_advanced accepts_of_parseWithTarget fun _ ↦ accepts_of_parseSelect
  · exact accepts_of_parseUpdate
  · exact accepts_of_parseDelete
  · rintro ⟨⟩

/-- **A text that is accepted is parsed as it is.** -/
theorem parseSqlWithDialect_of_keyword {sql : String} {keyword : String} (hne : keyword.toList ≠ [])
    (hkeyword : Apart keyword ["EXPLAIN"])
    (h : startsWithCi (stripStatement sql.toList) keyword.toList = true) (dialect : SqlDialect) :
    parseSqlWithDialect sql dialect = parseStatement (stripStatement sql.toList) dialect := by
  have hnonempty : (stripStatement sql.toList).isEmpty = false := by
    rw [← Bool.not_eq_true, List.isEmpty_iff]
    intro hnil
    rw [hnil, ByteParser.startsWithCi_iff] at h
    exact hne (List.map_eq_nil_iff.mp (List.prefix_nil.mp h))
  have hexplain := hkeyword.startsWithCi_eq_false h "EXPLAIN" List.mem_cons_self
  rw [parseSqlWithDialect, parseSqlFuel, hnonempty, hexplain]
  rfl

/-- **No other text yields one of the three statements.** -/
theorem accepts_of_parseSqlWithDialect {sql : String} {dialect : SqlDialect} {statement : Statement}
    (h : parseSqlWithDialect sql dialect = .ok statement) :
    Accepts (stripStatement sql.toList) statement := by
  rw [parseSqlWithDialect, parseSqlFuel] at h
  split at h
  · cases h
  · split at h
    · split at h
      · cases h
      · rcases hexplained : parseSqlFuel sql.length (explained (stripStatement sql.toList)) dialect
          with fault | inner
        · rw [hexplained] at h
          cases h
        · rw [hexplained] at h
          obtain rfl := Except.ok.inj h
          trivial
    · exact accepts_of_parseStatement h

/-- **All the texts that are accepted yield their statement.** -/
theorem AcceptsTable.parse {sql : String} (h : AcceptsTable (stripStatement sql.toList))
    (dialect : SqlDialect) :
    ∃ name columns, parseSqlWithDialect sql dialect = .ok (.createTable name columns) ∧
      ReadsColumnsAs (trim ((stripStatement sql.toList).drop "CREATE TABLE".length)) columns := by
  obtain ⟨statement, hok⟩ := exists_parseCreateTable h.columns
  obtain ⟨name, columns, rfl, hcolumns⟩ := parseCreateTable_eq_ok hok
  refine ⟨name, columns, ?_, hcolumns⟩
  rw [parseSqlWithDialect_of_keyword (by decide) (by decide) h.keyword,
    parseStatement_of_createTable h.keyword, if_neg (Bool.not_eq_true _ ▸ h.plain)]
  exact hok

@[inherit_doc AcceptsTable.parse]
theorem AcceptsIndex.parse {sql : String} (h : AcceptsIndex (stripStatement sql.toList))
    (dialect : SqlDialect) : ∃ name table column fulltext,
      parseSqlWithDialect sql dialect = .ok (.createIndex name table column fulltext) := by
  obtain ⟨statement, hok⟩ := exists_parseCreateIndex h.target
  obtain ⟨⟨name, table, column, fulltext, rfl⟩, -⟩ := parseCreateIndex_eq_ok hok
  have hcreate := ByteParser.startsWithCi_of_any (by decide : ∀ text ∈
    ["CREATE FULLTEXT INDEX", "CREATE INDEX"], "CREATE ".toList <+: text.toList) h.keyword
  refine ⟨name, table, column, fulltext, ?_⟩
  rw [parseSqlWithDialect_of_keyword (by decide) (by decide) hcreate,
    parseStatement_of_createIndex h.keyword (phrases_of_not_advanced h.plain)]
  exact bind_eq_ok_iff.mpr ⟨false, h.plain, (if_neg Bool.false_ne_true).trans hok⟩

@[inherit_doc AcceptsTable.parse]
theorem AcceptsInsert.parse {sql : String} (h : AcceptsInsert (stripStatement sql.toList))
    (dialect : SqlDialect) : ∃ table columns values,
      parseSqlWithDialect sql dialect = .ok (.insert table columns values) := by
  obtain ⟨statement, hok⟩ := exists_parseInsert h.values
  obtain ⟨⟨table, columns, values, rfl⟩, -⟩ := parseInsert_eq_ok hok
  refine ⟨table, columns, values, ?_⟩
  rw [parseSqlWithDialect_of_keyword (by decide) (by decide) h.keyword,
    parseStatement_of_insert h.keyword, if_neg (Bool.not_eq_true _ ▸ h.plain)]
  exact hok

/-- The values of an `INSERT` are literals. -/
theorem isFinite_of_parseSqlWithDialect {sql : String} {dialect : SqlDialect} {table : String}
    {columns : Option (List String)} {values : List Value}
    (h : parseSqlWithDialect sql dialect = .ok (.insert table columns values)) :
    ∀ value ∈ values, value.isFinite = true := by
  have haccepts : AcceptsInsert (stripStatement sql.toList) := accepts_of_parseSqlWithDialect h
  rw [parseSqlWithDialect_of_keyword (by decide) (by decide) haccepts.keyword,
    parseStatement_of_insert haccepts.keyword, if_neg (Bool.not_eq_true _ ▸ haccepts.plain),
    parseInsert] at h
  dsimp only at h
  split at h
  · cases h
  · obtain ⟨⟨table', columns'⟩, -, h⟩ := bind_eq_ok_iff.mp h
    obtain ⟨body, -, h⟩ := bind_eq_ok_iff.mp h
    obtain ⟨values', hvalues, h⟩ := bind_eq_ok_iff.mp h
    obtain ⟨-, -, rfl⟩ := Statement.insert.inj (Except.ok.inj h)
    exact forall_of_mapM (fun _ _ ↦ parseValue_isFinite) (monadLift_eq_ok_iff.mp hvalues)

/-! ## Clauses that are dropped -/

/-! ### Primary keys -/

/-- No name of a type begins with this letter. -/
theorem columnType_ne_key {c : Char} (hc : c.toLower = 'k') (hword : isWhitespace c = false)
    (more : List Char) (columnType : ColumnType) :
    ColumnType.parse (c :: more) ≠ .ok columnType := by
  obtain ⟨more', htrim⟩ : ∃ more', trim (c :: more) = c :: more' := by
    have hne : trim (c :: more) ≠ [] := fun hnil ↦ by
      rw [isWhitespace_of_trim_eq_nil hnil List.mem_cons_self] at hword
      cases hword
    have htrimmed := List.rdropWhile_prefix isWhitespace (c :: more)
    rw [← dropWhile_cons_of_not hword more] at htrimmed
    change trim (c :: more) <+: _ at htrimmed
    rw [dropWhile_cons_of_not hword more] at htrimmed
    rcases htrim : trim (c :: more) with _ | ⟨d, more'⟩
    · exact absurd htrim hne
    · rw [htrim, List.cons_prefix_cons] at htrimmed
      exact ⟨more', by rw [htrimmed.1]⟩
  have hname (text : String) (htext : text.toList.head? ≠ some 'k') :
      String.ofList (lower (trim (c :: more))) ≠ text := by
    rintro rfl
    rw [htrim, lower_cons, hc, String.toList_ofList] at htext
    exact htext rfl
  have hnames (texts : List String) (htexts : ∀ text ∈ texts, text.toList.head? ≠ some 'k') :
      texts.contains (String.ofList (lower (trim (c :: more)))) = false := by
    rw [← Bool.not_eq_true, List.contains_iff_mem]
    exact fun hmem ↦ hname _ (htexts _ hmem) rfl
  intro h
  rw [ColumnType.parse] at h
  simp only [hnames ["int", "integer"] (by decide), hnames ["float", "real", "double"] (by decide),
    hnames ["bool", "boolean"] (by decide), hnames ["text", "string"] (by decide),
    hnames ["point", "geo", "geography", "coordinate"] (by decide), hname "vector" (by decide),
    Bool.false_eq_true, if_false] at h
  cases h

/-- **In a name and a type, `primary key` is not found.** -/
theorem not_contains_primaryKey {definition name ty : List Char}
    (h : splitWhitespace definition = [name, ty]) {columnType : ColumnType}
    (hty : ColumnType.parse ty = .ok columnType) :
    contains (lower definition) "primary key".toList = false := by
  rw [← Bool.not_eq_true, contains_iff]
  rintro ⟨a, b, heq⟩
  have hcut : lower definition = (a ++ "primary".toList) ++ ' ' :: 'k' :: ("ey".toList ++ b) := by
    rw [← heq]
    simp
  obtain ⟨front, back, rfl, hfront, hback⟩ := List.map_eq_append_iff.mp hcut
  obtain ⟨blank, back, rfl, hblank, hback⟩ := List.map_eq_cons_iff.mp hback
  obtain ⟨k, back, rfl, hk, -⟩ := List.map_eq_cons_iff.mp hback
  obtain rfl := (toLower_eq_iff (by decide)).mp hblank
  have hword : isWhitespace k = false := by
    rw [← isWhitespace_toLower, hk]
    decide
  -- the words before the blank and those behind it are the two words
  obtain ⟨more, ws, hbehind⟩ := exists_splitWhitespaceAux (List.cons_ne_nil k []) back
  have hsplit : splitWhitespace (k :: back) = (k :: more) :: ws := by
    rw [splitWhitespace, splitWhitespaceAux, hword, if_neg Bool.false_ne_true, hbehind]
    rfl
  have hbefore : splitWhitespace front ≠ [] := by
    refine splitWhitespaceAux_ne_nil (.inr ?_)
    have hmem : 'y' ∈ lower front := by
      show 'y' ∈ front.map Char.toLower
      rw [hfront]
      simp
    obtain ⟨y, hy, hlower⟩ := List.mem_map.mp hmem
    refine ⟨y, hy, ?_⟩
    rw [← isWhitespace_toLower, hlower]
    decide
  rw [splitWhitespace_append_blank, hsplit] at h
  rcases hfirst : splitWhitespace front with _ | ⟨w, us⟩
  · exact hbefore hfirst
  · rw [hfirst, List.cons_append] at h
    obtain ⟨-, hrest⟩ := List.cons.inj h
    rcases us with _ | ⟨u, us⟩
    · obtain ⟨rfl, -⟩ := List.cons.inj hrest
      exact columnType_ne_key hk hword more columnType hty
    · have hlength := congrArg List.length hrest
      simp at hlength

/-- **What an exact definition stands for** is what is read, unless its `PRIMARY KEY` is not found.
-/
theorem exactColumn_eq_iff {definition : List Char} {column : Column}
    (h : parseColumn definition = .ok column) :
    exactColumn definition = some column ↔ exactDefinition definition = true ∧
      ((splitWhitespace definition).length = 4 →
        contains (lower definition) "primary key".toList = true) := by
  rw [parseColumn] at h
  rw [exactColumn, exactDefinition]
  rcases hwords : splitWhitespace definition with _ | ⟨name, _ | ⟨ty, more⟩⟩
  · rw [hwords] at h
    cases h
  · rw [hwords] at h
    cases h
  · rw [hwords] at h
    obtain ⟨columnType, hty, h⟩ := bind_eq_ok_iff.mp h
    obtain rfl := Except.ok.inj h
    have htwo := fun (hmore : more = []) ↦
      not_contains_primaryKey (hwords.trans (congrArg (name :: ty :: ·) hmore)) hty
    generalize contains (lower definition) "primary key".toList = found at htwo ⊢
    rcases more with _ | ⟨primary, _ | ⟨key, _ | ⟨word, more⟩⟩⟩
    · simp [hty, Except.toOption, htwo rfl]
    · simp
    · rcases hkey : isPrimaryKey primary key with _ | _
      · simp [hkey]
      · simp [hkey, hty, Except.toOption, eq_comm]
    · simp

/-- **The texts with a clause that is dropped.** -/
inductive DropsClause (sql : List Char) : Prop
  /-- Something follows the columns of a `CREATE TABLE`, without a phrase that is looked for. -/
  | tableTail (h : AcceptsTable sql) (htail : listEnds sql = false)
  /-- A definition of a `CREATE TABLE` has more words, without a phrase that is looked for. -/
  | definition (h : AcceptsTable sql) {list tail definition : List Char}
      (hlist : parenthesizedList sql = some (list, tail))
      (hmem : definition ∈ splitTopLevel list ',') (hextra : exactDefinition definition = false)
  /-- The `PRIMARY KEY` of a definition is written otherwise than with one blank. -/
  | primaryKey (h : AcceptsTable sql) {list tail definition : List Char}
      (hlist : parenthesizedList sql = some (list, tail))
      (hmem : definition ∈ splitTopLevel list ',') (hexact : exactDefinition definition = true)
      (hwords : (splitWhitespace definition).length = 4)
      (hmissed : contains (lower definition) "primary key".toList = false)
  /-- Something follows the column of a `CREATE INDEX`, without a phrase that is looked for. -/
  | indexTail (h : AcceptsIndex sql) (htail : listEnds sql = false)
  /-- Something stands between the columns of an `INSERT` and its `VALUES`. -/
  | insertTail (h : AcceptsInsert sql) {valuesPos : Nat}
      (hvalues : findCi sql "VALUES".toList = some valuesPos)
      (hcolumns : '(' ∈ sql.take valuesPos) (htail : listEnds (sql.take valuesPos) = false)

/-- The members of a list that is read are what a second reader makes of them. -/
theorem map_eq_map_some_iff {α β : Type} {f : α → Result β} {g : α → Option β} {l : List α}
    {read : List β} (h : l.mapM f = .ok read) :
    l.map g = read.map some ↔ ∀ a ∈ l, ∀ b, f a = .ok b → g a = some b := by
  induction l generalizing read with
  | nil =>
    obtain rfl := Except.ok.inj h
    simp
  | cons a l ih =>
    rw [List.mapM_cons] at h
    obtain ⟨b, hb, h⟩ := bind_eq_ok_iff.mp h
    obtain ⟨rest, hrest, h⟩ := bind_eq_ok_iff.mp h
    obtain rfl := Except.ok.inj h
    rw [List.map_cons, List.map_cons, List.cons.injEq, ih hrest, List.forall_mem_cons]
    refine and_congr_left fun _ ↦ ⟨fun heq b' hb' ↦ ?_, fun hall ↦ hall b hb⟩
    obtain rfl := Except.ok.inj (hb.symm.trans hb')
    exact heq

/-- What is left over when not all of a table's text is executed. -/
theorem tableKept_eq_false_iff {sql : List Char} {columns : List Column}
    (hkeyword : startsWithCi sql "CREATE TABLE".toList = true)
    (hcolumns : ReadsColumnsAs (trim (sql.drop "CREATE TABLE".length)) columns) :
    tableKept sql columns = false ↔
      listEnds sql = false ∨ ∃ list tail definition, parenthesizedList sql = some (list, tail) ∧
        definition ∈ splitTopLevel list ',' ∧
          (exactDefinition definition = false ∨ exactDefinition definition = true ∧
            (splitWhitespace definition).length = 4 ∧
              contains (lower definition) "primary key".toList = false) := by
  rw [tableKept, listEnds]
  rcases hlist : parenthesizedList sql with _ | ⟨list, tail⟩
  · simp
  · rcases htail : (trim tail).isEmpty with _ | _
    · simp [htail]
    · obtain ⟨opening, closing, hopening, hclosing, -, -, hread⟩ := hcolumns
      rw [body_eq hkeyword hlist (List.isEmpty_iff.mp htail) hopening hclosing] at hread
      have hmap := @map_eq_map_some_iff _ _ _ exactColumn _ _ hread
      simp only [Option.any_some, htail, Bool.true_and, decide_eq_false_iff_not, hmap,
        Bool.true_eq_false, false_or, Option.some.injEq, Prod.mk.injEq]
      constructor
      · intro hne
        push Not at hne
        obtain ⟨definition, hmem, column, hcolumn, hne⟩ := hne
        refine ⟨list, tail, definition, ⟨rfl, rfl⟩, hmem, ?_⟩
        rw [Ne, exactColumn_eq_iff hcolumn] at hne
        rcases hexact : exactDefinition definition with _ | _
        · exact .inl rfl
        · refine .inr ⟨rfl, ?_⟩
          by_contra hfound
          refine hne ⟨hexact, fun hwords ↦ ?_⟩
          by_contra hmissed
          exact hfound ⟨hwords, Bool.not_eq_true _ ▸ hmissed⟩
      · rintro ⟨_, _, definition, ⟨rfl, rfl⟩, hmem, hlost⟩ hall
        obtain ⟨column, hcolumn⟩ := exists_mapM_iff.mp ⟨columns, hread⟩ definition hmem
        obtain ⟨hexact, hfound⟩ := (exactColumn_eq_iff hcolumn).mp (hall definition hmem _ hcolumn)
        rcases hlost with hextra | ⟨-, hwords, hmissed⟩
        · rw [hexact] at hextra
          cases hextra
        · rw [hfound hwords] at hmissed
          cases hmissed

theorem insertKept_eq_false_iff {sql : List Char} : insertKept sql = false ↔
    ∃ valuesPos, findCi sql "VALUES".toList = some valuesPos ∧ '(' ∈ sql.take valuesPos ∧
      listEnds (sql.take valuesPos) = false := by
  rw [insertKept]
  rcases findCi sql "VALUES".toList with _ | valuesPos
  · simp
  · simp

/-- **When no clause is dropped.** -/
theorem clausesKept_iff (sql : String) (dialect : SqlDialect) :
    ClausesKept sql dialect ↔ ¬ DropsClause (stripStatement sql.toList) := by
  constructor
  · intro hkept hdrops
    rcases hdrops with ⟨h, htail⟩ | ⟨h, hlist, hmem, hextra⟩ |
      ⟨h, hlist, hmem, hexact, hwords, hmissed⟩ | ⟨h, htail⟩ | ⟨h, hvalues, hcolumns, htail⟩
    · obtain ⟨name, columns, hok, hcolumns⟩ := h.parse dialect
      have hlost := (tableKept_eq_false_iff h.keyword hcolumns).mpr (.inl htail)
      exact absurd (hkept _ hok) (Bool.not_eq_true _ ▸ hlost)
    · obtain ⟨name, columns, hok, hcolumns⟩ := h.parse dialect
      have hlost := (tableKept_eq_false_iff h.keyword hcolumns).mpr
        (.inr ⟨_, _, _, hlist, hmem, .inl hextra⟩)
      exact absurd (hkept _ hok) (Bool.not_eq_true _ ▸ hlost)
    · obtain ⟨name, columns, hok, hcolumns⟩ := h.parse dialect
      have hlost := (tableKept_eq_false_iff h.keyword hcolumns).mpr
        (.inr ⟨_, _, _, hlist, hmem, .inr ⟨hexact, hwords, hmissed⟩⟩)
      exact absurd (hkept _ hok) (Bool.not_eq_true _ ▸ hlost)
    · obtain ⟨name, table, column, fulltext, hok⟩ := h.parse dialect
      exact absurd (hkept _ hok) (Bool.not_eq_true _ ▸ htail)
    · obtain ⟨table, columns, values, hok⟩ := h.parse dialect
      have hlost := insertKept_eq_false_iff.mpr ⟨_, hvalues, hcolumns, htail⟩
      exact absurd (hkept _ hok) (Bool.not_eq_true _ ▸ hlost)
  · intro hdrops statement h
    have haccepts := accepts_of_parseSqlWithDialect h
    by_contra hlost
    rw [Bool.not_eq_true] at hlost
    cases statement with
    | createTable name columns =>
      have htable : AcceptsTable (stripStatement sql.toList) := haccepts
      obtain ⟨name', columns', hok, hcolumns⟩ := htable.parse dialect
      obtain ⟨rfl, rfl⟩ := Statement.createTable.inj (Except.ok.inj (h.symm.trans hok))
      rcases (tableKept_eq_false_iff htable.keyword hcolumns).mp hlost with
        htail | ⟨list, tail, definition, hlist, hmem, hextra | ⟨hexact, hwords, hmissed⟩⟩
      · exact hdrops (.tableTail htable htail)
      · exact hdrops (.definition htable hlist hmem hextra)
      · exact hdrops (.primaryKey htable hlist hmem hexact hwords hmissed)
    | createIndex name table column fulltext => exact hdrops (.indexTail haccepts hlost)
    | insert table columns values =>
      obtain ⟨valuesPos, hvalues, hcolumns, htail⟩ := insertKept_eq_false_iff.mp hlost
      exact hdrops (.insertTail haccepts hvalues hcolumns htail)
    | _ => cases hlost

/-- **A clause behind the column of an index** is dropped. -/
theorem not_clausesKept_tablespace :
    ¬ ∀ (sql : String) (dialect : SqlDialect), ClausesKept sql dialect := by
  intro h
  have hkept := h "CREATE INDEX i ON t(c) TABLESPACE x" .fsql (.createIndex "i" "t" "c" false)
    (by decide +kernel)
  revert hkept
  decide +kernel

example : parseSqlWithDialect "CREATE TABLE t (a INTEGER) WITHOUT OIDS" .fsql =
    .ok (.createTable "t" [⟨"a", .integer, false⟩]) := by decide +kernel

example : parseSqlWithDialect "CREATE TABLE t (a INTEGER UNSIGNED)" .fsql =
    .ok (.createTable "t" [⟨"a", .integer, false⟩]) := by decide +kernel

-- with two blanks, the definition is exact, and the primary key is dropped
example : parseSqlWithDialect "CREATE TABLE t (a INTEGER PRIMARY  KEY)" .fsql =
    .ok (.createTable "t" [⟨"a", .integer, false⟩]) := by decide +kernel

example : parseSqlWithDialect "INSERT INTO t (a) OVERRIDING SYSTEM VALUE VALUES (1)" .fsql =
    .ok (.insert "t" (some ["a"]) [.integer 1]) := by decide +kernel

end Fsql
