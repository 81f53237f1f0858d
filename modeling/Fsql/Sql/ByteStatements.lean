import Fsql.Sql.ByteParser

/-!
# Statements on bytes

The statements of `sql/parser.rs` with the slices as the source takes them, and the theorem that the
parser on bytes is the parser on characters (`parseSqlWithDialect_eq`): every slice of every text
begins and ends between characters and inside of the text, so that only the order of its two ends
can be wrong.
-/

set_option autoImplicit false

namespace Fsql

namespace ByteParser

open Number Text
open String (utf8Len)

/-! ## Executable statements -/

/-- `parse_create_table`. -/
def parseCreateTable (sql : List Char) : Parse Statement := do
  let rest := trim (← sliceFrom sql (len "CREATE TABLE"))
  match findCharByte '(' rest with
  | none => parseError "CREATE TABLE requires a column list"
  | some opening =>
    match rfindCharByte ')' rest with
    | none => parseError "CREATE TABLE requires a closing parenthesis"
    | some closing =>
      if closing ≤ opening then parseError "invalid CREATE TABLE column list"
      else
        let name := identifier (← sliceTo rest opening)
        if name = "" then parseError "CREATE TABLE requires a table name"
        else
          let definitions ← splitTopLevel (← slice rest (opening + 1) closing) ','
          let columns ← (definitions.mapM parseColumn : Result (List Column))
          return .createTable name columns

/-- `parse_create_index`. -/
def parseCreateIndex (sql : List Char) : Parse Statement := do
  let fulltext := startsWithCi sql "CREATE FULLTEXT INDEX".toList
  let rest :=
    trim (← sliceFrom sql (len (if fulltext then "CREATE FULLTEXT INDEX" else "CREATE INDEX")))
  match findCi rest " ON ".toList with
  | none => parseError "CREATE INDEX requires ON table(column)"
  | some onPos =>
    let target := trim (← sliceFrom rest (onPos + len " ON "))
    match findCharByte '(' target with
    | none => parseError "CREATE INDEX requires a column"
    | some opening =>
      match rfindCharByte ')' target with
      | none => parseError "CREATE INDEX requires a closing parenthesis"
      | some closing =>
        let name := identifier (← sliceTo rest onPos)
        let table := identifier (← sliceTo target opening)
        let column := identifier (← slice target (opening + 1) closing)
        return .createIndex name table column fulltext

/-- The table and the columns of an `INSERT`. -/
def parseInsertTarget (target : List Char) : Parse (String × Option (List String)) :=
  match findCharByte '(' target with
  | none => return (identifier target, none)
  | some opening =>
    match rfindCharByte ')' target with
    | none => parseError "INSERT column list is not closed"
    | some closing => do
      let table := identifier (← sliceTo target opening)
      let columns ← splitTopLevel (← slice target (opening + 1) closing) ','
      return (table, some (columns.map identifier))

/-- `parse_insert`. -/
def parseInsert (sql : List Char) : Parse Statement := do
  let rest := trim (← sliceFrom sql (len "INSERT INTO"))
  match findCi rest "VALUES".toList with
  | none => parseError "INSERT requires VALUES"
  | some valuesPos =>
    let target := trim (← sliceTo rest valuesPos)
    let valuesPart := trim (← sliceFrom rest (valuesPos + len "VALUES"))
    let (table, columns) ← parseInsertTarget target
    let items ← splitTopLevel (← parenthesizedBody valuesPart "INSERT VALUES") ','
    let values ← items.mapM parseValue
    return .insert table columns values

/-- Find the clauses of a `SELECT`. -/
def selectClauses (fromRest : List Char) : SelectClauses :=
  let wherePos := findCi fromRest " WHERE ".toList
  let orderPos := findCi fromRest " ORDER BY ".toList
  let limitPos := findCi fromRest " LIMIT ".toList
  ⟨wherePos, orderPos, limitPos,
    (minPosition [wherePos, orderPos, limitPos]).getD (utf8Len fromRest)⟩

/-- The text of the `WHERE` clause that begins at `pos`. -/
def whereText (clauses : SelectClauses) (fromRest : List Char) (pos : Nat) : Parse (List Char) := do
  let stop := (minPosition ([clauses.orderPos, clauses.limitPos].map
    fun position ↦ position.filter (pos < ·))).getD (utf8Len fromRest)
  return trim (← slice fromRest (pos + len " WHERE ") stop)

/-- The text of the `ORDER BY` clause that begins at `pos`. -/
def orderText (clauses : SelectClauses) (fromRest : List Char) (pos : Nat) : Parse (List Char) := do
  let stop := (clauses.limitPos.filter (pos < ·)).getD (utf8Len fromRest)
  return trim (← slice fromRest (pos + len " ORDER BY ") stop)

/-- `parse_select`. -/
def parseSelect (sql : List Char) : Parse Statement := do
  let rest := trim (← sliceFrom sql (len "SELECT"))
  match findCi rest " FROM ".toList with
  | none => parseError "SELECT requires FROM"
  | some fromPos =>
    let projection ← parseProjection (← sliceTo rest fromPos)
    let fromRest := trim (← sliceFrom rest (fromPos + len " FROM "))
    let clauses := selectClauses fromRest
    let filter ← clauses.wherePos.mapM fun pos ↦ do
      parseFilter (← whereText clauses fromRest pos)
    let order ← clauses.orderPos.mapM fun pos ↦ do
      parseOrder (← orderText clauses fromRest pos)
    let limit ← clauses.limitPos.mapM fun pos ↦ do
      let limit ← parseLimit (← sliceFrom fromRest (pos + len " LIMIT "))
      return limit
    return .select (identifier (← sliceTo fromRest clauses.tableEnd)) projection filter order limit

/-- One assignment of an `UPDATE`. -/
def parseAssignment (assignment : List Char) : Parse (String × Value) := do
  match ← splitOnceTopLevel assignment '=' with
  | none => parseError "assignment requires ="
  | some (column, value) =>
    let value ← parseValue value
    return (identifier column, value)

/-- The text before a position, or all of it. -/
def before (input : List Char) (pos : Option Nat) : Parse (List Char) :=
  match pos with
  | some pos => sliceTo input pos
  | none => return input

/-- `parse_update`. -/
def parseUpdate (sql : List Char) : Parse Statement := do
  let rest := trim (← sliceFrom sql (len "UPDATE"))
  match findCi rest " SET ".toList with
  | none => parseError "UPDATE requires SET"
  | some setPos =>
    let afterSet := trim (← sliceFrom rest (setPos + len " SET "))
    let wherePos := findCi afterSet " WHERE ".toList
    let assignmentsPart := trim (← before afterSet wherePos)
    let filter ← wherePos.mapM fun pos ↦ do
      parseFilter (trim (← sliceFrom afterSet (pos + len " WHERE ")))
    let assignments ← (← splitTopLevel assignmentsPart ',').mapM parseAssignment
    return .update (identifier (← sliceTo rest setPos)) assignments filter

/-- `parse_delete`. -/
def parseDelete (sql : List Char) : Parse Statement := do
  let rest := trim (← sliceFrom sql (len "DELETE FROM"))
  let wherePos := findCi rest " WHERE ".toList
  let table := identifier (← before rest wherePos)
  if table = "" then parseError "DELETE requires a table name"
  else
    let filter ← wherePos.mapM fun pos ↦ do
      parseFilter (trim (← sliceFrom rest (pos + len " WHERE ")))
    return .delete table filter

/-! ## Statements that are parsed and not executed -/

/-- `parse_parsed_only`, `parse_attach_or_detach`, `parse_drop` and `parse_advanced_insert_kind`:
something must follow the prefix. -/
def parseWithTarget (required : String) (sql : List Char) (kind : ParsedOnlyStatementKind)
    (pre : String) : Parse Statement := do
  if (trim (← sliceFrom sql (len pre))).isEmpty then
    parseError s!"{kind.asStr} requires {required}"
  else return .parsedOnly kind (String.ofList sql)

/-- `parse_parsed_only`. -/
def parseParsedOnly : List Char → ParsedOnlyStatementKind → String → Parse Statement :=
  parseWithTarget "a target"

/-- `parse_attach_or_detach`. -/
def parseAttachOrDetach : List Char → ParsedOnlyStatementKind → String → Parse Statement :=
  parseWithTarget "a database"

/-- `parse_drop`. -/
def parseDrop : List Char → ParsedOnlyStatementKind → String → Parse Statement :=
  parseWithTarget "a name"

/-- `parse_advanced_insert_kind`. -/
def parseAdvancedInsertKind : List Char → ParsedOnlyStatementKind → String → Parse Statement :=
  parseWithTarget "a target"

/-- `parse_alter_table`. -/
def parseAlterTable (sql : List Char) : Parse Statement := do
  let rest := trim (← sliceFrom sql (len "ALTER TABLE"))
  if rest.isEmpty || !containsAny (lower rest) [" add ", " drop ", " rename ", " alter "] then
    parseError "ALTER TABLE requires ADD, DROP, RENAME, or ALTER action"
  else return .parsedOnly .alterTable (String.ofList sql)

/-- `parse_create_view`. -/
def parseCreateView (sql : List Char) : Parse Statement :=
  if (findCi sql " AS ".toList).isNone then parseError "CREATE VIEW requires AS SELECT"
  else return .parsedOnly .createView (String.ofList sql)

/-- `parse_create_trigger`. -/
def parseCreateTrigger (sql : List Char) : Parse Statement :=
  if (findCi sql " BEGIN ".toList).isNone ||
      !endsWith (lower (sql.rdropWhile isWhitespace)) "end".toList then
    parseError "CREATE TRIGGER requires BEGIN ... END"
  else return .parsedOnly .createTrigger (String.ofList sql)

/-- `parse_create_virtual_table`. -/
def parseCreateVirtualTable (sql : List Char) : Parse Statement :=
  if (findCi sql " USING ".toList).isNone then parseError "CREATE VIRTUAL TABLE requires USING"
  else return .parsedOnly .createVirtualTable (String.ofList sql)

/-! ## Which statements are advanced -/

/-- `is_advanced_create_index`. -/
def isAdvancedCreateIndex (sql : List Char) : Parse Bool :=
  if containsAny (lower sql) [" if not exists", " where ", " collate ", " desc", " asc"] then
    return true
  else
    match findCharByte '(' sql, rfindCharByte ')' sql with
    | some opening, some closing => do
      let inner ← slice sql (opening + 1) closing
      return (← splitTopLevel inner ',').length != 1 || inner.contains '(' ||
        decide (1 < (splitWhitespace inner).length)
    | _, _ => return false

/-- `is_advanced_insert_rest`. -/
def isAdvancedInsertRest (rest : List Char) : Parse Bool :=
  if rest.isEmpty then return false
  else if contains (lower rest) " default values".toList ||
      endsWith (lower rest) "default values".toList ||
      containsAny (lower rest) [" on conflict", " returning "] then return true
  else
    match findCi rest "VALUES".toList with
    | none =>
      return startsWithCi rest "SELECT".toList || startsWithCi rest "WITH".toList ||
        (findCi rest " SELECT ".toList).isSome || (findCi rest " WITH ".toList).isSome
    | some valuesPos => do
      return hasMultipleTopLevelParenthesizedGroups
        (trim (← sliceFrom rest (valuesPos + len "VALUES")))

/-- `is_advanced_insert`. -/
def isAdvancedInsert (sql : List Char) : Parse Bool := do
  isAdvancedInsertRest (trim (← sliceFrom sql (len "INSERT INTO")))

/-- `is_advanced_where_clause`. -/
def isAdvancedWhereClause (input : List Char) : Parse Bool := do
  let input := trim input
  if input.isEmpty then return false
  else if ← isOk (parseFilter input) then return false
  else if startsWithCi input "MATCH".toList || startsWithCi input "GEO_DISTANCE".toList then
    return false
  else
    return containsAny (' ' :: (lower input ++ [' ']))
      [" and ", " or ", " in ", " is ", " between ",
        " like ", " glob ", " regexp ", " exists ", " not "] ||
      input.contains '>' || input.contains '<' || containsAny input ["!=", "<>"] ||
      (← splitOnceTopLevel input '=').isSome

/-- `is_advanced_order_clause`. -/
def isAdvancedOrderClause (input : List Char) : Parse Bool := do
  let input := trim input
  if input.isEmpty then return false
  else if ← isOk (parseOrder input) then return false
  else return !startsWithCi input "VECTOR_DISTANCE".toList

/-- `is_advanced_select`. -/
def isAdvancedSelect (sql : List Char) : Parse Bool := do
  let rest := trim (← sliceFrom sql (len "SELECT"))
  if rest.isEmpty then return false
  if startsWithCi rest "DISTINCT".toList || startsWithCi rest "ALL".toList ||
      containsAny (lower rest) [" union ", " intersect ", " except ", " window "] then
    return true
  match findCi rest " FROM ".toList with
  | none => return isSupportedFromlessSelect rest
  | some fromPos =>
    if isAdvancedProjection (← sliceTo rest fromPos) then return true
    let fromRest := trim (← sliceFrom rest (fromPos + len " FROM "))
    if (findCi fromRest " GROUP BY ".toList).isSome || (findCi fromRest " HAVING ".toList).isSome ||
        (findCi fromRest " OFFSET ".toList).isSome ||
        (findCi fromRest " WINDOW ".toList).isSome then
      return true
    let clauses := selectClauses fromRest
    if isAdvancedFrom (← sliceTo fromRest clauses.tableEnd) then return true
    let advancedWhere ← (match clauses.wherePos with
      | none => .ok false
      | some pos => do isAdvancedWhereClause (← whereText clauses fromRest pos) : Parse Bool)
    if advancedWhere then return true
    match clauses.orderPos with
    | none => return false
    | some pos => isAdvancedOrderClause (← orderText clauses fromRest pos)

/-- The loop of `is_advanced_update` over the assignments: `some` answer when it returns. -/
def advancedAssignments : List (List Char) → Parse (Option Bool)
  | [] => return none
  | assignment :: rest => do
    match ← splitOnceTopLevel assignment '=' with
    | none => return some false
    | some (_, value) =>
      if ← isOk (parseValue value) then advancedAssignments rest else return some true

/-- `is_advanced_update`. -/
def isAdvancedUpdate (sql : List Char) : Parse Bool := do
  let rest := trim (← sliceFrom sql (len "UPDATE"))
  if rest.isEmpty then return false
  else if containsAny (lower rest) [" from ", " returning ", " order by ", " limit "] then
    return true
  else
    match findCi rest " SET ".toList with
    | none => return false
    | some setPos =>
      let afterSet := trim (← sliceFrom rest (setPos + len " SET "))
      let wherePos := findCi afterSet " WHERE ".toList
      let assignmentsPart := trim (← before afterSet wherePos)
      if assignmentsPart.isEmpty then return false
      else
        match ← advancedAssignments (← splitTopLevel assignmentsPart ',') with
        | some advanced => return advanced
        | none =>
          match wherePos with
          | none => return false
          | some pos => isAdvancedWhereClause (trim (← sliceFrom afterSet (pos + len " WHERE ")))

/-- `is_advanced_delete`. -/
def isAdvancedDelete (sql : List Char) : Parse Bool := do
  let rest := trim (← sliceFrom sql (len "DELETE FROM"))
  if rest.isEmpty then return false
  else if containsAny (lower rest) [" returning ", " order by ", " limit ", " using "] then
    return true
  else
    let wherePos := findCi rest " WHERE ".toList
    if isAdvancedFrom (trim (← before rest wherePos)) then return true
    else
      match wherePos with
      | none => return false
      | some pos => isAdvancedWhereClause (trim (← sliceFrom rest (pos + len " WHERE ")))

/-! ## Positions -/

theorem sliceFrom_len {input : List Char} {text : String}
    (h : Fsql.startsWithCi input text.toList = true) :
    sliceFrom input (len text) = .ok (input.drop text.length) :=
  sliceFrom_of_startsWithCi h

theorem offset_found {input : List Char} {text : String} {pos : Nat}
    (h : Fsql.findCi input text.toList = some pos) :
    offset input pos + len text = offset input (pos + text.length) :=
  offset_findCi h

/-- A text is cut behind a keyword that is found. -/
theorem sliceFrom_found {input : List Char} {text : String} {pos : Nat}
    (h : Fsql.findCi input text.toList = some pos) :
    sliceFrom input (offset input pos + len text) = .ok (input.drop (pos + text.length)) := by
  rw [offset_found h, sliceFrom_offset]

theorem length_le_of_findCi {input needle : List Char} {pos : Nat}
    (h : Fsql.findCi input needle = some pos) (hne : needle ≠ []) :
    pos + needle.length ≤ input.length := by
  have hle := length_le_of_prefix_drop (prefix_drop_of_find h) (by simpa [lower] using hne)
  rwa [length_lower, length_lower] at hle

theorem isSome_findCi (input needle : List Char) :
    (findCi input needle).isSome = (Fsql.findCi input needle).isSome := by
  rw [findCi_eq, Option.isSome_map]

theorem isNone_findCi (input needle : List Char) :
    (findCi input needle).isNone = (Fsql.findCi input needle).isNone := by
  rw [findCi_eq, Option.isNone_map]

theorem lt_length_of_getElem? {l : List Char} {i : Nat} {c : Char} (h : l[i]? = some c) :
    i < l.length :=
  (List.getElem?_eq_some_iff.mp h).1

/-- **What is between the parentheses.** -/
theorem slice_parens {l : List Char} {opening closing : Nat}
    (hopening : findChar '(' l = some opening)
    (hclosing : rfindChar ')' l = some closing) :
    slice l (offset l opening + 1) (offset l closing) = Fsql.slice l (opening + 1) closing := by
  have hopen := findChar_spec hopening
  have hclose := rfindChar_spec hclosing
  have hbehind : offset l opening + 1 = offset l (opening + 1) := offset_succ hopen
  rw [hbehind]
  exact slice_offset l (lt_length_of_getElem? hopen) (lt_length_of_getElem? hclose).le

theorem before_eq (input needle : List Char) :
    before input (findCi input needle) =
      .ok (input.take ((Fsql.findCi input needle).getD input.length)) := by
  rw [findCi_eq]
  rcases Fsql.findCi input needle with _ | pos
  · show Except.ok input = .ok (input.take input.length)
    rw [List.take_length]
  · exact sliceTo_offset input pos

/-! ## The parser on bytes is the parser on characters -/

theorem parseWithTarget_eq (required : String) {sql : List Char} (kind : ParsedOnlyStatementKind)
    {pre : String} (h : Fsql.startsWithCi sql pre.toList = true) :
    parseWithTarget required sql kind pre = liftM (Fsql.parseWithTarget required sql kind pre) := by
  rw [parseWithTarget, sliceFrom_len h, ok_bind, Fsql.parseWithTarget, liftM_ite]
  rfl

theorem parseAlterTable_eq {sql : List Char}
    (h : Fsql.startsWithCi sql "ALTER TABLE".toList = true) :
    parseAlterTable sql = liftM (Fsql.parseAlterTable sql) := by
  rw [parseAlterTable, sliceFrom_len h, ok_bind, Fsql.parseAlterTable]
  dsimp only
  rw [liftM_ite]
  rfl

theorem parseCreateView_eq (sql : List Char) :
    parseCreateView sql = liftM (Fsql.parseCreateView sql) := by
  rw [parseCreateView, Fsql.parseCreateView, isNone_findCi, liftM_ite]
  rfl

theorem parseCreateTrigger_eq (sql : List Char) :
    parseCreateTrigger sql = liftM (Fsql.parseCreateTrigger sql) := by
  rw [parseCreateTrigger, Fsql.parseCreateTrigger, isNone_findCi, liftM_ite]
  rfl

theorem parseCreateVirtualTable_eq (sql : List Char) :
    parseCreateVirtualTable sql = liftM (Fsql.parseCreateVirtualTable sql) := by
  rw [parseCreateVirtualTable, Fsql.parseCreateVirtualTable, isNone_findCi, liftM_ite]
  rfl

theorem offset_le_iff {l : List Char} {m n : Nat} (hm : m < l.length) :
    offset l n ≤ offset l m ↔ n ≤ m := by
  refine ⟨fun h ↦ ?_, offset_mono l⟩
  by_contra hlt
  have := offset_lt l (Nat.not_le.mp hlt) hm
  omega

theorem parseCreateTable_eq {sql : List Char}
    (h : Fsql.startsWithCi sql "CREATE TABLE".toList = true) :
    parseCreateTable sql = Fsql.parseCreateTable sql := by
  rw [parseCreateTable, sliceFrom_len h, ok_bind, Fsql.parseCreateTable]
  generalize trim (sql.drop "CREATE TABLE".length) = rest
  dsimp only
  rw [findCharByte, rfindCharByte]
  rcases hopening : findChar '(' rest with _ | opening
  · rfl
  · rcases hclosing : rfindChar ')' rest with _ | closing
    · rfl
    · have hle := offset_le_iff (n := closing) (lt_length_of_getElem? (findChar_spec hopening))
      simp only [Option.map_some, hle, sliceTo_offset, slice_parens hopening hclosing, ok_bind,
        splitTopLevel_eq]
      exact ite_congr rfl (fun _ ↦ rfl) (fun _ ↦ ite_congr rfl (fun _ ↦ rfl) (fun _ ↦ rfl))

/-- A `CREATE INDEX`, behind its keywords. -/
theorem parseCreateIndex_eq {sql : List Char}
    (h : Fsql.startsWithCi sql "CREATE FULLTEXT INDEX".toList = true ∨
      Fsql.startsWithCi sql "CREATE INDEX".toList = true) :
    parseCreateIndex sql = Fsql.parseCreateIndex sql := by
  have hrest : sliceFrom sql (len (if startsWithCi sql "CREATE FULLTEXT INDEX".toList then
        "CREATE FULLTEXT INDEX" else "CREATE INDEX")) =
      .ok (sql.drop (if Fsql.startsWithCi sql "CREATE FULLTEXT INDEX".toList then
        "CREATE FULLTEXT INDEX" else "CREATE INDEX").length) := by
    rw [startsWithCi_eq]
    split
    · rename_i hfulltext
      exact sliceFrom_len hfulltext
    · rename_i hfulltext
      exact sliceFrom_len (h.resolve_left hfulltext)
  rw [parseCreateIndex, hrest, ok_bind, Fsql.parseCreateIndex, startsWithCi_eq]
  generalize trim (sql.drop _) = rest
  dsimp only
  rw [findCi_eq]
  rcases hon : Fsql.findCi rest " ON ".toList with _ | onPos
  · rfl
  · simp only [Option.map_some, sliceFrom_found hon, ok_bind]
    generalize trim (rest.drop _) = target
    rw [findCharByte, rfindCharByte]
    rcases hopening : findChar '(' target with _ | opening
    · rfl
    · rcases hclosing : rfindChar ')' target with _ | closing
      · rfl
      · simp only [Option.map_some, sliceTo_offset, slice_parens hopening hclosing, ok_bind]

theorem parseInsertTarget_eq (target : List Char) :
    parseInsertTarget target = Fsql.parseInsertTarget target := by
  rw [parseInsertTarget, Fsql.parseInsertTarget, findCharByte, rfindCharByte]
  rcases hopening : findChar '(' target with _ | opening
  · rfl
  · rcases hclosing : rfindChar ')' target with _ | closing
    · rfl
    · simp only [Option.map_some, sliceTo_offset, slice_parens hopening hclosing, ok_bind,
        splitTopLevel_eq]

/-- A list of texts is read one by one. -/
theorem mapM_liftM {α : Type} {f : List Char → Parse α} {g : List Char → Result α}
    (h : ∀ text, f text = liftM (g text)) (texts : List (List Char)) :
    texts.mapM f = liftM (texts.mapM g) := by
  induction texts with
  | nil => rfl
  | cons text texts ih =>
    rw [List.mapM_cons, List.mapM_cons, h, ih, liftM_bind]
    refine bind_congr fun a ↦ ?_
    rw [liftM_bind]
    rfl

theorem parseInsert_eq {sql : List Char}
    (h : Fsql.startsWithCi sql "INSERT INTO".toList = true) :
    parseInsert sql = Fsql.parseInsert sql := by
  rw [parseInsert, sliceFrom_len h, ok_bind, Fsql.parseInsert]
  generalize trim (sql.drop "INSERT INTO".length) = rest
  dsimp only
  rw [findCi_eq]
  rcases hvalues : Fsql.findCi rest "VALUES".toList with _ | valuesPos
  · rfl
  · simp only [Option.map_some, sliceFrom_found hvalues, sliceTo_offset, ok_bind,
      parseInsertTarget_eq, parenthesizedBody_eq, splitTopLevel_eq, mapM_liftM parseValue_eq]

theorem parseAssignment_eq (assignment : List Char) :
    parseAssignment assignment = liftM (Fsql.parseAssignment assignment) := by
  rw [parseAssignment, splitOnceTopLevel_eq, ok_bind, Fsql.parseAssignment]
  rcases Fsql.splitOnceTopLevel assignment '=' with _ | ⟨column, value⟩
  · rfl
  · dsimp only
    rw [parseValue_eq, liftM_bind]
    rfl

/-- The filter behind a `WHERE`, if there is one. -/
theorem mapM_parseFilter_eq (input : List Char) :
    ((findCi input " WHERE ".toList).mapM fun pos ↦ do
        parseFilter (trim (← sliceFrom input (pos + len " WHERE ")))) =
      liftM ((Fsql.findCi input " WHERE ".toList).mapM fun pos ↦
        Fsql.parseFilter (trim (input.drop (pos + " WHERE ".length)))) := by
  rw [findCi_eq]
  rcases hwhere : Fsql.findCi input " WHERE ".toList with _ | pos
  · rfl
  · simp only [Option.map_some, Option.mapM_some, sliceFrom_found hwhere, ok_bind, parseFilter_eq]
    rcases Fsql.parseFilter (trim (input.drop (pos + " WHERE ".length))) with error | filter <;> rfl

theorem parseUpdate_eq {sql : List Char} (h : Fsql.startsWithCi sql "UPDATE".toList = true) :
    parseUpdate sql = liftM (Fsql.parseUpdate sql) := by
  rw [parseUpdate, sliceFrom_len h, ok_bind, Fsql.parseUpdate]
  generalize trim (sql.drop "UPDATE".length) = rest
  dsimp only
  rw [findCi_eq]
  rcases hset : Fsql.findCi rest " SET ".toList with _ | setPos
  · rfl
  · simp only [Option.map_some, sliceFrom_found hset, ok_bind, before_eq, mapM_parseFilter_eq]
    refine liftM_bind_congr fun filter _ ↦ ?_
    rw [splitTopLevel_eq, ok_bind, mapM_liftM parseAssignment_eq]
    refine liftM_bind_congr fun assignments _ ↦ ?_
    rw [sliceTo_offset]
    rfl

theorem parseDelete_eq {sql : List Char} (h : Fsql.startsWithCi sql "DELETE FROM".toList = true) :
    parseDelete sql = liftM (Fsql.parseDelete sql) := by
  rw [parseDelete, sliceFrom_len h, ok_bind, Fsql.parseDelete]
  generalize trim (sql.drop "DELETE FROM".length) = rest
  dsimp only
  rw [before_eq, ok_bind, liftM_ite, mapM_parseFilter_eq]
  refine ite_congr rfl (fun _ ↦ rfl) (fun _ ↦ ?_)
  exact liftM_bind_congr fun filter _ ↦ rfl

theorem isAdvancedCreateIndex_eq (sql : List Char) :
    isAdvancedCreateIndex sql = Fsql.isAdvancedCreateIndex sql := by
  rw [isAdvancedCreateIndex, Fsql.isAdvancedCreateIndex]
  refine ite_congr rfl (fun _ ↦ rfl) (fun _ ↦ ?_)
  rw [findCharByte, rfindCharByte]
  rcases hopening : findChar '(' sql with _ | opening
  · rfl
  · rcases hclosing : rfindChar ')' sql with _ | closing
    · rfl
    · simp only [Option.map_some, slice_parens hopening hclosing, splitTopLevel_eq, ok_bind]

theorem isAdvancedInsertRest_eq (rest : List Char) :
    isAdvancedInsertRest rest = .ok (Fsql.isAdvancedInsertRest rest) := by
  rw [isAdvancedInsertRest, Fsql.isAdvancedInsertRest, apply_ite Except.ok, apply_ite Except.ok]
  refine ite_congr rfl (fun _ ↦ rfl) (fun _ ↦ ite_congr rfl (fun _ ↦ rfl) (fun _ ↦ ?_))
  simp only [isSome_findCi, startsWithCi_eq]
  rw [findCi_eq]
  rcases hvalues : Fsql.findCi rest "VALUES".toList with _ | valuesPos
  · rfl
  · simp only [Option.map_some, sliceFrom_found hvalues, ok_bind]
    rfl

theorem isAdvancedInsert_eq {sql : List Char}
    (h : Fsql.startsWithCi sql "INSERT INTO".toList = true) :
    isAdvancedInsert sql = .ok (Fsql.isAdvancedInsert sql) := by
  rw [isAdvancedInsert, sliceFrom_len h, ok_bind, isAdvancedInsertRest_eq, Fsql.isAdvancedInsert]

theorem isAdvancedWhereClause_eq (input : List Char) :
    isAdvancedWhereClause input = .ok (Fsql.isAdvancedWhereClause input) := by
  rw [isAdvancedWhereClause, Fsql.isAdvancedWhereClause]
  generalize trim input = l
  rw [parseFilter_eq, isOk_liftM, ok_bind, startsWithCi_eq, startsWithCi_eq, splitOnceTopLevel_eq,
    ok_bind]
  rcases l.isEmpty with _ | _
  · rcases (Fsql.parseFilter l).toBool with _ | _
    · rcases Fsql.startsWithCi l "MATCH".toList || Fsql.startsWithCi l "GEO_DISTANCE".toList
        with _ | _ <;> rfl
    · rfl
  · rfl

theorem isAdvancedOrderClause_eq (input : List Char) :
    isAdvancedOrderClause input = .ok (Fsql.isAdvancedOrderClause input) := by
  rw [isAdvancedOrderClause, Fsql.isAdvancedOrderClause]
  generalize trim input = l
  rw [parseOrder_eq, isOk_liftM, ok_bind, startsWithCi_eq]
  rcases l.isEmpty with _ | _
  · rcases (Fsql.parseOrder l).toBool with _ | _ <;> rfl
  · rfl

theorem advancedAssignments_eq (assignments : List (List Char)) :
    advancedAssignments assignments = .ok (Fsql.advancedAssignments assignments) := by
  induction assignments with
  | nil => rfl
  | cons assignment rest ih =>
    rw [advancedAssignments, Fsql.advancedAssignments, splitOnceTopLevel_eq, ok_bind]
    rcases Fsql.splitOnceTopLevel assignment '=' with _ | ⟨column, value⟩
    · rfl
    · dsimp only
      rw [parseValue_eq, isOk_liftM, ok_bind, ih, isErr]
      rcases (Fsql.parseValue value).toBool with _ | _ <;> rfl

theorem isAdvancedUpdate_eq {sql : List Char} (h : Fsql.startsWithCi sql "UPDATE".toList = true) :
    isAdvancedUpdate sql = .ok (Fsql.isAdvancedUpdate sql) := by
  rw [isAdvancedUpdate, sliceFrom_len h, ok_bind, Fsql.isAdvancedUpdate]
  generalize trim (sql.drop "UPDATE".length) = rest
  dsimp only
  rw [apply_ite Except.ok, apply_ite Except.ok]
  refine ite_congr rfl (fun _ ↦ rfl) (fun _ ↦ ite_congr rfl (fun _ ↦ rfl) (fun _ ↦ ?_))
  rw [findCi_eq]
  rcases hset : Fsql.findCi rest " SET ".toList with _ | setPos
  · rfl
  · simp only [Option.map_some, sliceFrom_found hset, ok_bind, before_eq, splitTopLevel_eq,
      advancedAssignments_eq]
    generalize trim (rest.drop (setPos + " SET ".length)) = afterSet
    rw [apply_ite Except.ok]
    refine ite_congr rfl (fun _ ↦ rfl) (fun _ ↦ ?_)
    rcases Fsql.advancedAssignments _ with _ | advanced
    · dsimp only
      rw [findCi_eq]
      rcases hwhere : Fsql.findCi afterSet " WHERE ".toList with _ | pos
      · rfl
      · simp only [Option.map_some, sliceFrom_found hwhere, ok_bind, isAdvancedWhereClause_eq]
    · rfl

theorem isAdvancedDelete_eq {sql : List Char}
    (h : Fsql.startsWithCi sql "DELETE FROM".toList = true) :
    isAdvancedDelete sql = .ok (Fsql.isAdvancedDelete sql) := by
  rw [isAdvancedDelete, sliceFrom_len h, ok_bind, Fsql.isAdvancedDelete]
  generalize trim (sql.drop "DELETE FROM".length) = rest
  dsimp only
  rw [apply_ite Except.ok, apply_ite Except.ok]
  refine ite_congr rfl (fun _ ↦ rfl) (fun _ ↦ ite_congr rfl (fun _ ↦ rfl) (fun _ ↦ ?_))
  rw [before_eq, ok_bind, apply_ite Except.ok]
  refine ite_congr rfl (fun _ ↦ rfl) (fun _ ↦ ?_)
  rw [findCi_eq]
  rcases hwhere : Fsql.findCi rest " WHERE ".toList with _ | pos
  · rfl
  · simp only [Option.map_some, sliceFrom_found hwhere, ok_bind, isAdvancedWhereClause_eq]

/-! ## The clauses of a `SELECT` -/

/-- The smallest of some positions, in bytes. -/
theorem minPosition_offset (l : List Char) (positions : List (Option Nat)) :
    minPosition (positions.map (Option.map (offset l))) =
      (minPosition positions).map (offset l) := by
  have hmin (a b : Nat) : min (offset l a) (offset l b) = offset l (min a b) := by
    rcases le_total a b with h | h
    · rw [min_eq_left h, min_eq_left (offset_mono l h)]
    · rw [min_eq_right h, min_eq_right (offset_mono l h)]
  have key (ns : List Nat) : (ns.map (offset l)).min? = ns.min?.map (offset l) := by
    induction ns with
    | nil => rfl
    | cons n ns ih =>
      rw [List.map_cons, List.min?_cons, List.min?_cons, ih]
      rcases ns.min? with _ | m
      · rfl
      · simp [hmin]
  rw [minPosition, minPosition, ← key]
  congr 1
  induction positions with
  | nil => rfl
  | cons position positions ih =>
    rcases position with _ | pos <;> simp_all

theorem mem_of_minPosition {positions : List (Option Nat)} {n : Nat}
    (h : minPosition positions = some n) : some n ∈ positions := by
  have hmem := List.min?_mem h
  simpa [List.mem_filterMap] using hmem

/-- The clauses of a `SELECT` with their positions in bytes. -/
def inBytes (clauses : SelectClauses) (l : List Char) : SelectClauses :=
  ⟨clauses.wherePos.map (offset l), clauses.orderPos.map (offset l),
    clauses.limitPos.map (offset l), offset l clauses.tableEnd⟩

theorem offset_length (l : List Char) : offset l l.length = utf8Len l := by
  rw [offset, List.take_length]

theorem selectClauses_eq (l : List Char) :
    selectClauses l = inBytes (Fsql.selectClauses l) l := by
  have hmin := minPosition_offset l [Fsql.findCi l " WHERE ".toList,
    Fsql.findCi l " ORDER BY ".toList, Fsql.findCi l " LIMIT ".toList]
  simp only [List.map_cons, List.map_nil] at hmin
  rw [selectClauses, Fsql.selectClauses, inBytes]
  simp only [findCi_eq, hmin, ← offset_length, Option.getD_map]

/-- The positions behind another one, in bytes. -/
theorem filter_offset {l : List Char} {pos : Nat} (hpos : pos < l.length) (position : Option Nat) :
    (position.map (offset l)).filter (offset l pos < ·) =
      (position.filter (pos < ·)).map (offset l) := by
  rcases position with _ | e
  · rfl
  · have hlt : offset l pos < offset l e ↔ pos < e := by
      rw [← Nat.not_le, offset_le_iff hpos, Nat.not_le]
    by_cases h : pos < e
    · simp [Option.filter, hlt, h]
    · simp [Option.filter, hlt, h]

/-- The text of a clause, from its keyword to where the next one begins. -/
theorem slice_clause {l : List Char} {text : String} {pos : Nat} (hne : text.toList ≠ [])
    (h : Fsql.findCi l text.toList = some pos) {stop : Option Nat}
    (hstop : ∀ n ∈ stop, n ≤ l.length) :
    slice l (offset l pos + len text) ((stop.map (offset l)).getD (utf8Len l)) =
      Fsql.slice l (pos + text.length) (stop.getD l.length) := by
  rw [offset_found h, ← offset_length, Option.getD_map]
  refine slice_offset l (length_le_of_findCi h hne) ?_
  rcases stop with _ | n
  · exact le_rfl
  · exact hstop n rfl

theorem le_length_of_findCi {l needle : List Char} {pos : Nat}
    (h : Fsql.findCi l needle = some pos) (hne : needle ≠ []) : pos ≤ l.length :=
  (Nat.le_add_right _ _).trans (length_le_of_findCi h hne)

theorem lt_length_of_findCi {l needle : List Char} {pos : Nat}
    (h : Fsql.findCi l needle = some pos) (hne : needle ≠ []) : pos < l.length :=
  (Nat.lt_add_of_pos_right (List.length_pos_of_ne_nil hne)).trans_le (length_le_of_findCi h hne)

theorem whereText_eq {l : List Char} {pos : Nat} (h : Fsql.findCi l " WHERE ".toList = some pos) :
    whereText (selectClauses l) l (offset l pos) = (Fsql.selectClauses l).whereText l pos := by
  have hpos := lt_length_of_findCi h (by decide)
  have hmin := minPosition_offset l ([(Fsql.selectClauses l).orderPos,
    (Fsql.selectClauses l).limitPos].map fun position ↦ position.filter (pos < ·))
  simp only [List.map_cons, List.map_nil] at hmin
  rw [selectClauses_eq, whereText, SelectClauses.whereText]
  simp only [inBytes, List.map_cons, List.map_nil, filter_offset hpos, hmin]
  rw [slice_clause (by decide) h]
  intro n hn
  have hmem := mem_of_minPosition hn
  simp only [List.mem_cons, List.not_mem_nil, or_false] at hmem
  rcases hmem with hmem | hmem
  · exact le_length_of_findCi (Option.filter_eq_some_iff.mp hmem.symm).1 (by decide)
  · exact le_length_of_findCi (Option.filter_eq_some_iff.mp hmem.symm).1 (by decide)

theorem orderText_eq {l : List Char} {pos : Nat}
    (h : Fsql.findCi l " ORDER BY ".toList = some pos) :
    orderText (selectClauses l) l (offset l pos) = (Fsql.selectClauses l).orderText l pos := by
  have hpos := lt_length_of_findCi h (by decide)
  rw [selectClauses_eq, orderText, SelectClauses.orderText]
  simp only [inBytes, filter_offset hpos]
  rw [slice_clause (by decide) h]
  intro n hn
  exact le_length_of_findCi (Option.filter_eq_some_iff.mp hn).1 (by decide)

theorem isAdvancedSelect_eq {sql : List Char} (h : Fsql.startsWithCi sql "SELECT".toList = true) :
    isAdvancedSelect sql = Fsql.isAdvancedSelect sql := by
  rw [isAdvancedSelect, sliceFrom_len h, ok_bind, Fsql.isAdvancedSelect]
  generalize trim (sql.drop "SELECT".length) = rest
  simp only [startsWithCi_eq, isSome_findCi]
  refine ite_congr rfl (fun _ ↦ rfl) (fun _ ↦ ite_congr rfl (fun _ ↦ rfl) (fun _ ↦ ?_))
  rw [findCi_eq]
  rcases hfrom : Fsql.findCi rest " FROM ".toList with _ | fromPos
  · rfl
  · simp only [Option.map_some, sliceTo_offset, sliceFrom_found hfrom, ok_bind]
    refine ite_congr rfl (fun _ ↦ rfl) (fun _ ↦ ?_)
    generalize trim (rest.drop (fromPos + " FROM ".length)) = fromRest
    refine ite_congr rfl (fun _ ↦ rfl) (fun _ ↦ ?_)
    have htable : sliceTo fromRest (selectClauses fromRest).tableEnd =
        .ok (fromRest.take (Fsql.selectClauses fromRest).tableEnd) := by
      rw [selectClauses_eq]
      exact sliceTo_offset fromRest _
    rw [htable, ok_bind]
    refine ite_congr rfl (fun _ ↦ rfl) (fun _ ↦ ?_)
    have hwherePos : (selectClauses fromRest).wherePos =
        (Fsql.selectClauses fromRest).wherePos.map (offset fromRest) := findCi_eq _ _
    have horderPos : (selectClauses fromRest).orderPos =
        (Fsql.selectClauses fromRest).orderPos.map (offset fromRest) := findCi_eq _ _
    rw [hwherePos, horderPos]
    congr 1
    · rcases hpos : (Fsql.selectClauses fromRest).wherePos with _ | pos
      · rfl
      · simp only [Option.map_some, whereText_eq hpos, isAdvancedWhereClause_eq]
        rfl
    · refine funext fun advancedWhere ↦ ite_congr rfl (fun _ ↦ rfl) (fun _ ↦ ?_)
      rcases hpos : (Fsql.selectClauses fromRest).orderPos with _ | pos
      · rfl
      · simp only [Option.map_some, orderText_eq hpos, isAdvancedOrderClause_eq]
        rfl

theorem parseSelect_eq {sql : List Char} (h : Fsql.startsWithCi sql "SELECT".toList = true) :
    parseSelect sql = Fsql.parseSelect sql := by
  rw [parseSelect, sliceFrom_len h, ok_bind, Fsql.parseSelect]
  generalize trim (sql.drop "SELECT".length) = rest
  dsimp only
  rw [findCi_eq]
  rcases hfrom : Fsql.findCi rest " FROM ".toList with _ | fromPos
  · rfl
  · simp only [Option.map_some, sliceTo_offset, sliceFrom_found hfrom, ok_bind, parseProjection_eq]
    generalize trim (rest.drop (fromPos + " FROM ".length)) = fromRest
    refine bind_congr fun projection ↦ ?_
    have hwherePos : (selectClauses fromRest).wherePos =
        (Fsql.selectClauses fromRest).wherePos.map (offset fromRest) := findCi_eq _ _
    have horderPos : (selectClauses fromRest).orderPos =
        (Fsql.selectClauses fromRest).orderPos.map (offset fromRest) := findCi_eq _ _
    have hlimitPos : (selectClauses fromRest).limitPos =
        (Fsql.selectClauses fromRest).limitPos.map (offset fromRest) := findCi_eq _ _
    have htable : sliceTo fromRest (selectClauses fromRest).tableEnd =
        .ok (fromRest.take (Fsql.selectClauses fromRest).tableEnd) := by
      rw [selectClauses_eq]
      exact sliceTo_offset fromRest _
    rw [hwherePos, horderPos, hlimitPos, htable]
    congr 1
    · rcases hpos : (Fsql.selectClauses fromRest).wherePos with _ | pos
      · rfl
      · simp only [Option.map_some, Option.mapM_some, whereText_eq hpos, parseFilter_eq]
    · refine funext fun filter ↦ ?_
      congr 1
      · rcases hpos : (Fsql.selectClauses fromRest).orderPos with _ | pos
        · rfl
        · simp only [Option.map_some, Option.mapM_some, orderText_eq hpos, parseOrder_eq]
      · refine funext fun order ↦ ?_
        congr 1
        · rcases hpos : (Fsql.selectClauses fromRest).limitPos with _ | pos
          · rfl
          · simp only [Option.map_some, Option.mapM_some]
            rw [sliceFrom_found hpos]
            rfl

/-! ## Statements -/

/-- The text starts with one of the given ones, up to case. -/
def startsWithAny (sql : List Char) (texts : List String) : Bool :=
  texts.any fun text ↦ startsWithCi sql text.toList

/-- The branches of `parse_sql_with_dialect` behind `EXPLAIN`, for a stripped text. -/
def parseStatement (sql : List Char) (dialect : SqlDialect) : Parse Statement :=
  let starts := fun text : String ↦ startsWithCi sql text.toList
  if starts "WITH" then parseParsedOnly sql .withClause "WITH"
  else if starts "VALUES" then parseParsedOnly sql .values "VALUES"
  else if isBegin sql dialect then .ok .begin
  else if isCommit sql dialect then .ok .commit
  else if isRollback sql dialect then .ok .rollback
  else if starts "INSERT OR " then parseAdvancedInsertKind sql .insert "INSERT"
  else if starts "UPDATE OR " then parseParsedOnly sql .update "UPDATE"
  else if starts "ROLLBACK TO" then parseParsedOnly sql .rollbackTo "ROLLBACK TO"
  else if starts "SAVEPOINT" then parseParsedOnly sql .savepoint "SAVEPOINT"
  else if starts "RELEASE" then parseParsedOnly sql .release "RELEASE"
  else if starts "ALTER TABLE" then parseAlterTable sql
  else if starts "ANALYZE" then parseParsedOnly sql .analyze "ANALYZE"
  else if starts "ATTACH" then parseAttachOrDetach sql .attach "ATTACH"
  else if starts "DETACH" then parseAttachOrDetach sql .detach "DETACH"
  else if starts "CREATE TABLE" then
    if isAdvancedCreateTable sql then parseParsedOnly sql .createTable "CREATE TABLE"
    else parseCreateTable sql
  else if startsWithAny sql ["CREATE TEMP TABLE", "CREATE TEMPORARY TABLE"] then
    parseParsedOnly sql .createTable "CREATE"
  else if startsWithAny sql ["CREATE VIEW", "CREATE TEMP VIEW", "CREATE TEMPORARY VIEW"] then
    parseCreateView sql
  else if startsWithAny sql
      ["CREATE TRIGGER", "CREATE TEMP TRIGGER", "CREATE TEMPORARY TRIGGER"] then
    parseCreateTrigger sql
  else if starts "CREATE VIRTUAL TABLE" then parseCreateVirtualTable sql
  else if startsWithAny sql ["CREATE UNIQUE INDEX", "CREATE INDEX IF NOT EXISTS",
      "CREATE UNIQUE INDEX IF NOT EXISTS"] then
    parseParsedOnly sql .createIndex "CREATE"
  else if startsWithAny sql ["CREATE FULLTEXT INDEX", "CREATE INDEX"] then do
    if ← isAdvancedCreateIndex sql then parseParsedOnly sql .createIndex "CREATE"
    else parseCreateIndex sql
  else if starts "DROP INDEX" then parseDrop sql .dropIndex "DROP INDEX"
  else if starts "DROP TABLE" then parseDrop sql .dropTable "DROP TABLE"
  else if starts "DROP TRIGGER" then parseDrop sql .dropTrigger "DROP TRIGGER"
  else if starts "DROP VIEW" then parseDrop sql .dropView "DROP VIEW"
  else if starts "INSERT INTO" then do
    if ← isAdvancedInsert sql then parseAdvancedInsertKind sql .insert "INSERT INTO"
    else parseInsert sql
  else if starts "REPLACE INTO" then parseAdvancedInsertKind sql .replace "REPLACE INTO"
  else if starts "SELECT" then do
    if ← isAdvancedSelect sql then parseParsedOnly sql .select "SELECT" else parseSelect sql
  else if starts "UPDATE" then do
    if ← isAdvancedUpdate sql then parseParsedOnly sql .update "UPDATE" else parseUpdate sql
  else if starts "DELETE FROM" then do
    if ← isAdvancedDelete sql then parseParsedOnly sql .delete "DELETE FROM" else parseDelete sql
  else if starts "PRAGMA" then parseParsedOnly sql .pragma "PRAGMA"
  else if starts "REINDEX" then parseParsedOnly sql .reindex "REINDEX"
  else if starts "VACUUM" then parseParsedOnly sql .vacuum "VACUUM"
  else parseError "unsupported SQL statement"

theorem startsWithAny_eq (sql : List Char) (texts : List String) :
    startsWithAny sql texts = Fsql.startsWithAny sql texts := by
  rw [startsWithAny, Fsql.startsWithAny]
  simp only [startsWithCi_eq]

/-- What starts with a text starts with a part of it. -/
theorem startsWithCi_mono {sql pre text : List Char} (hpre : pre <+: text)
    (h : Fsql.startsWithCi sql text = true) : Fsql.startsWithCi sql pre = true := by
  rw [startsWithCi_iff] at h ⊢
  exact (hpre.map Char.toLower).trans h

/-- A text that starts with one of several starts with what they have in common. -/
theorem startsWithCi_of_any {sql : List Char} {texts : List String} {pre : String}
    (hpre : ∀ text ∈ texts, pre.toList <+: text.toList) (h : Fsql.startsWithAny sql texts = true) :
    Fsql.startsWithCi sql pre.toList = true := by
  obtain ⟨text, htext, hstarts⟩ := List.any_eq_true.mp h
  exact startsWithCi_mono (hpre text htext) hstarts

/-- **The branches behind `EXPLAIN`**: each slices behind the keywords that led to it. -/
theorem parseStatement_eq (sql : List Char) (dialect : SqlDialect) :
    parseStatement sql dialect = Fsql.parseStatement sql dialect := by
  rw [parseStatement, Fsql.parseStatement]
  simp only [startsWithCi_eq, startsWithAny_eq]
  repeat' refine ite_congr rfl (fun h ↦ ?_) (fun _ ↦ ?_)
  all_goals try exact parseWithTarget_eq _ _ h
  · rfl
  · rfl
  · rfl
  · exact parseWithTarget_eq _ _ (startsWithCi_mono (by decide) h)
  · exact parseWithTarget_eq _ _ (startsWithCi_mono (by decide) h)
  · exact parseAlterTable_eq h
  · exact parseWithTarget_eq _ _ ‹Fsql.startsWithCi sql "CREATE TABLE".toList = true›
  · exact parseCreateTable_eq h
  · exact parseWithTarget_eq _ _ (startsWithCi_of_any (by decide) h)
  · exact parseCreateView_eq sql
  · exact parseCreateTrigger_eq sql
  · exact parseCreateVirtualTable_eq sql
  · exact parseWithTarget_eq _ _ (startsWithCi_of_any (by decide) h)
  · rw [isAdvancedCreateIndex_eq, parseParsedOnly,
      parseWithTarget_eq _ _ (startsWithCi_of_any (by decide) h), parseCreateIndex_eq]
    · rfl
    · simpa [Fsql.startsWithAny] using h
  · rw [isAdvancedInsert_eq h, ok_bind, parseInsert_eq h]
    exact ite_congr rfl (fun _ ↦ parseWithTarget_eq _ _ h) (fun _ ↦ rfl)
  · rw [isAdvancedSelect_eq h, parseParsedOnly, parseWithTarget_eq _ _ h, parseSelect_eq h]
    rfl
  · rw [isAdvancedUpdate_eq h, ok_bind, parseUpdate_eq h]
    exact ite_congr rfl (fun _ ↦ parseWithTarget_eq _ _ h) (fun _ ↦ rfl)
  · rw [isAdvancedDelete_eq h, ok_bind, parseDelete_eq h]
    exact ite_congr rfl (fun _ ↦ parseWithTarget_eq _ _ h) (fun _ ↦ rfl)
  · rfl

/-- The text an `EXPLAIN` explains. -/
def explained (sql : List Char) : Parse (List Char) := do
  let rest := trim (← sliceFrom sql (len "EXPLAIN"))
  if startsWithCi rest "QUERY PLAN".toList then
    return trim (← sliceFrom rest (len "QUERY PLAN"))
  else return rest

theorem explained_eq {sql : List Char} (h : Fsql.startsWithCi sql "EXPLAIN".toList = true) :
    explained sql = .ok (Fsql.explained sql) := by
  rw [explained, sliceFrom_len h, ok_bind, Fsql.explained]
  generalize trim (sql.drop "EXPLAIN".length) = rest
  dsimp only
  rw [startsWithCi_eq, apply_ite Except.ok]
  refine ite_congr rfl (fun hplan ↦ ?_) (fun _ ↦ rfl)
  rw [sliceFrom_len hplan]
  rfl

/-- `parse_sql_with_dialect` and `parse_explain`, which call each other. -/
def parseSql (sql : List Char) (dialect : SqlDialect) : Parse Statement :=
  if (stripStatement sql).isEmpty then parseError "empty SQL"
  else if hexplain : startsWithCi (stripStatement sql) "EXPLAIN".toList then
    match hrest : explained (stripStatement sql) with
    | .error fault => .error fault
    | .ok rest =>
      if rest.isEmpty then parseError "EXPLAIN requires a statement"
      else (parseSql rest dialect).map Statement.explain
  else parseStatement (stripStatement sql) dialect
termination_by sql.length
decreasing_by
  rw [startsWithCi_eq] at hexplain
  obtain rfl := Except.ok.inj ((explained_eq hexplain).symm.trans hrest)
  exact (length_explained_lt hexplain).trans_le (length_stripStatement_le sql)

/-- `parse_sql_with_dialect`. -/
def parseSqlWithDialect (sql : String) (dialect : SqlDialect) : Parse Statement :=
  parseSql sql.toList dialect

theorem parseSql_eq {fuel : Nat} {sql : List Char} (h : sql.length < fuel) (dialect : SqlDialect) :
    parseSql sql dialect = parseSqlFuel fuel sql dialect := by
  induction fuel generalizing sql with
  | zero => omega
  | succ fuel ih =>
    rw [parseSql, parseSqlFuel]
    refine ite_congr rfl (fun _ ↦ rfl) (fun _ ↦ ?_)
    by_cases hexplain : Fsql.startsWithCi (stripStatement sql) "EXPLAIN".toList = true
    · have hlt := (length_explained_lt hexplain).trans_le (length_stripStatement_le sql)
      rw [dif_pos (by rwa [startsWithCi_eq]), if_pos hexplain]
      split
      · rename_i fault hrest
        cases (explained_eq hexplain).symm.trans hrest
      · rename_i rest hrest
        obtain rfl := Except.ok.inj ((explained_eq hexplain).symm.trans hrest)
        rw [ih (by omega)]
    · rw [dif_neg (by rwa [startsWithCi_eq]), if_neg hexplain, parseStatement_eq]

/-- **The parser on bytes is the parser on characters**, for every text. -/
theorem parseSqlWithDialect_eq (sql : String) (dialect : SqlDialect) :
    parseSqlWithDialect sql dialect = Fsql.parseSqlWithDialect sql dialect :=
  parseSql_eq (Nat.lt_succ_self sql.toList.length) dialect

end ByteParser

end Fsql
