import Fsql.Identifier
import Fsql.Library.Number
import Fsql.Logging
import Fsql.Sql.Ast

/-!
# The parser

`sql/parser.rs`: from a text to a `Statement`, by searching the text for keywords and cutting it
there.

A text is a list of characters.  The positions the source computes are byte positions of ASCII
patterns, which are always character boundaries; here they count characters.  A few of the slices
the source takes have a start that can lie behind their end, and then it panics: parsing ends in a
`Fault`, which is an `Error` or a panic.
-/

set_option autoImplicit false

namespace Fsql

open Number Text

/-- How parsing ends without a statement. -/
inductive Fault
  | error (error : Error)
  | panic
deriving DecidableEq, Repr

/-- The result of a parser that may panic. -/
abbrev Parse := Except Fault

instance : MonadLift Result Parse := ⟨fun result ↦ result.mapError Fault.error⟩

/-- A parse error with a fixed text. -/
abbrev parseError {α : Type} (message : String) : Result α := .error (.parse message)

/-- `&input[start..stop]`, which panics when `stop < start`. -/
def slice (input : List Char) (start stop : Nat) : Parse (List Char) :=
  if start ≤ stop then .ok ((input.take stop).drop start) else .error .panic

/-- `normalize_identifier` of a slice. -/
def identifier (input : List Char) : String := normalizeIdentifier (String.ofList input)

/-! ## Searching without regard to case -/

/-- `starts_with_ci`. -/
def startsWithCi : List Char → List Char → Bool
  | _, [] => true
  | [], _ :: _ => false
  | c :: input, p :: pattern => c.toLower == p.toLower && startsWithCi input pattern

/-- `find_ci`. -/
def findCi (input needle : List Char) : Option Nat := find (lower needle) (lower input)

/-- `strip_suffix_ci`. -/
def stripSuffixCi (input suffix : List Char) : Option (List Char) :=
  if suffix.length ≤ input.length ∧
      eqIgnoreCase (input.drop (input.length - suffix.length)) suffix then
    some (input.take (input.length - suffix.length))
  else none

/-- One of the patterns occurs in the text. -/
def containsAny (input : List Char) (patterns : List String) : Bool :=
  patterns.any fun pattern ↦ contains input pattern.toList

/-! ## Splitting outside quotes, parentheses and brackets -/

/-- The state of the loops of `split_top_level` and `split_once_top_level`. -/
structure Scan where
  /-- The quote that has been opened. -/
  quote : Option Char := none
  /-- The parentheses that are open. -/
  parens : Nat := 0
  /-- The brackets that are open. -/
  brackets : Nat := 0
deriving DecidableEq, Repr

namespace Scan

/-- What a character does to the state. -/
def next (s : Scan) (ch : Char) : Scan :=
  match s.quote with
  | some active => if ch = active then { s with quote := none } else s
  | none =>
    if ch = '\'' ∨ ch = '"' then { s with quote := some ch }
    else if ch = '(' then { s with parens := s.parens + 1 }
    else if ch = ')' then { s with parens := s.parens - 1 }
    else if ch = '[' then { s with brackets := s.brackets + 1 }
    else if ch = ']' then { s with brackets := s.brackets - 1 }
    else s

/-- The character is a delimiter at the top level. -/
def cuts (s : Scan) (delimiter ch : Char) : Bool :=
  s.quote.isNone && !(['\'', '"', '(', ')', '[', ']'].contains ch) && ch == delimiter &&
    s.parens == 0 && s.brackets == 0

/-- The text before and behind the first top-level delimiter. -/
def splitOnce (delimiter : Char) : Scan → List Char → Option (List Char × List Char)
  | _, [] => none
  | s, ch :: input =>
    if s.cuts delimiter ch then some ([], input)
    else (splitOnce delimiter (s.next ch) input).map fun p ↦ (ch :: p.1, p.2)

/-- The pieces of a text between its top-level delimiters. -/
def pieces (delimiter : Char) : Scan → List Char → List (List Char)
  | _, [] => [[]]
  | s, ch :: input =>
    if s.cuts delimiter ch then [] :: pieces delimiter s input
    else (pieces delimiter (s.next ch) input).modifyHead (ch :: ·)

end Scan

/-- `split_once_top_level`. -/
def splitOnceTopLevel (input : List Char) (delimiter : Char) : Option (List Char × List Char) :=
  Scan.splitOnce delimiter {} input

/-- `split_top_level`: the pieces are trimmed. -/
def splitTopLevel (input : List Char) (delimiter : Char) : List (List Char) :=
  (Scan.pieces delimiter {} input).map trim

/-- `parenthesized_body`. -/
def parenthesizedBody (input : List Char) (context : String) : Result (List Char) :=
  let input := trim input
  if input.head? = some '(' ∧ input.getLast? = some ')' then .ok input.tail.dropLast
  else parseError s!"{context} requires parentheses"

/-- The loop of `has_multiple_top_level_parenthesized_groups`. -/
def multipleGroups : Option Char → Nat → Nat → List Char → Bool
  | _, _, _, [] => false
  | some active, parens, groups, ch :: input =>
    multipleGroups (if ch = active then none else some active) parens groups input
  | none, parens, groups, ch :: input =>
    if ch = '\'' ∨ ch = '"' then multipleGroups (some ch) parens groups input
    else if ch = '(' then
      if parens = 0 then
        if 1 < groups + 1 then true else multipleGroups none (parens + 1) (groups + 1) input
      else multipleGroups none (parens + 1) groups input
    else if ch = ')' then multipleGroups none (parens - 1) groups input
    else multipleGroups none parens groups input

/-- `has_multiple_top_level_parenthesized_groups`. -/
def hasMultipleTopLevelParenthesizedGroups (input : List Char) : Bool :=
  multipleGroups none 0 0 input

/-! ## Values -/

/-- `str::parse` at `f64`. -/
def f64FromStr (input : List Char) : Option F64 :=
  let (negative, body) := match input with
    | '-' :: body => (true, body)
    | '+' :: body => (false, body)
    | body => (false, body)
  let magnitude : Option F64 :=
    if eqIgnoreCase body "inf".toList || eqIgnoreCase body "infinity".toList then
      some ⟨0x7ff0000000000000⟩
    else if eqIgnoreCase body "nan".toList then some ⟨0x7ff8000000000000⟩
    else (parseScientific body).map fun p ↦
      F64.ofFloat (Float.ofScientific p.1 (p.2 < 0) p.2.natAbs)
  magnitude.map fun x ↦ if negative then ⟨x.bits ^^^ 0x8000000000000000⟩ else x

/-- `str::parse` at `f32`. -/
def f32FromStr (input : List Char) : Option F32 :=
  let (negative, body) := match input with
    | '-' :: body => (true, body)
    | '+' :: body => (false, body)
    | body => (false, body)
  let magnitude : Option F32 :=
    if eqIgnoreCase body "inf".toList || eqIgnoreCase body "infinity".toList then
      some ⟨0x7f800000⟩
    else if eqIgnoreCase body "nan".toList then some ⟨0x7fc00000⟩
    else (parseScientific body).map fun p ↦
      F32.ofFloat32 (Float32.ofScientific p.1 (p.2 < 0) p.2.natAbs)
  magnitude.map fun x ↦ if negative then ⟨x.bits ^^^ 0x80000000⟩ else x

/-- `parse_f64`. -/
def parseF64 (input : List Char) : Result F64 :=
  match f64FromStr (trim input) with
  | none => parseError s!"invalid float {String.ofList (trim input)}"
  | some value => if value.isFinite then .ok value else parseError "float must be finite"

/-- `parse_f32`. -/
def parseF32 (input : List Char) : Result F32 :=
  match f32FromStr (trim input) with
  | none => parseError s!"invalid float {String.ofList (trim input)}"
  | some value => if value.isFinite then .ok value else parseError "float must be finite"

/-- `parse_quoted_string`: only the first and the last character are looked at. -/
def parseQuotedString (input : List Char) : Option (List Char) :=
  match input with
  | quote :: c :: rest =>
    if (quote = '\'' ∨ quote = '"') ∧ (c :: rest).getLast? = some quote then
      some (undouble quote (c :: rest).dropLast)
    else none
  | _ => none

/-- `parse_value`. -/
def parseValue (input : List Char) : Result Value :=
  let input := trim input
  if eqIgnoreCase input "NULL".toList then .ok .null
  else if eqIgnoreCase input "TRUE".toList then .ok (.boolean true)
  else if eqIgnoreCase input "FALSE".toList then .ok (.boolean false)
  else
    match parseQuotedString input with
    | some value => .ok (.text (String.ofList value))
    | none =>
      if startsWithCi input "POINT".toList then do
        let body ← parenthesizedBody (input.drop "POINT".length) "POINT"
        match splitTopLevel body ',' with
        | [lon, lat] => do
          let lon ← parseF64 lon
          let lat ← parseF64 lat
          return .point ⟨lon, lat⟩
        | _ => parseError "POINT requires lon and lat"
      else if input.head? = some '[' ∧ input.getLast? = some ']' then
        let body := input.tail.dropLast
        if (trim body).isEmpty then .ok (.vector [])
        else do
          let vector ← (splitTopLevel body ',').mapM parseF32
          return .vector vector
      else if input.contains '.' || input.contains 'e' || input.contains 'E' then do
        let value ← parseF64 input
        return .float value
      else
        match parseInt (2 ^ 63 - 1) input with
        | some value => .ok (.integer (Int64.ofInt value))
        | none => parseError s!"could not parse value {String.ofList input}"

/-! ## Clauses -/

/-- `parse_projection`. -/
def parseProjection (input : List Char) : Result Projection :=
  if trim input = ['*'] then .ok .all
  else
    let columns := (splitTopLevel input ',').map identifier
    if columns.contains "" then parseError "empty projection column" else .ok (.columns columns)

/-- `parse_filter`. -/
def parseFilter (input : List Char) : Result Filter :=
  if startsWithCi input "MATCH".toList then do
    let body ← parenthesizedBody (input.drop "MATCH".length) "MATCH"
    match splitTopLevel body ',' with
    | [column, query] => do
      match ← parseValue query with
      | .text query => return .fullText (identifier column) query
      | _ => parseError "MATCH query must be a string"
    | _ => parseError "MATCH requires column and query"
  else if startsWithCi input "GEO_DISTANCE".toList then do
    let (function, meters, inclusive) ← (match find "<=".toList input with
      | some pos => .ok (input.take pos, input.drop (pos + 2), true)
      | none =>
        match findChar '<' input with
        | some pos => .ok (input.take pos, input.drop (pos + 1), false)
        | none => parseError "GEO_DISTANCE requires < or <="
      : Result (List Char × List Char × Bool))
    let body ← parenthesizedBody (function.drop "GEO_DISTANCE".length) "GEO_DISTANCE"
    match splitTopLevel body ',' with
    | [column, point] => do
      match ← parseValue point with
      | .point point =>
        match f64FromStr (trim meters) with
        | some meters => return .geoWithin (identifier column) point meters inclusive
        | none => parseError "GEO_DISTANCE threshold must be numeric"
      | _ => parseError "GEO_DISTANCE target must be POINT"
    | _ => parseError "GEO_DISTANCE requires column and point"
  else
    match splitOnceTopLevel input '=' with
    | some (column, value) => do
      let value ← parseValue value
      return .equals (identifier column) value
    | none => parseError "unsupported WHERE clause"

/-- `parse_order`. -/
def parseOrder (input : List Char) : Result Order :=
  let (input, descending) := match stripSuffixCi input " DESC".toList with
    | some stripped => (trim stripped, true)
    | none =>
      match stripSuffixCi input " ASC".toList with
      | some stripped => (trim stripped, false)
      | none => (trim input, false)
  if !startsWithCi input "VECTOR_DISTANCE".toList then
    parseError "only VECTOR_DISTANCE ordering is currently supported"
  else do
    let body ← parenthesizedBody (input.drop "VECTOR_DISTANCE".length) "VECTOR_DISTANCE"
    match splitTopLevel body ',' with
    | [column, target] => do
      match ← parseValue target with
      | .vector target => return .vectorDistance (identifier column) target descending
      | _ => parseError "VECTOR_DISTANCE target must be a vector"
    | _ => parseError "VECTOR_DISTANCE requires column and vector"

/-- `ColumnType::parse`. -/
def ColumnType.parse (input : List Char) : Result ColumnType :=
  let name := String.ofList (lower (trim input))
  if ["int", "integer"].contains name then .ok .integer
  else if ["float", "real", "double"].contains name then .ok .float
  else if ["bool", "boolean"].contains name then .ok .boolean
  else if ["text", "string"].contains name then .ok .text
  else if name = "vector" then .ok .vector
  else if ["point", "geo", "geography", "coordinate"].contains name then .ok .point
  else parseError s!"unknown column type {name}"

/-! ## Executable statements -/

/-- The smallest of the positions that were found. -/
def minPosition (positions : List (Option Nat)) : Option Nat :=
  (positions.filterMap id).min?

/-- One column definition of `parse_create_table`. -/
def parseColumn (definition : List Char) : Result Column :=
  match splitWhitespace definition with
  | name :: ty :: _ => do
    let ty ← ColumnType.parse ty
    return ⟨identifier name, ty, contains (lower definition) "primary key".toList⟩
  | _ => parseError "column definition requires name and type"

/-- `parse_create_table`. -/
def parseCreateTable (sql : List Char) : Parse Statement := do
  let rest := trim (sql.drop "CREATE TABLE".length)
  match findChar '(' rest with
  | none => throw (.error (.parse "CREATE TABLE requires a column list"))
  | some opening =>
    match rfindChar ')' rest with
    | none => throw (.error (.parse "CREATE TABLE requires a closing parenthesis"))
    | some closing =>
      if closing ≤ opening then throw (.error (.parse "invalid CREATE TABLE column list"))
      let name := identifier (rest.take opening)
      if name = "" then throw (.error (.parse "CREATE TABLE requires a table name"))
      let body ← slice rest (opening + 1) closing
      let columns ← ((splitTopLevel body ',').mapM parseColumn : Result (List Column))
      return .createTable name columns

/-- `parse_create_index`. -/
def parseCreateIndex (sql : List Char) : Parse Statement := do
  let fulltext := startsWithCi sql "CREATE FULLTEXT INDEX".toList
  let rest := trim (sql.drop (if fulltext then "CREATE FULLTEXT INDEX" else "CREATE INDEX").length)
  match findCi rest " ON ".toList with
  | none => throw (.error (.parse "CREATE INDEX requires ON table(column)"))
  | some onPos =>
    let target := trim (rest.drop (onPos + " ON ".length))
    match findChar '(' target with
    | none => throw (.error (.parse "CREATE INDEX requires a column"))
    | some opening =>
      match rfindChar ')' target with
      | none => throw (.error (.parse "CREATE INDEX requires a closing parenthesis"))
      | some closing =>
        let column ← slice target (opening + 1) closing
        return .createIndex (identifier (rest.take onPos)) (identifier (target.take opening))
          (identifier column) fulltext

/-- The table and the columns of an `INSERT`. -/
def parseInsertTarget (target : List Char) : Parse (String × Option (List String)) :=
  match findChar '(' target with
  | none => .ok (identifier target, none)
  | some opening =>
    match rfindChar ')' target with
    | none => .error (.error (.parse "INSERT column list is not closed"))
    | some closing => do
      let columns ← slice target (opening + 1) closing
      return (identifier (target.take opening), some ((splitTopLevel columns ',').map identifier))

/-- `parse_insert`. -/
def parseInsert (sql : List Char) : Parse Statement := do
  let rest := trim (sql.drop "INSERT INTO".length)
  match findCi rest "VALUES".toList with
  | none => throw (.error (.parse "INSERT requires VALUES"))
  | some valuesPos =>
    let (table, columns) ← parseInsertTarget (trim (rest.take valuesPos))
    let body ← parenthesizedBody (trim (rest.drop (valuesPos + "VALUES".length))) "INSERT VALUES"
    let values ← ((splitTopLevel body ',').mapM parseValue : Result (List Value))
    return .insert table columns values

/-- The positions of the clauses of a `SELECT` behind its `FROM`. -/
structure SelectClauses where
  /-- ` WHERE `. -/
  wherePos : Option Nat
  /-- ` ORDER BY `. -/
  orderPos : Option Nat
  /-- ` LIMIT `. -/
  limitPos : Option Nat
  /-- The end of the table name. -/
  tableEnd : Nat

/-- Find the clauses of a `SELECT`. -/
def selectClauses (fromRest : List Char) : SelectClauses :=
  let wherePos := findCi fromRest " WHERE ".toList
  let orderPos := findCi fromRest " ORDER BY ".toList
  let limitPos := findCi fromRest " LIMIT ".toList
  ⟨wherePos, orderPos, limitPos,
    (minPosition [wherePos, orderPos, limitPos]).getD fromRest.length⟩

namespace SelectClauses

/-- The text of the `WHERE` clause that begins at `pos`. -/
def whereText (clauses : SelectClauses) (fromRest : List Char) (pos : Nat) : Parse (List Char) :=
  let stop := (minPosition ([clauses.orderPos, clauses.limitPos].map
    fun position ↦ position.filter (pos < ·))).getD fromRest.length
  return trim (← slice fromRest (pos + " WHERE ".length) stop)

/-- The text of the `ORDER BY` clause that begins at `pos`. -/
def orderText (clauses : SelectClauses) (fromRest : List Char) (pos : Nat) : Parse (List Char) :=
  let stop := (clauses.limitPos.filter (pos < ·)).getD fromRest.length
  return trim (← slice fromRest (pos + " ORDER BY ".length) stop)

end SelectClauses

/-- The argument of a `LIMIT`. -/
def parseLimit (input : List Char) : Result Nat :=
  match parseNat (2 ^ 64 - 1) (trim input) with
  | some limit => .ok limit
  | none => parseError "LIMIT requires a non-negative integer"

/-- `parse_select`. -/
def parseSelect (sql : List Char) : Parse Statement := do
  let rest := trim (sql.drop "SELECT".length)
  match findCi rest " FROM ".toList with
  | none => throw (.error (.parse "SELECT requires FROM"))
  | some fromPos =>
    let projection ← parseProjection (rest.take fromPos)
    let fromRest := trim (rest.drop (fromPos + " FROM ".length))
    let clauses := selectClauses fromRest
    let filter ← clauses.wherePos.mapM fun pos ↦ do
      let filter ← parseFilter (← clauses.whereText fromRest pos)
      return filter
    let order ← clauses.orderPos.mapM fun pos ↦ do
      let order ← parseOrder (← clauses.orderText fromRest pos)
      return order
    let limit ← clauses.limitPos.mapM fun pos ↦ do
      let limit ← parseLimit (fromRest.drop (pos + " LIMIT ".length))
      return limit
    return .select (identifier (fromRest.take clauses.tableEnd)) projection filter order limit

/-- One assignment of an `UPDATE`. -/
def parseAssignment (assignment : List Char) : Result (String × Value) :=
  match splitOnceTopLevel assignment '=' with
  | none => parseError "assignment requires ="
  | some (column, value) => do
    let value ← parseValue value
    return (identifier column, value)

/-- `parse_update`. -/
def parseUpdate (sql : List Char) : Result Statement := do
  let rest := trim (sql.drop "UPDATE".length)
  match findCi rest " SET ".toList with
  | none => parseError "UPDATE requires SET"
  | some setPos =>
    let afterSet := trim (rest.drop (setPos + " SET ".length))
    let wherePos := findCi afterSet " WHERE ".toList
    let assignmentsPart := trim (afterSet.take (wherePos.getD afterSet.length))
    let filter ← wherePos.mapM fun pos ↦ parseFilter (trim (afterSet.drop (pos + " WHERE ".length)))
    let assignments ← (splitTopLevel assignmentsPart ',').mapM parseAssignment
    return .update (identifier (rest.take setPos)) assignments filter

/-- `parse_delete`. -/
def parseDelete (sql : List Char) : Result Statement := do
  let rest := trim (sql.drop "DELETE FROM".length)
  let wherePos := findCi rest " WHERE ".toList
  let table := identifier (rest.take (wherePos.getD rest.length))
  if table = "" then parseError "DELETE requires a table name"
  else
    let filter ← wherePos.mapM fun pos ↦ parseFilter (trim (rest.drop (pos + " WHERE ".length)))
    return .delete table filter

/-! ## Statements that are parsed and not executed -/

/-- `parse_parsed_only`, `parse_attach_or_detach`, `parse_drop` and `parse_advanced_insert_kind`:
something must follow the prefix. -/
def parseWithTarget (required : String) (sql : List Char) (kind : ParsedOnlyStatementKind)
    (pre : String) : Result Statement :=
  if (trim (sql.drop pre.length)).isEmpty then
    parseError s!"{kind.asStr} requires {required}"
  else .ok (.parsedOnly kind (String.ofList sql))

/-- `parse_parsed_only`. -/
def parseParsedOnly : List Char → ParsedOnlyStatementKind → String → Result Statement :=
  parseWithTarget "a target"

/-- `parse_attach_or_detach`. -/
def parseAttachOrDetach : List Char → ParsedOnlyStatementKind → String → Result Statement :=
  parseWithTarget "a database"

/-- `parse_drop`. -/
def parseDrop : List Char → ParsedOnlyStatementKind → String → Result Statement :=
  parseWithTarget "a name"

/-- `parse_advanced_insert_kind`. -/
def parseAdvancedInsertKind : List Char → ParsedOnlyStatementKind → String → Result Statement :=
  parseWithTarget "a target"

/-- `parse_alter_table`. -/
def parseAlterTable (sql : List Char) : Result Statement :=
  let rest := trim (sql.drop "ALTER TABLE".length)
  if rest.isEmpty || !containsAny (lower rest) [" add ", " drop ", " rename ", " alter "] then
    parseError "ALTER TABLE requires ADD, DROP, RENAME, or ALTER action"
  else .ok (.parsedOnly .alterTable (String.ofList sql))

/-- `parse_create_view`. -/
def parseCreateView (sql : List Char) : Result Statement :=
  if (findCi sql " AS ".toList).isNone then parseError "CREATE VIEW requires AS SELECT"
  else .ok (.parsedOnly .createView (String.ofList sql))

/-- `parse_create_trigger`. -/
def parseCreateTrigger (sql : List Char) : Result Statement :=
  if (findCi sql " BEGIN ".toList).isNone ||
      !endsWith (lower (sql.rdropWhile isWhitespace)) "end".toList then
    parseError "CREATE TRIGGER requires BEGIN ... END"
  else .ok (.parsedOnly .createTrigger (String.ofList sql))

/-- `parse_create_virtual_table`. -/
def parseCreateVirtualTable (sql : List Char) : Result Statement :=
  if (findCi sql " USING ".toList).isNone then parseError "CREATE VIRTUAL TABLE requires USING"
  else .ok (.parsedOnly .createVirtualTable (String.ofList sql))

/-! ## Which statements are advanced -/

/-- `is_advanced_create_table`. -/
def isAdvancedCreateTable (sql : List Char) : Bool :=
  containsAny (lower sql) [" if not exists", " without rowid"] ||
    endsWith (lower sql) " strict".toList ||
    containsAny (lower sql) [" as select", " constraint ", " foreign key", " primary key (",
      " check ", " check(", " unique", " default ", " not null", " references ", " generated ",
      " collate ", " autoincrement"]

/-- `is_advanced_create_index`. -/
def isAdvancedCreateIndex (sql : List Char) : Parse Bool :=
  if containsAny (lower sql) [" if not exists", " where ", " collate ", " desc", " asc"] then
    .ok true
  else
    match findChar '(' sql, rfindChar ')' sql with
    | some opening, some closing => do
      let inner ← slice sql (opening + 1) closing
      return (splitTopLevel inner ',').length != 1 || inner.contains '(' ||
        decide (1 < (splitWhitespace inner).length)
    | _, _ => .ok false

/-- `is_advanced_insert_rest`. -/
def isAdvancedInsertRest (rest : List Char) : Bool :=
  if rest.isEmpty then false
  else if contains (lower rest) " default values".toList ||
      endsWith (lower rest) "default values".toList ||
      containsAny (lower rest) [" on conflict", " returning "] then true
  else
    match findCi rest "VALUES".toList with
    | none =>
      startsWithCi rest "SELECT".toList || startsWithCi rest "WITH".toList ||
        (findCi rest " SELECT ".toList).isSome || (findCi rest " WITH ".toList).isSome
    | some valuesPos =>
      hasMultipleTopLevelParenthesizedGroups (trim (rest.drop (valuesPos + "VALUES".length)))

/-- `is_advanced_insert`. -/
def isAdvancedInsert (sql : List Char) : Bool :=
  isAdvancedInsertRest (trim (sql.drop "INSERT INTO".length))

/-- `is_supported_fromless_select`. -/
def isSupportedFromlessSelect (rest : List Char) : Bool :=
  let rest := trim rest
  !rest.isEmpty && !(rest.head? == some '*' && rest != ['*'])

/-- `is_advanced_projection`. -/
def isAdvancedProjection (input : List Char) : Bool :=
  let input := trim input
  if input.isEmpty || input == ['*'] then false
  else
    containsAny (lower input)
      [" as ", "(", " + ", " - ", " * ", " / ", " || ", " case "]

/-- `is_advanced_from`. -/
def isAdvancedFrom (input : List Char) : Bool :=
  let input := trim input
  if input.isEmpty then false
  else
    containsAny (lower input) [" join ", ",", " as ", "("] ||
      decide (1 < (splitWhitespace input).length)

/-- A `Result` that is an error. -/
def isErr {α : Type} (result : Result α) : Bool := !result.toBool

/-- `is_advanced_where_clause`. -/
def isAdvancedWhereClause (input : List Char) : Bool :=
  let input := trim input
  if input.isEmpty || (parseFilter input).toBool then false
  else if startsWithCi input "MATCH".toList || startsWithCi input "GEO_DISTANCE".toList then false
  else
    containsAny (' ' :: (lower input ++ [' '])) [" and ", " or ", " in ", " is ", " between ",
      " like ", " glob ", " regexp ", " exists ", " not "] ||
    input.contains '>' || input.contains '<' || containsAny input ["!=", "<>"] ||
    (splitOnceTopLevel input '=').isSome

/-- `is_advanced_order_clause`. -/
def isAdvancedOrderClause (input : List Char) : Bool :=
  let input := trim input
  if input.isEmpty || (parseOrder input).toBool then false
  else !startsWithCi input "VECTOR_DISTANCE".toList

/-- `is_advanced_select`. -/
def isAdvancedSelect (sql : List Char) : Parse Bool := do
  let rest := trim (sql.drop "SELECT".length)
  if rest.isEmpty then return false
  if startsWithCi rest "DISTINCT".toList || startsWithCi rest "ALL".toList ||
      containsAny (lower rest) [" union ", " intersect ", " except ", " window "] then
    return true
  match findCi rest " FROM ".toList with
  | none => return isSupportedFromlessSelect rest
  | some fromPos =>
    if isAdvancedProjection (rest.take fromPos) then return true
    let fromRest := trim (rest.drop (fromPos + " FROM ".length))
    if (findCi fromRest " GROUP BY ".toList).isSome || (findCi fromRest " HAVING ".toList).isSome ||
        (findCi fromRest " OFFSET ".toList).isSome ||
        (findCi fromRest " WINDOW ".toList).isSome then
      return true
    let clauses := selectClauses fromRest
    if isAdvancedFrom (fromRest.take clauses.tableEnd) then return true
    let advancedWhere ← (match clauses.wherePos with
      | none => .ok false
      | some pos => do
        let text ← clauses.whereText fromRest pos
        return isAdvancedWhereClause text : Parse Bool)
    if advancedWhere then return true
    match clauses.orderPos with
    | none => return false
    | some pos =>
      let text ← clauses.orderText fromRest pos
      return isAdvancedOrderClause text

/-- The loop of `is_advanced_update` over the assignments: `some` answer when it returns. -/
def advancedAssignments : List (List Char) → Option Bool
  | [] => none
  | assignment :: rest =>
    match splitOnceTopLevel assignment '=' with
    | none => some false
    | some (_, value) => if isErr (parseValue value) then some true else advancedAssignments rest

/-- `is_advanced_update`. -/
def isAdvancedUpdate (sql : List Char) : Bool :=
  let rest := trim (sql.drop "UPDATE".length)
  if rest.isEmpty then false
  else if containsAny (lower rest) [" from ", " returning ", " order by ", " limit "] then true
  else
    match findCi rest " SET ".toList with
    | none => false
    | some setPos =>
      let afterSet := trim (rest.drop (setPos + " SET ".length))
      let wherePos := findCi afterSet " WHERE ".toList
      let assignmentsPart := trim (afterSet.take (wherePos.getD afterSet.length))
      if assignmentsPart.isEmpty then false
      else
        match advancedAssignments (splitTopLevel assignmentsPart ',') with
        | some advanced => advanced
        | none =>
          match wherePos with
          | none => false
          | some pos => isAdvancedWhereClause (trim (afterSet.drop (pos + " WHERE ".length)))

/-- `is_advanced_delete`. -/
def isAdvancedDelete (sql : List Char) : Bool :=
  let rest := trim (sql.drop "DELETE FROM".length)
  if rest.isEmpty then false
  else if containsAny (lower rest) [" returning ", " order by ", " limit ", " using "] then true
  else
    let wherePos := findCi rest " WHERE ".toList
    if isAdvancedFrom (trim (rest.take (wherePos.getD rest.length))) then true
    else
      match wherePos with
      | none => false
      | some pos => isAdvancedWhereClause (trim (rest.drop (pos + " WHERE ".length)))

/-! ## Statements -/

/-- The text is one of the given ones, up to case. -/
def isOneOf (sql : List Char) (texts : List String) : Bool :=
  texts.any fun text ↦ eqIgnoreCase sql text.toList

/-- `is_begin`. -/
def isBegin (sql : List Char) (dialect : SqlDialect) : Bool :=
  isOneOf sql ["BEGIN", "BEGIN TRANSACTION", "BEGIN WORK"] ||
    (dialect == .sqlite && isOneOf sql ["BEGIN IMMEDIATE", "BEGIN EXCLUSIVE", "BEGIN DEFERRED"]) ||
    (dialect == .postgreSql && isOneOf sql ["BEGIN WORK"])

/-- `is_commit`. -/
def isCommit (sql : List Char) (dialect : SqlDialect) : Bool :=
  isOneOf sql ["COMMIT", "COMMIT TRANSACTION"] ||
    (dialect == .sqlite && isOneOf sql ["END"]) ||
    (dialect == .postgreSql && isOneOf sql ["COMMIT WORK"])

/-- `is_rollback`. -/
def isRollback (sql : List Char) (dialect : SqlDialect) : Bool :=
  isOneOf sql ["ROLLBACK", "ROLLBACK TRANSACTION"] ||
    (dialect == .postgreSql && isOneOf sql ["ROLLBACK WORK"])

/-- `sql.trim().trim_end_matches(';').trim()`. -/
def stripStatement (sql : List Char) : List Char := trim (trimEndMatches ';' (trim sql))

/-- The text starts with one of the given ones, up to case. -/
def startsWithAny (sql : List Char) (texts : List String) : Bool :=
  texts.any fun text ↦ startsWithCi sql text.toList

/-- The branches of `parse_sql_with_dialect` behind `EXPLAIN`, for a stripped text. -/
def parseStatement (sql : List Char) (dialect : SqlDialect) : Parse Statement :=
  let starts := fun text : String ↦ startsWithCi sql text.toList
  if starts "WITH" then parseParsedOnly sql .withClause "WITH"
  else if starts "VALUES" then parseParsedOnly sql .values "VALUES"
  else if isBegin sql dialect then .ok .begin
  else if isCommit sql dialect then .ok .commit
  else if isRollback sql dialect then .ok .rollback
  else if starts "INSERT OR " then parseAdvancedInsertKind sql .insert "INSERT"
  else if starts "UPDATE OR " then parseParsedOnly sql .update "UPDATE"
  else if starts "ROLLBACK TO" then parseParsedOnly sql .rollbackTo "ROLLBACK TO"
  else if starts "SAVEPOINT" then parseParsedOnly sql .savepoint "SAVEPOINT"
  else if starts "RELEASE" then parseParsedOnly sql .release "RELEASE"
  else if starts "ALTER TABLE" then parseAlterTable sql
  else if starts "ANALYZE" then parseParsedOnly sql .analyze "ANALYZE"
  else if starts "ATTACH" then parseAttachOrDetach sql .attach "ATTACH"
  else if starts "DETACH" then parseAttachOrDetach sql .detach "DETACH"
  else if starts "CREATE TABLE" then
    if isAdvancedCreateTable sql then parseParsedOnly sql .createTable "CREATE TABLE"
    else parseCreateTable sql
  else if startsWithAny sql ["CREATE TEMP TABLE", "CREATE TEMPORARY TABLE"] then
    parseParsedOnly sql .createTable "CREATE"
  else if startsWithAny sql ["CREATE VIEW", "CREATE TEMP VIEW", "CREATE TEMPORARY VIEW"] then
    parseCreateView sql
  else if startsWithAny sql
      ["CREATE TRIGGER", "CREATE TEMP TRIGGER", "CREATE TEMPORARY TRIGGER"] then
    parseCreateTrigger sql
  else if starts "CREATE VIRTUAL TABLE" then parseCreateVirtualTable sql
  else if startsWithAny sql ["CREATE UNIQUE INDEX", "CREATE INDEX IF NOT EXISTS",
      "CREATE UNIQUE INDEX IF NOT EXISTS"] then
    parseParsedOnly sql .createIndex "CREATE"
  else if startsWithAny sql ["CREATE FULLTEXT INDEX", "CREATE INDEX"] then do
    if ← isAdvancedCreateIndex sql then parseParsedOnly sql .createIndex "CREATE"
    else parseCreateIndex sql
  else if starts "DROP INDEX" then parseDrop sql .dropIndex "DROP INDEX"
  else if starts "DROP TABLE" then parseDrop sql .dropTable "DROP TABLE"
  else if starts "DROP TRIGGER" then parseDrop sql .dropTrigger "DROP TRIGGER"
  else if starts "DROP VIEW" then parseDrop sql .dropView "DROP VIEW"
  else if starts "INSERT INTO" then
    if isAdvancedInsert sql then parseAdvancedInsertKind sql .insert "INSERT INTO"
    else parseInsert sql
  else if starts "REPLACE INTO" then parseAdvancedInsertKind sql .replace "REPLACE INTO"
  else if starts "SELECT" then do
    if ← isAdvancedSelect sql then parseParsedOnly sql .select "SELECT" else parseSelect sql
  else if starts "UPDATE" then
    if isAdvancedUpdate sql then parseParsedOnly sql .update "UPDATE" else parseUpdate sql
  else if starts "DELETE FROM" then
    if isAdvancedDelete sql then parseParsedOnly sql .delete "DELETE FROM" else parseDelete sql
  else if starts "PRAGMA" then parseParsedOnly sql .pragma "PRAGMA"
  else if starts "REINDEX" then parseParsedOnly sql .reindex "REINDEX"
  else if starts "VACUUM" then parseParsedOnly sql .vacuum "VACUUM"
  else throw (.error (.parse "unsupported SQL statement"))

/-- The text an `EXPLAIN` explains. -/
def explained (sql : List Char) : List Char :=
  let rest := trim (sql.drop "EXPLAIN".length)
  if startsWithCi rest "QUERY PLAN".toList then trim (rest.drop "QUERY PLAN".length) else rest

/-- `parse_sql_with_dialect` and `parse_explain`, which call each other, for at most `fuel` nested
`EXPLAIN`s. -/
def parseSqlFuel : Nat → List Char → SqlDialect → Parse Statement
  | 0, _, _ => .error (.error (.parse "unsupported SQL statement"))
  | fuel + 1, sql, dialect =>
    let sql := stripStatement sql
    if sql.isEmpty then .error (.error (.parse "empty SQL"))
    else if startsWithCi sql "EXPLAIN".toList then
      if (explained sql).isEmpty then .error (.error (.parse "EXPLAIN requires a statement"))
      else (parseSqlFuel fuel (explained sql) dialect).map Statement.explain
    else parseStatement sql dialect

/-- `parse_sql_with_dialect`. -/
def parseSqlWithDialect (sql : String) (dialect : SqlDialect) : Parse Statement :=
  parseSqlFuel (sql.length + 1) sql.toList dialect

/-! ## Shorter texts -/

theorem length_stripStatement_le (l : List Char) : (stripStatement l).length ≤ l.length := by
  have hsemicolon : (trimEndMatches ';' (trim l)).length ≤ (trim l).length :=
    (List.rdropWhile_prefix _ _).length_le
  exact (length_trimBy_le _ _).trans (hsemicolon.trans (length_trimBy_le _ _))

theorem length_le_of_startsWithCi {l pattern : List Char} (h : startsWithCi l pattern = true) :
    pattern.length ≤ l.length := by
  induction pattern generalizing l with
  | nil => exact Nat.zero_le _
  | cons p pattern ih =>
    rcases l with _ | ⟨c, l⟩
    · cases h
    · rw [startsWithCi, Bool.and_eq_true] at h
      exact Nat.succ_le_succ (ih h.2)

/-- What is explained is shorter than the `EXPLAIN`. -/
theorem length_explained_lt {l : List Char} (h : startsWithCi l "EXPLAIN".toList = true) :
    (explained l).length < l.length := by
  have hlength : 7 ≤ l.length := length_le_of_startsWithCi h
  have hrest : (trim (l.drop 7)).length ≤ l.length - 7 :=
    (length_trimBy_le _ _).trans List.length_drop.le
  have hplan (n : Nat) : (trim ((trim (l.drop 7)).drop n)).length ≤ (trim (l.drop 7)).length :=
    (length_trimBy_le _ _).trans (List.length_drop.le.trans (Nat.sub_le _ _))
  have hexplained : (explained l).length ≤ (trim (l.drop 7)).length := by
    rw [explained]
    split
    · exact hplan _
    · exact Nat.le_refl _
  omega

end Fsql
