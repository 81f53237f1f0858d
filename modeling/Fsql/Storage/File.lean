import Fsql.Sql.Parser
import Fsql.Storage.Catalog
import Fsql.Storage.Decode

/-!
# The text of a database file

`storage/catalog.rs`: a catalog is written as lines of fields, a block of lines for each table, and
read back line by line.  The reader keeps the tables that are complete and the one it is inside of;
`decodeLine` is what it does with one line.

Row ids are natural numbers here, as in a table, so the reader accepts ids from `2 ^ 64` on, which
the source's `u64` rejects.
-/

set_option autoImplicit false

namespace Fsql

open Number Text

/-! ## Writing -/

/-- A line of fields. -/
def encodeLine (parts : List (List Char)) : List Char := join '\t' parts

/-- The fields of a row. -/
def encodeFields (row : Row) : List (List Char) :=
  row.toList.map fun entry ↦ (encodeString entry.1).toList ++ '=' :: encodeValue entry.2

/-- The fields of a `COLUMN` line. -/
def columnLine (column : Column) : List (List Char) :=
  ["COLUMN".toList, (encodeString column.name).toList, column.ty.asStr.toList,
    if column.primaryKey then ['1'] else ['0']]

/-- The fields of an `INDEX` line, for the name and the column of an index. -/
def indexLine (entry : String × String) : List (List Char) :=
  ["INDEX".toList, (encodeString entry.1).toList, (encodeString entry.2).toList]

/-- The fields of an `FTS` line, for the name and the column of a full-text index. -/
def ftsLine (entry : String × String) : List (List Char) :=
  ["FTS".toList, (encodeString entry.1).toList, (encodeString entry.2).toList]

/-- The fields of a `ROW` line. -/
def rowLine (entry : RowId × Row) : List (List Char) :=
  "ROW".toList :: decimal entry.1 :: encodeFields entry.2

/-- The fields of the lines of a table. -/
def encodeTable (t : Table) : List (List (List Char)) :=
  ["TABLE".toList, (encodeString t.name).toList] ::
    (t.columns.map columnLine ++ (Table.indexColumns t.indexes).map indexLine ++
      (Table.indexColumns t.fulltextIndexes).map ftsLine ++ t.rows.toList.map rowLine ++
      [["ENDTABLE".toList]])

/-- The lines of a catalog. -/
def Catalog.encodeLines (catalog : Catalog) : List (List Char) :=
  "FSQ1".toList :: catalog.tables.toList.flatMap fun entry ↦ (encodeTable entry.2).map encodeLine

/-- `Catalog::encode`. -/
def Catalog.encode (catalog : Catalog) : String :=
  String.ofList (catalog.encodeLines.flatMap (· ++ ['\n']))

/-! ## Reading -/

/-- `required_part`. -/
def requiredPart (parts : List (List Char)) (index : Nat) (label : String) : Result (List Char) :=
  match parts[index]? with
  | some part => .ok part
  | none => .error (execution s!"missing {label} in database file")

/-- `table_mut`. -/
def tableMut (current : Option Table) (message : String) : Result Table :=
  match current with
  | some table => .ok table
  | none => .error (execution message)

/-- `Table::new` without columns. -/
def Table.blank (name : String) : Table :=
  { name, columns := [], rows := ∅, nextRowId := 1, primaryKey := none, primary := ∅, indexes := ∅,
    fulltextIndexes := ∅ }

example (name : String) : Table.new name [] = .ok (Table.blank name) := rfl

/-- `Table::add_persisted_index`. -/
def Table.addPersistedIndex (t : Table) (name column : String) : Table :=
  { t with indexes := t.indexes.insert name ⟨column, ∅⟩ }

/-- `Table::add_persisted_fulltext_index`. -/
def Table.addPersistedFulltextIndex (t : Table) (name column : String) : Table :=
  { t with fulltextIndexes := t.fulltextIndexes.insert name ⟨column, ∅⟩ }

/-- A `COLUMN` line. -/
def decodeColumn (t : Table) (parts : List (List Char)) : Result Table := do
  let name ← decodeString (← requiredPart parts 1 "column name")
  if t.columns.any (·.name = name) then .error (execution "duplicate column in file")
  else
    let primaryKey := (← requiredPart parts 3 "primary flag") = ['1']
    if primaryKey ∧ t.primaryKey.isSome then
      .error (execution "multiple primary keys in file")
    else
      let ty ← ColumnType.parse (← requiredPart parts 2 "column type")
      return { t with
        primaryKey := if primaryKey then some name else t.primaryKey
        columns := t.columns ++ [⟨name, ty, primaryKey⟩] }

/-- A field of a `ROW` line. -/
def decodeField (row : Row) (field : List Char) : Result Row :=
  match splitOnce '=' field with
  | none => .error (execution "invalid row field in file")
  | some (column, value) => do
    let column ← decodeString column
    let value ← decodeValue value
    return row.insert column value

/-- A `ROW` line, whose row id may be any number. -/
def decodeRow (t : Table) (parts : List (List Char)) : Result Table := do
  match parseUnbounded (← requiredPart parts 1 "row id") with
  | none => .error (execution "invalid row id in file")
  | some rowId =>
    let row ← (parts.drop 2).foldlM decodeField ∅
    return { t with
      nextRowId := max t.nextRowId (rowId + 1)
      rows := t.rows.insert rowId row }

section Platform

variable [Platform]

/-- One line: the tables that are complete, and the one that is not. -/
def decodeLine (options : TableRuntimeOptions) (state : Catalog × Option Table)
    (line : List Char) : Result (Catalog × Option Table) :=
  if line = [] then .ok state
  else do
    let (catalog, current) := state
    let parts := line.splitOn '\t'
    let directive := parts.headD []
    if directive = "TABLE".toList then
      if current.isSome then .error (execution "nested table block in database file")
      else
        let name ← decodeString (← requiredPart parts 1 "table name")
        return (catalog, some (Table.blank name))
    else if directive = "COLUMN".toList then
      let table ← tableMut current "column outside table block"
      return (catalog, some (← decodeColumn table parts))
    else if directive = "INDEX".toList then
      let table ← tableMut current "index outside table block"
      let name ← decodeString (← requiredPart parts 1 "index name")
      let column ← decodeString (← requiredPart parts 2 "index column")
      return (catalog, some (table.addPersistedIndex name column))
    else if directive = "FTS".toList then
      let table ← tableMut current "fts outside table block"
      let name ← decodeString (← requiredPart parts 1 "fts name")
      let column ← decodeString (← requiredPart parts 2 "fts column")
      return (catalog, some (table.addPersistedFulltextIndex name column))
    else if directive = "ROW".toList then
      let table ← tableMut current "row outside table block"
      return (catalog, some (← decodeRow table parts))
    else if directive = "ENDTABLE".toList then
      let table ← tableMut current "endtable without table"
      match table.rebuildIndexesWithOptions options with
      | (.error error, _) => .error error
      | (.ok (), table) => return (⟨catalog.tables.insert table.name table⟩, none)
    else .error (execution ("unknown database file directive " ++ String.ofList directive))

/-- `Catalog::decode_with_options`, for row ids without a bound.  With the bound of `u64` it is
`Catalog.decode64`, which accepts no more. -/
def Catalog.decodeWithOptions (input : String) (options : TableRuntimeOptions) : Result Catalog :=
  match lines input.toList with
  | [] => .ok .empty
  | header :: rest =>
    if header ≠ "FSQ1".toList then .error (execution "unsupported database file format")
    else do
      let (catalog, current) ← rest.foldlM (decodeLine options) (.empty, none)
      if current.isSome then .error (execution "unterminated table block")
      else return catalog

end Platform

end Fsql
