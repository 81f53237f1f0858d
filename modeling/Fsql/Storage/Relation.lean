import Fsql.Storage.Fulltext

/-!
# Tables as relations

What the clients of a table can see of it is its definition and its rows, one after the other: a
`Relation`.  Row ids only say in which order rows were inserted, and the derived maps only how rows
are found.  `Table.relation` is what a table says, and `Relation.select`, `Relation.insert`,
`Relation.update`, `Relation.delete` and `Relation.createIndex` say what the statements are for.
-/

set_option autoImplicit false

namespace Fsql

/-! ## Relations -/

/-- **What a table says.** -/
structure Relation where
  /-- The definition: a table without rows. -/
  schema : Table
  /-- The rows, in the order of their insertion. -/
  rows : List Row
deriving DecidableEq

namespace Table

/-- The table without its rows. -/
def schema (t : Table) : Table := { t with rows := ∅, nextRowId := 1 }.cleared

/-- The rows in the order of their ids. -/
def contents (t : Table) : List Row := t.rows.toList.map Prod.snd

/-- What a table says. -/
def relation (t : Table) : Relation := ⟨t.schema, t.contents⟩

end Table

namespace Relation

section Platform

variable [Platform]

/-- Whether a filter finds a row, given the definition of the table: an equality is decided by the
key where there is an index, and by the value elsewhere. -/
def finds (schema : Table) (options : TableRuntimeOptions) (filter : Option Filter) (row : Row) :
    Bool :=
  match filter with
  | none => true
  | some (.equals column value) =>
    if schema.primaryKey = some column ∨ (Table.indexOn schema.indexes column).isSome then
      row[column]? = some value
    else Table.equalsMatches column value row
  | some (.fullText column query) =>
    let tokens := tokenize query options.fulltextTokenizer
    !tokens.isEmpty && Table.fulltextMatches column tokens options row
  | some (.geoWithin column point meters inclusive) =>
    Table.geoMatches column point meters inclusive options row

/-- The vectors of a list of rows, scored. -/
def scores {α : Type} (row : α → Row) (column : String) (target : List F32)
    (metric : VectorMetric) : List α → Result (List (F64 × α))
  | [] => .ok []
  | entry :: rest =>
    match (row entry)[column]? with
    | some (.vector vector) => do
      let distance ← vectorDistance vector target metric
      let scored ← scores row column target metric rest
      return (distance, entry) :: scored
    | _ => scores row column target metric rest

/-- Scored rows in the order of their distances; rows at one distance in the order of their
insertion, reversed for `DESC`. -/
def sorted {α : Type} (descending : Bool) (scored : List (F64 × α)) : List α :=
  (scored.zipIdx.mergeSort fun a b ↦
    Table.scoreLe descending (a.1.1, a.2) (b.1.1, b.2)).map (·.1.2)

/-- The rows in the order that is asked for. -/
def orderBy (schema : Table) (options : TableRuntimeOptions) (rows : List Row) :
    Option Order → Result (List Row)
  | none => .ok rows
  | some (.vectorDistance column target descending) => do
    let columnRef ← schema.column column
    if columnRef.ty ≠ .vector then
      .error (execution "vector distance ordering requires a vector column")
    match options.vectorIndex.dimensions with
      | some expected =>
        if target.length ≠ expected then
          .error (execution s!"query vector dimensions must be {expected}")
      | none => pure ()
    return sorted descending (← scores id column target options.vectorIndex.metric rows)

/-- `SELECT` on a relation. -/
def select (r : Relation) (projection : Projection) (filter : Option Filter)
    (order : Option Order) (limit : Option Nat) (options : TableRuntimeOptions) :
    Result (List Row) := do
  r.schema.validateProjection projection
  let filter ← r.schema.normalizeFilter filter options
  let rows ← orderBy r.schema options (r.rows.filter (finds r.schema options filter)) order
  let rows := match limit with
    | some limit => rows.take limit
    | none => rows
  return rows.map (Table.projectRow · projection)

/-- `INSERT` on a relation. -/
def insert (r : Relation) (columns : Option (List String)) (values : List Value)
    (options : TableRuntimeOptions) : Result Unit × Relation :=
  match r.schema.insertRow columns values options with
  | .error error => (.error error, r)
  | .ok row =>
    let key := primaryKeyOf r.schema.primaryKey
    if r.schema.primaryKey.isSome ∧ ∃ stored ∈ r.rows, key stored = key row then
      (.error (execution "duplicate primary key"), r)
    else (.ok (), { r with rows := r.rows ++ [row] })

/-- The check of the primary keys of a list of rows: they are present, and differ from each other
and from those already seen. -/
def checkKeys (column : String) : List Row → BTreeSet String → Result Unit
  | [], _ => .ok ()
  | row :: rows, seen =>
    match row[column]? with
    | none => .error (execution "primary key value missing")
    | some .null => .error (execution "primary key cannot be null")
    | some value =>
      match indexKey value with
      | .error error => .error error
      | .ok key =>
        if key ∈ seen then .error (execution "duplicate primary key")
        else checkKeys column rows (seen.insert key)

/-- The check of the primary keys, if there is a primary key. -/
def check (schema : Table) (rows : List Row) : Result Unit :=
  match schema.primaryKey with
  | none => .ok ()
  | some column => checkKeys column rows ∅

/-- `UPDATE` on a relation. -/
def update (r : Relation) (assignments : List (String × Value)) (filter : Option Filter)
    (options : TableRuntimeOptions) : Result Nat × Relation :=
  match r.schema.normalizeFilter filter options with
  | .error error => (.error error, r)
  | .ok filter =>
    match r.schema.normalizeAssignments options assignments with
    | .error error => (.error error, r)
    | .ok normalized =>
      let found := finds r.schema options filter
      let rows := r.rows.map fun row ↦ if found row then Table.assign normalized row else row
      match check r.schema rows with
      | .error error => (.error error, r)
      | .ok () => (.ok (r.rows.countP found), { r with rows })

/-- `CREATE INDEX` on a relation: an index is created on the table without rows. -/
def createIndex (r : Relation) (name column : String) (fulltext : Bool)
    (options : TableRuntimeOptions) : Result Unit × Relation :=
  let (result, schema) :=
    if fulltext then r.schema.createFulltextIndexWithOptions name column options
    else r.schema.createIndex name column
  (result, { r with schema := schema.schema })

/-- `DELETE` on a relation. -/
def delete (r : Relation) (filter : Option Filter) (options : TableRuntimeOptions) :
    Result Nat × Relation :=
  match r.schema.normalizeFilter filter options with
  | .error error => (.error error, r)
  | .ok filter =>
    let found := finds r.schema options filter
    (.ok (r.rows.countP found), { r with rows := r.rows.filter fun row ↦ !found row })

end Platform

end Relation

end Fsql
