import Fsql.Identifier
import Fsql.Logging
import Fsql.Platform
import Fsql.Sql.Ast
import Fsql.Storage.Codec

/-!
# Tables

`storage/table.rs`: a table is its columns, its rows under row ids, and the maps derived from the
rows — the primary-key map, the secondary indexes and the full-text indexes.

A method that takes `&mut self` and may fail returns the table beside its result, also when it
fails: what a failing method leaves behind is part of what it does.

Row ids are natural numbers here, and drawing one has no bound.  The bound of the source's `u64` is
put on the reader of database files and on single insertions in `Storage.RowIds`, and on the pool in
`Pool.Counters`.
-/

set_option autoImplicit false

namespace Fsql

open Text

/-- A row id, without the bound of the source's `u64`. -/
abbrev RowId := Nat

/-- `Index` and `FullTextIndex`, which have the same fields: the column and the row ids listed
under each key, or under each token. -/
structure Index where
  /-- The indexed column, as the index was declared. -/
  column : String
  /-- The row ids of each key. -/
  map : MultiMap String RowId
deriving DecidableEq

/-- How the rows of a filter are found. -/
inductive AccessPath
  | tableScan
  | primaryKey
  | secondaryIndex (indexName : String)
  | fullTextIndex (indexName : String)
deriving DecidableEq, Repr

/-- `TableRuntimeOptions`. -/
structure TableRuntimeOptions where
  /-- The tokenizer of full-text indexes and queries. -/
  fulltextTokenizer : FullTextTokenizer := .simple
  /-- The vector settings. -/
  vectorIndex : VectorIndexOptions := {}
  /-- How geographic distances are computed. -/
  geoCoordinateSystem : GeoCoordinateSystem := .wgs84
  /-- The number of threads that score vectors. -/
  workerThreads : Nat := 1
deriving DecidableEq, Repr

/-- A table. -/
structure Table where
  /-- The stored name. -/
  name : String
  /-- The columns, in the order of their declaration. -/
  columns : List Column
  /-- The rows. -/
  rows : BTreeMap RowId Row
  /-- The row id of the next insertion. -/
  nextRowId : RowId
  /-- The name of the primary-key column. -/
  primaryKey : Option String
  /-- The row of each primary key. -/
  primary : BTreeMap String RowId
  /-- The secondary indexes by name. -/
  indexes : BTreeMap String Index
  /-- The full-text indexes by name. -/
  fulltextIndexes : BTreeMap String Index
deriving DecidableEq

/-- The name of an execution error with a fixed text. -/
abbrev execution (message : String) : Error := .execution message

/-! ## Tokens and distances -/

section Platform

variable [Platform]

/-- `tokenize`. -/
def tokenize (input : String) (tokenizer : FullTextTokenizer) : List String :=
  match tokenizer with
  | .simple =>
    ((input.toList.splitOnP fun ch ↦ !Platform.isAlphanumeric ch).filter (· ≠ [])).map fun token ↦
      Platform.toLowercase (String.ofList token)
  | .whitespace =>
    ((splitWhitespace input.toList).filter (· ≠ [])).map fun token ↦
      Platform.toLowercase (String.ofList token)
  | .exact =>
    let token := Platform.toLowercase (String.ofList (trim input.toList))
    if token = "" then [] else [token]

end Platform

/-- `f64::to_radians`. -/
def toRadians (x : Float) : Float := x * (3.14159265358979323846264338327950288 / 180.0)

/-- `haversine_meters`. -/
def haversineMeters (left right : Point) : Float :=
  let earthRadiusMeters : Float := 6371000.0
  let lat1 := toRadians left.lat.toFloat
  let lat2 := toRadians right.lat.toFloat
  let deltaLat := toRadians (right.lat.toFloat - left.lat.toFloat)
  let deltaLon := toRadians (right.lon.toFloat - left.lon.toFloat)
  let sinLat := (deltaLat / 2.0).sin
  let sinLon := (deltaLon / 2.0).sin
  let a := sinLat * sinLat + lat1.cos * lat2.cos * (sinLon * sinLon)
  let c := 2.0 * Float.atan2 a.sqrt (1.0 - a).sqrt
  earthRadiusMeters * c

/-- `geo_distance`. -/
def geoDistance (left right : Point) (coordinateSystem : GeoCoordinateSystem) : Float :=
  match coordinateSystem with
  | .wgs84 => haversineMeters left right
  | .cartesian =>
    let deltaX := right.lon.toFloat - left.lon.toFloat
    let deltaY := right.lat.toFloat - left.lat.toFloat
    (deltaX * deltaX + deltaY * deltaY).sqrt

/-- `Iterator::sum` at `f64`, which starts from `-0.0`. -/
def sumFloat (xs : List Float) : Float := xs.foldl (· + ·) (-0.0)

/-- `dot_product`. -/
def dotProduct (left right : List F32) : Float :=
  sumFloat ((left.zip right).map fun p ↦ p.1.toF64.toFloat * p.2.toF64.toFloat)

/-- `vector_distance`. -/
def vectorDistance (left right : List F32) (metric : VectorMetric) : Result F64 :=
  if left.length ≠ right.length then .error (execution "vector dimensions do not match")
  else
    match metric with
    | .euclidean =>
      .ok (.ofFloat (sumFloat ((left.zip right).map fun p ↦
        let delta := p.1.toF64.toFloat - p.2.toF64.toFloat
        delta * delta)).sqrt)
    | .cosine =>
      let dot := dotProduct left right
      let leftNorm := (dotProduct left left).sqrt
      let rightNorm := (dotProduct right right).sqrt
      if leftNorm == 0.0 || rightNorm == 0.0 then
        .error (execution "cosine vector distance requires non-zero vectors")
      else .ok (.ofFloat (1.0 - dot / (leftNorm * rightNorm)))
    | .dotProduct => .ok (.ofFloat (-(dotProduct left right)))

/-- The place of an `f64` in the order of `f64::total_cmp`. -/
def F64.totalKey (x : F64) : Int :=
  if x.bits.toNat < 2 ^ 63 then x.bits.toNat else -((x.bits.toNat : Int) - 2 ^ 63) - 1

/-- `vector_scores_chunk`. -/
def vectorScoresChunk (rows : BTreeMap RowId Row) (rowIds : List RowId) (column : String)
    (target : List F32) (metric : VectorMetric) : Result (List (F64 × RowId)) :=
  match rowIds with
  | [] => .ok []
  | rowId :: rest =>
    match rows[rowId]?.bind (·[column]?) with
    | some (.vector vector) => do
      let distance ← vectorDistance vector target metric
      let scored ← vectorScoresChunk rows rest column target metric
      return (distance, rowId) :: scored
    | _ => vectorScoresChunk rows rest column target metric

/-- `[T]::chunks`, for at most `fuel` chunks. -/
def chunksFuel {α : Type} (size : Nat) : Nat → List α → List (List α)
  | 0, _ => []
  | fuel + 1, l => if l.isEmpty then [] else l.take size :: chunksFuel size fuel (l.drop size)

/-- `[T]::chunks`. -/
def chunks {α : Type} (size : Nat) (l : List α) : List (List α) := chunksFuel size l.length l

theorem flatten_chunksFuel {α : Type} {size : Nat} (hsize : 0 < size) (fuel : Nat) (l : List α)
    (hfuel : l.length ≤ fuel) : (chunksFuel size fuel l).flatten = l := by
  induction fuel generalizing l with
  | zero =>
    obtain rfl := List.length_eq_zero_iff.mp (Nat.le_zero.mp hfuel)
    rfl
  | succ fuel ih =>
    rw [chunksFuel]
    split
    · rename_i hempty
      rw [List.isEmpty_iff.mp hempty, List.flatten_nil]
    · rename_i hne
      have hpos : 0 < l.length := List.length_pos_iff.mpr fun h ↦ hne (List.isEmpty_iff.mpr h)
      rw [List.flatten_cons, ih _ (by rw [List.length_drop]; omega), List.take_append_drop]

/-- Nothing is lost between the chunks. -/
theorem flatten_chunks {α : Type} {size : Nat} (hsize : 0 < size) (l : List α) :
    (chunks size l).flatten = l :=
  flatten_chunksFuel hsize l.length l (Nat.le_refl _)

/-- `vector_scores`: the chunks are scored in parallel and their results joined in order. -/
def vectorScores (rows : BTreeMap RowId Row) (rowIds : List RowId) (column : String)
    (target : List F32) (options : TableRuntimeOptions) : Result (List (F64 × RowId)) :=
  if options.workerThreads ≤ 1 ∨ rowIds.length < 2 then
    vectorScoresChunk rows rowIds column target options.vectorIndex.metric
  else do
    let workers := min options.workerThreads rowIds.length
    let chunkSize := (rowIds.length + workers - 1) / workers
    let scored ← (chunks chunkSize rowIds).mapM fun chunk ↦
      vectorScoresChunk rows chunk column target options.vectorIndex.metric
    return scored.flatten

/-! ## Rebuilding the derived maps -/

/-- `index.map.entry(key).or_default().insert(row_id)`. -/
def Index.insert (index : Index) (key : String) (rowId : RowId) : Index :=
  { index with map := index.map.insert key rowId }

/-- Enter the primary key of one row.  The entry is made before a duplicate is reported. -/
def rebuildPrimary (primaryKey : Option String) (rowId : RowId) (row : Row)
    (primary : BTreeMap String RowId) : Result Unit × BTreeMap String RowId :=
  match primaryKey with
  | none => (.ok (), primary)
  | some primaryKey =>
    match row[primaryKey]? with
    | none => (.error (execution "primary key value missing"), primary)
    | some .null => (.error (execution "primary key cannot be null"), primary)
    | some value =>
      match indexKey value with
      | .error error => (.error error, primary)
      | .ok key =>
        (if key ∈ primary then .error (execution "duplicate primary key") else .ok (),
          primary.insert key rowId)

/-- Enter one row into the secondary indexes of a list of names and columns. -/
def rebuildSecondary (rowId : RowId) (row : Row) :
    List (String × String) → BTreeMap String Index → Result Unit × BTreeMap String Index
  | [], indexes => (.ok (), indexes)
  | (indexName, column) :: rest, indexes =>
    match row[column]? with
    | none => rebuildSecondary rowId row rest indexes
    | some value =>
      match indexKey value with
      | .error error => (.error error, indexes)
      | .ok key =>
        rebuildSecondary rowId row rest (indexes.modify indexName (·.insert key rowId))

/-- Enter one row into the full-text indexes of a list of names and columns. -/
def rebuildFulltext [Platform] (tokenizer : FullTextTokenizer) (rowId : RowId) (row : Row) :
    List (String × String) → BTreeMap String Index → BTreeMap String Index
  | [], indexes => indexes
  | (indexName, column) :: rest, indexes =>
    match row[column]? with
    | some (.text text) =>
      rebuildFulltext tokenizer rowId row rest
        ((tokenize text tokenizer).foldl
          (fun indexes token ↦ indexes.modify indexName (·.insert token rowId)) indexes)
    | _ => rebuildFulltext tokenizer rowId row rest indexes

namespace Table

/-- The names and columns of a map of indexes. -/
def indexColumns (indexes : BTreeMap String Index) : List (String × String) :=
  indexes.toList.map fun p ↦ (p.1, p.2.column)

section Rebuild

variable [Platform]

/-- Enter the rows of a list into the derived maps, stopping at the first error. -/
def rebuildRows (primaryKey : Option String) (indexColumns fulltextColumns : List (String × String))
    (tokenizer : FullTextTokenizer) : List (RowId × Row) → Table → Result Unit × Table
  | [], t => (.ok (), t)
  | (rowId, row) :: rest, t =>
    match rebuildPrimary primaryKey rowId row t.primary with
    | (.error error, primary) => (.error error, { t with primary })
    | (.ok (), primary) =>
      match rebuildSecondary rowId row indexColumns t.indexes with
      | (.error error, indexes) => (.error error, { t with primary, indexes })
      | (.ok (), indexes) =>
        rebuildRows primaryKey indexColumns fulltextColumns tokenizer rest
          { t with
            primary, indexes,
            fulltextIndexes :=
              rebuildFulltext tokenizer rowId row fulltextColumns t.fulltextIndexes }

/-- The table with its derived maps emptied. -/
def cleared (t : Table) : Table :=
  { t with
    primary := ∅
    indexes := t.indexes.map fun _ index ↦ { index with map := ∅ }
    fulltextIndexes := t.fulltextIndexes.map fun _ index ↦ { index with map := ∅ } }

/-- `Table::rebuild_indexes_with_options`. -/
def rebuildIndexesWithOptions (t : Table) (options : TableRuntimeOptions) : Result Unit × Table :=
  rebuildRows t.primaryKey (indexColumns t.indexes) (indexColumns t.fulltextIndexes)
    options.fulltextTokenizer t.rows.toList t.cleared

/-- `Table::rebuild_indexes`. -/
def rebuildIndexes (t : Table) : Result Unit × Table := t.rebuildIndexesWithOptions {}

end Rebuild

/-! ## Creating tables and indexes -/

/-- The check of a column list: names are distinct and at most one column is the primary key,
whose name is returned. -/
def checkColumns : List Column → BTreeSet String → Option String → Result (Option String)
  | [], _, primaryKey => .ok primaryKey
  | column :: rest, seen, primaryKey =>
    if column.name ∈ seen then .error (execution s!"duplicate column {column.name}")
    else if column.primaryKey then
      if primaryKey.isSome then .error (execution "only one primary key is supported")
      else checkColumns rest (seen.insert column.name) (some column.name)
    else checkColumns rest (seen.insert column.name) primaryKey

/-- `Table::new`. -/
def new (name : String) (columns : List Column) : Result Table := do
  let primaryKey ← checkColumns columns ∅ none
  return {
    name, columns, primaryKey
    rows := ∅
    nextRowId := 1
    primary := ∅
    indexes := ∅
    fulltextIndexes := ∅ }

/-- `Table::column`. -/
def column (t : Table) (name : String) : Result Column :=
  let normalized := normalizeIdentifier name
  match t.columns.find? (·.name = normalized) with
  | some column => .ok column
  | none => .error (execution s!"unknown column {normalized}")

section Mutate

variable [Platform]

/-- `Table::create_index`.  The index keeps the column's name as it was passed. -/
def createIndex (t : Table) (name column : String) : Result Unit × Table :=
  match t.column column with
  | .error error => (.error error, t)
  | .ok _ =>
    if name ∈ t.indexes ∨ name ∈ t.fulltextIndexes then
      (.error (execution s!"index {name} already exists"), t)
    else
      { t with indexes := t.indexes.insert name ⟨column, ∅⟩ }.rebuildIndexes

/-- `Table::create_fulltext_index_with_options`. -/
def createFulltextIndexWithOptions (t : Table) (name column : String)
    (options : TableRuntimeOptions) : Result Unit × Table :=
  match t.column column with
  | .error error => (.error error, t)
  | .ok columnRef =>
    if columnRef.ty ≠ .text then
      (.error (execution "full-text indexes can only be created on text columns"), t)
    else if name ∈ t.indexes ∨ name ∈ t.fulltextIndexes then
      (.error (execution s!"index {name} already exists"), t)
    else
      { t with
        fulltextIndexes := t.fulltextIndexes.insert name ⟨column, ∅⟩ }.rebuildIndexesWithOptions
          options

/-! ## Values and filters -/

/-- `Table::validate_value_with_options`. -/
def validateValueWithOptions (column : Column) (value : Value) (options : TableRuntimeOptions) :
    Result Value :=
  let mismatch : Result Value :=
    .error (execution (s!"value {Platform.debugValue value} does not match column {column.name}" ++
      s!" type {column.ty.asStr}"))
  match column.ty, value with
  | _, .null => .ok .null
  | .integer, .integer value => .ok (.integer value)
  | .float, .float value => if value.isFinite then .ok (.float value) else mismatch
  | .float, .integer value => .ok (.float (.ofInt64 value))
  | .boolean, .boolean value => .ok (.boolean value)
  | .text, .text value => .ok (.text value)
  | .vector, .vector value =>
    if value.all F32.isFinite then
      match options.vectorIndex.dimensions with
      | some expected =>
        if value.length ≠ expected then
          .error (execution s!"vector column {column.name} requires {expected} dimension(s)")
        else .ok (.vector value)
      | none => .ok (.vector value)
    else mismatch
  | .point, .point value => if value.isFinite then .ok (.point value) else mismatch
  | _, _ => mismatch

/-- `Table::validate_primary_insert`. -/
def validatePrimaryInsert (t : Table) (row : Row) : Result Unit :=
  match t.primaryKey with
  | none => .ok ()
  | some primaryKey =>
    match row[primaryKey]? with
    | none => .error (execution "primary key value missing")
    | some .null => .error (execution "primary key cannot be null")
    | some value => do
      let key ← indexKey value
      if key ∈ t.primary then .error (execution "duplicate primary key") else .ok ()

/-- `Table::validate_projection`. -/
def validateProjection (t : Table) (projection : Projection) : Result Unit :=
  match projection with
  | .all => .ok ()
  | .columns columns => columns.forM fun column ↦ do let _ ← t.column column

/-- `Table::normalize_filter`. -/
def normalizeFilter (t : Table) (filter : Option Filter) (options : TableRuntimeOptions) :
    Result (Option Filter) :=
  match filter with
  | some (.equals columnName value) => do
    let column ← t.column columnName
    let value ← validateValueWithOptions column value options
    return some (.equals column.name value)
  | some (.fullText column query) => do
    let columnRef ← t.column column
    if columnRef.ty ≠ .text then .error (execution "MATCH requires a text column")
    else return some (.fullText columnRef.name query)
  | some (.geoWithin column point meters inclusive) => do
    let columnRef ← t.column column
    if columnRef.ty ≠ .point then .error (execution "GEO_DISTANCE requires a point column")
    else return some (.geoWithin columnRef.name point meters inclusive)
  | none => .ok none

/-! ## Finding rows -/

/-- The ids of the rows that satisfy a test, in ascending order. -/
def scan (t : Table) (p : Row → Bool) : List RowId :=
  (t.rows.toList.filter fun entry ↦ p entry.2).map Prod.fst

/-- The first index, in the order of the names, that is declared on a column. -/
def indexOn (indexes : BTreeMap String Index) (column : String) : Option (String × Index) :=
  indexes.toList.find? fun entry ↦ entry.2.column = column

/-- The test the fallback branch of `Table::match_fulltext` puts to a row. -/
def fulltextMatches (column : String) (tokens : List String) (options : TableRuntimeOptions)
    (row : Row) : Bool :=
  match row[column]? with
  | some (.text text) =>
    let rowTokens := tokenize text options.fulltextTokenizer
    tokens.all fun token ↦ rowTokens.contains token
  | _ => false

/-- `Table::match_fulltext`. -/
def matchFulltext (t : Table) (column query : String) (options : TableRuntimeOptions) :
    List RowId × AccessPath :=
  match tokenize query options.fulltextTokenizer with
  | [] => ([], .tableScan)
  | token :: tokens =>
    match indexOn t.fulltextIndexes column with
    | some (indexName, index) =>
      ((tokens.foldl (fun acc token ↦ acc ∩ index.map.lookup token)
        (index.map.lookup token)).toList, .fullTextIndex indexName)
    | none => (t.scan (fulltextMatches column (token :: tokens) options), .tableScan)

/-- The test of a geographic filter. -/
def geoMatches (column : String) (point : Point) (meters : F64) (inclusive : Bool)
    (options : TableRuntimeOptions) (row : Row) : Bool :=
  match row[column]? with
  | some (.point candidate) =>
    let distance := geoDistance candidate point options.geoCoordinateSystem
    (inclusive && distance ≤ meters.toFloat) || (!inclusive && distance < meters.toFloat)
  | _ => false

/-- The test of an equality filter. -/
def equalsMatches (column : String) (value : Value) (row : Row) : Bool :=
  match row[column]? with
  | some stored => stored.eq value
  | none => false

/-- `Table::matching_row_ids`. -/
def matchingRowIds (t : Table) (filter : Option Filter) (options : TableRuntimeOptions) :
    Result (List RowId × AccessPath) :=
  match filter with
  | none => .ok (t.rows.keys, .tableScan)
  | some (.equals column value) => do
    let key ← indexKey value
    if t.primaryKey = some column then
      return (t.primary[key]?.toList, .primaryKey)
    else
      match indexOn t.indexes column with
      | some (indexName, index) =>
        return ((index.map.lookup key).toList, .secondaryIndex indexName)
      | none => return (t.scan (equalsMatches column value), .tableScan)
  | some (.fullText column query) => .ok (t.matchFulltext column query options)
  | some (.geoWithin column point meters inclusive) =>
    .ok (t.scan (geoMatches column point meters inclusive options), .tableScan)

/-- `Table::explain_filter`. -/
def explainFilter (t : Table) (filter : Option Filter) (options : TableRuntimeOptions) :
    Result AccessPath := do
  let filter ← t.normalizeFilter filter options
  return (← t.matchingRowIds filter options).2

/-- `Table::matching_row_ids_for_lock`. -/
def matchingRowIdsForLock (t : Table) (filter : Option Filter) (options : TableRuntimeOptions) :
    Result (List RowId) := do
  let filter ← t.normalizeFilter filter options
  return (← t.matchingRowIds filter options).1

/-! ## Insert, select, update, delete -/

/-- The row an insertion stores: every column Null, then the given values, each validated. -/
def insertValues (t : Table) (options : TableRuntimeOptions) :
    List (String × Value) → Row → Result Row
  | [], row => .ok row
  | (columnName, value) :: rest, row => do
    let column ← t.column columnName
    let value ← validateValueWithOptions column value options
    insertValues t options rest (row.insert column.name value)

/-- The checks of `Table::insert_with_options`, up to the row it is about to store. -/
def insertRow (t : Table) (columns : Option (List String)) (values : List Value)
    (options : TableRuntimeOptions) : Result Row := do
  let nulls : Row := t.columns.foldl (fun row column ↦ row.insert column.name .null) ∅
  let targetColumns := columns.getD (t.columns.map (·.name))
  if targetColumns.length ≠ values.length then
    .error (execution s!"expected {targetColumns.length} value(s), got {values.length}")
  else
    let row ← insertValues t options (targetColumns.zip values) nulls
    t.validatePrimaryInsert row
    return row

/-- `Table::insert_with_options`.  With the bound of `u64` it is `Table.insert64`. -/
def insertWithOptions (t : Table) (columns : Option (List String)) (values : List Value)
    (options : TableRuntimeOptions) : Result Unit × Table :=
  match t.insertRow columns values options with
  | .error error => (.error error, t)
  | .ok row =>
    { t with
      nextRowId := t.nextRowId + 1
      rows := t.rows.insert t.nextRowId row }.rebuildIndexesWithOptions options

/-- `project_row`. -/
def projectRow (row : Row) (projection : Projection) : Row :=
  match projection with
  | .all => row
  | .columns columns =>
    columns.foldl (fun out column ↦
      match row[column]? with
      | some value => out.insert column value
      | none => out) ∅

/-- The order of scored rows: by distance, then by row id, reversed for `DESC`. -/
def scoreLe (descending : Bool) (left right : F64 × RowId) : Bool :=
  let ascending := (compare left.1.totalKey right.1.totalKey).then (compare left.2 right.2)
  (if descending then ascending.swap else ascending) ≠ .gt

/-- `Table::select_with_options`. -/
def selectWithOptions (t : Table) (projection : Projection) (filter : Option Filter)
    (order : Option Order) (limit : Option Nat) (options : TableRuntimeOptions) :
    Result (List Row) := do
  t.validateProjection projection
  let filter ← t.normalizeFilter filter options
  let rowIds := (← t.matchingRowIds filter options).1
  let rowIds ← match order with
    | none => pure rowIds
    | some (.vectorDistance column target descending) => do
      let columnRef ← t.column column
      if columnRef.ty ≠ .vector then
        .error (execution "vector distance ordering requires a vector column")
      match options.vectorIndex.dimensions with
        | some expected =>
          if target.length ≠ expected then
            .error (execution s!"query vector dimensions must be {expected}")
        | none => pure ()
      let scored ← vectorScores t.rows rowIds column target options
      pure ((scored.mergeSort (scoreLe descending)).map Prod.snd)
  let rowIds := match limit with
    | some limit => rowIds.take limit
    | none => rowIds
  return rowIds.filterMap fun rowId ↦ t.rows[rowId]?.map (projectRow · projection)

/-- The assignments of an `UPDATE` with their columns resolved and their values validated. -/
def normalizeAssignments (t : Table) (options : TableRuntimeOptions) :
    List (String × Value) → Result (List (String × Value))
  | [] => .ok []
  | (columnName, value) :: rest => do
    let column ← t.column columnName
    let value ← validateValueWithOptions column value options
    return (column.name, value) :: (← normalizeAssignments t options rest)

/-- Store the assigned values in a row. -/
def assign (normalized : List (String × Value)) (row : Row) : Row :=
  normalized.foldl (fun row entry ↦ row.insert entry.1 entry.2) row

/-- The rows after an assignment to those of a list of ids. -/
def assignRows (normalized : List (String × Value)) (rowIds : List RowId)
    (rows : BTreeMap RowId Row) : BTreeMap RowId Row :=
  rowIds.foldl (fun rows rowId ↦ rows.modify rowId (assign normalized)) rows

/-- The reading half of `Table::update_with_options`: the rows it will change, and how. -/
def updatePlan (t : Table) (assignments : List (String × Value)) (filter : Option Filter)
    (options : TableRuntimeOptions) : Result (List RowId × List (String × Value)) := do
  let filter ← t.normalizeFilter filter options
  let rowIds := (← t.matchingRowIds filter options).1
  let normalized ← t.normalizeAssignments options assignments
  return (rowIds, normalized)

/-- `Table::update_with_options`. -/
def updateWithOptions (t : Table) (assignments : List (String × Value)) (filter : Option Filter)
    (options : TableRuntimeOptions) : Result Nat × Table :=
  match t.updatePlan assignments filter options with
  | .error error => (.error error, t)
  | .ok (rowIds, normalized) =>
    match { t with rows := assignRows normalized rowIds t.rows }.rebuildIndexesWithOptions options
      with
    | (.ok (), updated) => (.ok rowIds.length, updated)
    | (.error error, updated) =>
      (.error error, ({ updated with rows := t.rows }.rebuildIndexesWithOptions options).2)

/-- `Table::delete_with_options`. -/
def deleteWithOptions (t : Table) (filter : Option Filter) (options : TableRuntimeOptions) :
    Result Nat × Table :=
  match t.matchingRowIdsForLock filter options with
  | .error error => (.error error, t)
  | .ok rowIds =>
    match { t with
      rows := rowIds.foldl (fun rows rowId ↦ rows.erase rowId) t.rows }.rebuildIndexesWithOptions
        options with
    | (.ok (), deleted) => (.ok rowIds.length, deleted)
    | (.error error, deleted) => (.error error, deleted)

end Mutate

end Table

end Fsql
