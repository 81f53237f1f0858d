import Fsql.Storage.RoundTrip

/-!
# What the reader of a database file accepts

`Catalog::decode_with_options` over arbitrary texts.  A line is read for what it declares
(`readLine`); a text that is accepted is a header and a sequence of blocks, and every table of the
result is that of the last block with its name (`Catalog.madeOf_decode`).

`Collects` is what a loop of insertions keeps of a list of pairs: of several pairs with one key, the
last one.
-/

set_option autoImplicit false

namespace Fsql

open Number Text

/-! ## Loops of insertions -/

/-- **A map has been filled from a list of pairs**: its keys are those of the list, and each value
comes from the last pair with that key. -/
structure Collects {κ β ν : Type} (R : β → ν → Prop) (l : List (κ × β)) (f : κ → Option ν) :
    Prop where
  /-- The keys are those of the list. -/
  isSome_iff (k : κ) : (f k).isSome = true ↔ k ∈ l.map Prod.fst
  /-- A value comes from the last pair with its key. -/
  exists_last (k : κ) (v : ν) : f k = some v →
    ∃ before b after, l = before ++ (k, b) :: after ∧ k ∉ after.map Prod.fst ∧ R b v

namespace Collects

variable {κ β ν : Type} {R : β → ν → Prop}

theorem nil : Collects R ([] : List (κ × β)) fun _ ↦ none :=
  ⟨by simp, by simp⟩

/-- One more insertion. -/
theorem concat [DecidableEq κ] {l : List (κ × β)} {f : κ → Option ν} (h : Collects R l f) (k : κ)
    {b : β} {v : ν} (hb : R b v) :
    Collects R (l ++ [(k, b)]) fun a ↦ if k = a then some v else f a := by
  refine ⟨fun a ↦ ?_, fun a w hw ↦ ?_⟩
  · rw [List.map_append, List.mem_append, ← h.isSome_iff a]
    split
    · rename_i heq
      simp [heq]
    · rename_i hne
      simp [Ne.symm hne]
  · split at hw
    · rename_i heq
      obtain rfl := Option.some.inj hw
      exact ⟨l, b, [], by rw [heq], List.not_mem_nil, hb⟩
    · rename_i hne
      obtain ⟨before, b', after, rfl, hlast, hb'⟩ := h.exists_last a w hw
      refine ⟨before, b', after ++ [(k, b)], by simp, ?_, hb'⟩
      rw [List.map_append, List.mem_append, List.map_singleton, List.mem_singleton]
      exact not_or.mpr ⟨hlast, Ne.symm hne⟩

end Collects

/-- A row filled from fields, one after the other. -/
def rowOf (fields : List (String × Value)) : Row :=
  fields.foldl (fun row field ↦ row.insert field.1 field.2) ∅

theorem collects_rowOf (fields : List (String × Value)) :
    Collects (· = ·) fields fun column ↦ (rowOf fields)[column]? := by
  induction fields using List.reverseRecOn with
  | nil => exact .nil
  | append_singleton fields field ih =>
    have hrow : (fun column ↦ (rowOf (fields ++ [field]))[column]?) =
        fun column ↦ if field.1 = column then some field.2 else (rowOf fields)[column]? := by
      funext column
      rw [rowOf, List.foldl_append, List.foldl_cons, List.foldl_nil, BTree.getElem?_insert, rowOf]
    rw [hrow]
    exact ih.concat field.1 rfl

/-! ## Lines -/

/-- What a line inside of a table block declares. -/
inductive Entry
  | column (column : Column)
  | index (name column : String)
  | fts (name column : String)
  | row (rowId : RowId) (fields : List (String × Value))

/-- What a line declares. -/
inductive Directive
  | table (name : String)
  | entry (entry : Entry)
  | endTable

/-- A field of a `ROW` line. -/
def readField (field : List Char) : Option (String × Value) := do
  let (column, value) ← splitOnce '=' field
  return (← (decodeString column).toOption, ← (decodeValue value).toOption)

/-- What a `COLUMN` line declares. -/
def readColumn (parts : List (List Char)) : Option Column := do
  let name ← (decodeString (← parts[1]?)).toOption
  let ty ← (ColumnType.parse (← parts[2]?)).toOption
  return ⟨name, ty, (← parts[3]?) = ['1']⟩

/-- The name and the column on an `INDEX` or `FTS` line. -/
def readIndex (parts : List (List Char)) : Option (String × String) := do
  return (← (decodeString (← parts[1]?)).toOption, ← (decodeString (← parts[2]?)).toOption)

/-- The row id and the fields on a `ROW` line. -/
def readRow (parts : List (List Char)) : Option (RowId × List (String × Value)) := do
  return (← parseUnbounded (← parts[1]?), ← (parts.drop 2).mapM readField)

/-- **What a line declares**, if it can be read. -/
def readLine (line : List Char) : Option Directive := do
  let parts := line.splitOn '\t'
  let directive := parts.headD []
  if directive = "TABLE".toList then return .table (← (decodeString (← parts[1]?)).toOption)
  else if directive = "COLUMN".toList then return .entry (.column (← readColumn parts))
  else if directive = "INDEX".toList then
    let (name, column) ← readIndex parts
    return .entry (.index name column)
  else if directive = "FTS".toList then
    let (name, column) ← readIndex parts
    return .entry (.fts name column)
  else if directive = "ROW".toList then
    let (rowId, fields) ← readRow parts
    return .entry (.row rowId fields)
  else if directive = "ENDTABLE".toList then return .endTable
  else none

/-- What an entry adds to the table it is in. -/
def Entry.enter (t : Table) : Entry → Table
  | .column c =>
    { t with
      primaryKey := if c.primaryKey then some c.name else t.primaryKey
      columns := t.columns ++ [c] }
  | .index name c => t.addPersistedIndex name c
  | .fts name c => t.addPersistedFulltextIndex name c
  | .row rowId fields =>
    { t with nextRowId := max t.nextRowId (rowId + 1), rows := t.rows.insert rowId (rowOf fields) }

/-- **What the reader checks of an entry** against the table it is in. -/
def Entry.Fits (t : Table) : Entry → Prop
  | .column c => c.name ∉ t.columns.map (·.name) ∧ (c.primaryKey = true → t.primaryKey = none)
  | _ => True

theorem requiredPart_eq_ok {parts : List (List Char)} {i : Nat} {label : String}
    {part : List Char} (h : requiredPart parts i label = .ok part) : parts[i]? = some part := by
  rw [requiredPart] at h
  rcases hpart : parts[i]? with _ | found
  · simp [hpart] at h
  · simpa [hpart] using h

theorem toOption_eq_some {α : Type} {x : Result α} {a : α} (h : x = .ok a) :
    x.toOption = some a := by
  rw [h]
  rfl

theorem tableMut_eq_ok {current : Option Table} {message : String} {t : Table}
    (h : tableMut current message = .ok t) : current = some t := by
  rcases current with _ | found
  · simp [tableMut] at h
  · simpa [tableMut] using h

/-- The name and the column of an index, taken apart. -/
theorem readIndex_eq_some {parts : List (List Char)} {label label' : String} {β : Type}
    {f : String → String → Result β} {b : β}
    (h : (do
      let name ← decodeString (← requiredPart parts 1 label)
      let column ← decodeString (← requiredPart parts 2 label')
      f name column) = .ok b) :
    ∃ name column, readIndex parts = some (name, column) ∧ f name column = .ok b := by
  obtain ⟨part1, h1, h⟩ := bind_eq_ok h
  obtain ⟨name, hname, h⟩ := bind_eq_ok h
  obtain ⟨part2, h2, h⟩ := bind_eq_ok h
  obtain ⟨column, hcolumn, h⟩ := bind_eq_ok h
  refine ⟨name, column, ?_, h⟩
  simp [readIndex, requiredPart_eq_ok h1, requiredPart_eq_ok h2, toOption_eq_some hname,
    toOption_eq_some hcolumn]

theorem decodeColumn_eq_ok {t t' : Table} {parts : List (List Char)}
    (h : decodeColumn t parts = .ok t') :
    ∃ column, readColumn parts = some column ∧ (Entry.column column).Fits t ∧
      t' = (Entry.column column).enter t := by
  obtain ⟨part1, h1, h⟩ := bind_eq_ok h
  obtain ⟨name, hname, h⟩ := bind_eq_ok h
  split at h
  · cases h
  · rename_i hnew
    obtain ⟨part3, h3, h⟩ := bind_eq_ok h
    dsimp only at h
    split at h
    · cases h
    · rename_i hprimary
      obtain ⟨part2, h2, h⟩ := bind_eq_ok h
      obtain ⟨ty, hty, h⟩ := bind_eq_ok h
      obtain rfl := Except.ok.inj h
      refine ⟨⟨name, ty, part3 = ['1']⟩, ?_, ⟨?_, fun hpk ↦ ?_⟩, ?_⟩
      · simp [readColumn, requiredPart_eq_ok h1, requiredPart_eq_ok h2, requiredPart_eq_ok h3,
          toOption_eq_some hname, toOption_eq_some hty]
      · simpa using hnew
      · simp only [decide_eq_true_eq] at hpk
        simpa [hpk] using hprimary
      · simp [Entry.enter]

theorem foldlM_decodeField {fields : List (List Char)} {row row' : Row}
    (h : fields.foldlM decodeField row = .ok row') :
    ∃ pairs, fields.mapM readField = some pairs ∧
      row' = pairs.foldl (fun row pair ↦ row.insert pair.1 pair.2) row := by
  induction fields generalizing row with
  | nil => exact ⟨[], rfl, (Except.ok.inj h).symm⟩
  | cons field fields ih =>
    rw [List.foldlM_cons] at h
    obtain ⟨row₁, hfield, h⟩ := bind_eq_ok h
    obtain ⟨pairs, hpairs, hrow⟩ := ih h
    rw [decodeField] at hfield
    split at hfield
    · cases hfield
    · rename_i column value hsplit
      obtain ⟨name, hname, hfield⟩ := bind_eq_ok hfield
      obtain ⟨v, hv, hfield⟩ := bind_eq_ok hfield
      obtain rfl := Except.ok.inj hfield
      have hread : readField field = some (name, v) := by
        simp [readField, hsplit, toOption_eq_some hname, toOption_eq_some hv]
      exact ⟨(name, v) :: pairs, by simp [hread, hpairs], hrow⟩

theorem decodeRow_eq_ok {t t' : Table} {parts : List (List Char)}
    (h : decodeRow t parts = .ok t') :
    ∃ rowId fields, readRow parts = some (rowId, fields) ∧
      t' = (Entry.row rowId fields).enter t := by
  obtain ⟨part1, h1, h⟩ := bind_eq_ok h
  split at h
  · cases h
  · rename_i rowId hrowId
    obtain ⟨row, hrow, h⟩ := bind_eq_ok h
    obtain ⟨fields, hfields, rfl⟩ := foldlM_decodeField hrow
    refine ⟨rowId, fields, ?_, (Except.ok.inj h).symm⟩
    simp [readRow, requiredPart_eq_ok h1, hrowId, hfields]

section Platform

variable [Platform] {options : TableRuntimeOptions}

/-- **What a directive does** to the tables that are complete and to the one that is not. -/
inductive Directive.Leads (options : TableRuntimeOptions) :
    Directive → Catalog × Option Table → Catalog × Option Table → Prop
  | table (catalog : Catalog) (name : String) :
      Leads options (.table name) (catalog, none) (catalog, some (.blank name))
  | entry (catalog : Catalog) {t : Table} {entry : Entry} (h : entry.Fits t) :
      Leads options (.entry entry) (catalog, some t) (catalog, some (entry.enter t))
  | endTable (catalog : Catalog) {t : Table}
    (h : (t.rebuildIndexesWithOptions options).1 = .ok ()) :
      Leads options .endTable (catalog, some t)
        (⟨catalog.tables.insert t.name (t.rebuildIndexesWithOptions options).2⟩, none)

/-- **One line that is accepted.** -/
theorem decodeLine_eq_ok {state state' : Catalog × Option Table} {line : List Char}
    (hne : line ≠ []) (h : decodeLine options state line = .ok state') :
    ∃ directive, readLine line = some directive ∧ directive.Leads options state state' := by
  obtain ⟨catalog, current⟩ := state
  rw [decodeLine, if_neg hne] at h
  rw [readLine]
  dsimp only at h ⊢
  by_cases htable : (line.splitOn '\t').headD [] = "TABLE".toList
  · rw [if_pos htable] at h ⊢
    split at h
    · cases h
    · rename_i hcurrent
      obtain ⟨part, hpart, h⟩ := bind_eq_ok h
      obtain ⟨name, hname, h⟩ := bind_eq_ok h
      obtain rfl := Except.ok.inj h
      obtain rfl : current = none := by simpa using hcurrent
      refine ⟨.table name, ?_, .table catalog name⟩
      simp [requiredPart_eq_ok hpart, toOption_eq_some hname]
  rw [if_neg htable] at h ⊢
  by_cases hcolumn : (line.splitOn '\t').headD [] = "COLUMN".toList
  · rw [if_pos hcolumn] at h ⊢
    obtain ⟨t, ht, hparts⟩ := bind_eq_ok h
    obtain rfl := tableMut_eq_ok ht
    obtain ⟨t', ht', hstate⟩ := bind_eq_ok hparts
    obtain rfl := Except.ok.inj hstate
    obtain ⟨column, hread, hfits, rfl⟩ := decodeColumn_eq_ok ht'
    exact ⟨.entry (.column column), by simp [hread], .entry catalog hfits⟩
  rw [if_neg hcolumn] at h ⊢
  by_cases hindex : (line.splitOn '\t').headD [] = "INDEX".toList
  · rw [if_pos hindex] at h ⊢
    obtain ⟨t, ht, h⟩ := bind_eq_ok h
    obtain rfl := tableMut_eq_ok ht
    obtain ⟨name, column, hread, h⟩ := readIndex_eq_some h
    obtain rfl := Except.ok.inj h
    exact ⟨.entry (.index name column), by simp [hread], .entry catalog trivial⟩
  rw [if_neg hindex] at h ⊢
  by_cases hfts : (line.splitOn '\t').headD [] = "FTS".toList
  · rw [if_pos hfts] at h ⊢
    obtain ⟨t, ht, h⟩ := bind_eq_ok h
    obtain rfl := tableMut_eq_ok ht
    obtain ⟨name, column, hread, h⟩ := readIndex_eq_some h
    obtain rfl := Except.ok.inj h
    exact ⟨.entry (.fts name column), by simp [hread], .entry catalog trivial⟩
  rw [if_neg hfts] at h ⊢
  by_cases hrow : (line.splitOn '\t').headD [] = "ROW".toList
  · rw [if_pos hrow] at h ⊢
    obtain ⟨t, ht, hparts⟩ := bind_eq_ok h
    obtain rfl := tableMut_eq_ok ht
    obtain ⟨t', ht', hstate⟩ := bind_eq_ok hparts
    obtain rfl := Except.ok.inj hstate
    obtain ⟨rowId, fields, hread, rfl⟩ := decodeRow_eq_ok ht'
    exact ⟨.entry (.row rowId fields), by simp [hread], .entry catalog trivial⟩
  rw [if_neg hrow] at h ⊢
  by_cases hend : (line.splitOn '\t').headD [] = "ENDTABLE".toList
  · rw [if_pos hend] at h ⊢
    obtain ⟨t, ht, hrest⟩ := bind_eq_ok h
    obtain rfl := tableMut_eq_ok ht
    split at hrest
    · cases hrest
    · rename_i t' hrebuild
      obtain rfl := Except.ok.inj hrest
      have hok : (t.rebuildIndexesWithOptions options).1 = .ok () := by rw [hrebuild]
      have hname : t'.name = t.name := by
        have := (t.rebuild_sameData options).name
        rwa [hrebuild] at this
      have hleads := Directive.Leads.endTable catalog hok
      rw [hrebuild, ← hname] at hleads
      exact ⟨.endTable, rfl, hleads⟩
  · rw [if_neg hend] at h
    cases h

/-! ## Blocks -/

/-- What directives one after the other do. -/
inductive Leads (options : TableRuntimeOptions) :
    List Directive → Catalog × Option Table → Catalog × Option Table → Prop
  | nil (state : Catalog × Option Table) : Leads options [] state state
  | cons {directive : Directive} {directives : List Directive}
      {state state' state'' : Catalog × Option Table} (h : directive.Leads options state state')
      (hrest : Leads options directives state' state'') :
      Leads options (directive :: directives) state state''

/-- **Lines that are accepted.** -/
theorem foldlM_decodeLine {ls : List (List Char)} {state state' : Catalog × Option Table}
    (h : ls.foldlM (decodeLine options) state = .ok state') :
    ∃ directives : List Directive, (ls.filter (· ≠ [])).map readLine = directives.map some ∧
      Leads options directives state state' := by
  induction ls generalizing state with
  | nil => exact ⟨[], rfl, Except.ok.inj h ▸ .nil state⟩
  | cons line ls ih =>
    rw [List.foldlM_cons] at h
    obtain ⟨state₁, hline, h⟩ := bind_eq_ok h
    obtain ⟨directives, hread, hleads⟩ := ih h
    by_cases hne : line = []
    · subst hne
      rw [decodeLine, if_pos rfl] at hline
      obtain rfl := Except.ok.inj hline
      exact ⟨directives, by simpa using hread, hleads⟩
    · obtain ⟨directive, hdirective, hlead⟩ := decodeLine_eq_ok hne hline
      exact ⟨directive :: directives, by simp [hne, hdirective, ← hread], .cons hlead hleads⟩

/-- **A block of a database file**: the lines from `TABLE` to `ENDTABLE`. -/
structure Block where
  /-- The name of the table. -/
  name : String
  /-- What the lines in between declare. -/
  entries : List Entry

namespace Block

/-- The directives of a block. -/
def directives (block : Block) : List Directive :=
  .table block.name :: (block.entries.map .entry ++ [.endTable])

/-- The columns a block declares, in order. -/
def columns (block : Block) : List Column :=
  block.entries.filterMap fun | .column c => some c | _ => none

/-- The names and the columns on the `INDEX` lines of a block. -/
def indexes (block : Block) : List (String × String) :=
  block.entries.filterMap fun | .index name c => some (name, c) | _ => none

/-- The names and the columns on the `FTS` lines of a block. -/
def fulltextIndexes (block : Block) : List (String × String) :=
  block.entries.filterMap fun | .fts name c => some (name, c) | _ => none

/-- The row ids and the fields on the `ROW` lines of a block. -/
def rows (block : Block) : List (RowId × List (String × Value)) :=
  block.entries.filterMap fun | .row rowId fields => some (rowId, fields) | _ => none

/-- A block with one more line. -/
def concat (block : Block) (entry : Entry) : Block := ⟨block.name, block.entries ++ [entry]⟩

omit [Platform] in
theorem filterMap_concat {α : Type} (f : Entry → Option α) (block : Block) (entry : Entry) :
    (block.concat entry).entries.filterMap f = block.entries.filterMap f ++ (f entry).toList := by
  rw [concat, List.filterMap_append]
  rcases h : f entry with _ | a <;> simp [h]

/-- **A table is what a block declares**, the last line counting where several have one key. -/
structure Declares (block : Block) (t : Table) : Prop where
  name : t.name = block.name
  /-- The columns are those of the `COLUMN` lines, in order. -/
  columns : t.columns = block.columns
  /-- Their names are distinct, and at most one is the primary key. -/
  declared : t.Declared
  /-- The rows are those of the `ROW` lines, and their values those of the fields. -/
  rows : Collects (fun fields row ↦ Collects (· = ·) fields fun column ↦ row[column]?) block.rows
    fun rowId ↦ t.rows[rowId]?
  /-- Row ids are below the next one. -/
  rowId_lt (rowId : RowId) (row : Row) : t.rows[rowId]? = some row → rowId < t.nextRowId
  /-- The secondary indexes are those of the `INDEX` lines. -/
  indexes : Collects (· = ·) block.indexes fun n ↦ t.indexes[n]?.map (·.column)
  /-- The full-text indexes are those of the `FTS` lines. -/
  fulltextIndexes : Collects (· = ·) block.fulltextIndexes fun n ↦
    t.fulltextIndexes[n]?.map (·.column)

omit [Platform] in
/-- A block without lines. -/
theorem declares_blank (name : String) : Declares ⟨name, []⟩ (.blank name) where
  name := rfl
  columns := rfl
  declared := ⟨List.nodup_nil, rfl, Nat.one_pos⟩
  rows := by
    simp only [Table.blank, Std.ExtTreeMap.getElem?_empty]
    exact .nil
  rowId_lt _ _ h := by simp [Table.blank] at h
  indexes := by
    simp only [Table.blank, Std.ExtTreeMap.getElem?_empty]
    exact .nil
  fulltextIndexes := by
    simp only [Table.blank, Std.ExtTreeMap.getElem?_empty]
    exact .nil

omit [Platform] in
/-- **One more line.** -/
theorem Declares.enter {block : Block} {t : Table} (h : block.Declares t) {entry : Entry}
    (hfits : entry.Fits t) : (block.concat entry).Declares (entry.enter t) := by
  cases entry with
  | column c =>
    obtain ⟨hnew, hprimary⟩ := hfits
    refine ⟨h.name, ?_, ⟨?_, ?_, h.declared.nextRowId_pos⟩, ?_, h.rowId_lt, ?_, ?_⟩
    · rw [Block.columns, filterMap_concat, ← Block.columns, ← h.columns]
      rfl
    · rw [Entry.enter, List.map_append, List.map_singleton, List.nodup_append]
      exact ⟨h.declared.columns_nodup, List.nodup_singleton _, fun a ha b hb heq ↦
        hnew (List.mem_singleton.mp hb ▸ heq ▸ ha)⟩
    · rw [Entry.enter, List.filter_append, List.map_append, h.declared.primaryKey_eq]
      by_cases hpk : c.primaryKey = true
      · simp [hpk, hprimary hpk]
      · simp [hpk]
    · rw [Block.rows, filterMap_concat, Option.toList_none, List.append_nil]
      exact h.rows
    · rw [Block.indexes, filterMap_concat, Option.toList_none, List.append_nil]
      exact h.indexes
    · rw [Block.fulltextIndexes, filterMap_concat, Option.toList_none, List.append_nil]
      exact h.fulltextIndexes
  | index name c =>
    have hlookup : (fun n ↦ (Entry.enter t (.index name c)).indexes[n]?.map (·.column)) =
        fun n ↦ if name = n then some c else t.indexes[n]?.map (·.column) := by
      funext n
      rw [Entry.enter, Table.addPersistedIndex, BTree.getElem?_insert]
      split <;> rfl
    refine ⟨h.name, ?_, ⟨h.declared.1, h.declared.2, h.declared.3⟩, ?_, h.rowId_lt, ?_, ?_⟩
    · rw [Block.columns, filterMap_concat, Option.toList_none, List.append_nil]
      exact h.columns
    · rw [Block.rows, filterMap_concat, Option.toList_none, List.append_nil]
      exact h.rows
    · rw [Block.indexes, filterMap_concat, hlookup]
      exact h.indexes.concat name rfl
    · rw [Block.fulltextIndexes, filterMap_concat, Option.toList_none, List.append_nil]
      exact h.fulltextIndexes
  | fts name c =>
    have hlookup : (fun n ↦ (Entry.enter t (.fts name c)).fulltextIndexes[n]?.map (·.column)) =
        fun n ↦ if name = n then some c else t.fulltextIndexes[n]?.map (·.column) := by
      funext n
      rw [Entry.enter, Table.addPersistedFulltextIndex, BTree.getElem?_insert]
      split <;> rfl
    refine ⟨h.name, ?_, ⟨h.declared.1, h.declared.2, h.declared.3⟩, ?_, h.rowId_lt, ?_, ?_⟩
    · rw [Block.columns, filterMap_concat, Option.toList_none, List.append_nil]
      exact h.columns
    · rw [Block.rows, filterMap_concat, Option.toList_none, List.append_nil]
      exact h.rows
    · rw [Block.indexes, filterMap_concat, Option.toList_none, List.append_nil]
      exact h.indexes
    · rw [Block.fulltextIndexes, filterMap_concat, hlookup]
      exact h.fulltextIndexes.concat name rfl
  | row rowId fields =>
    have hlookup : (fun i ↦ (Entry.enter t (.row rowId fields)).rows[i]?) =
        fun i ↦ if rowId = i then some (rowOf fields) else t.rows[i]? := by
      funext i
      rw [Entry.enter, BTree.getElem?_insert]
    refine ⟨h.name, ?_, ⟨h.declared.columns_nodup, h.declared.primaryKey_eq, ?_⟩, ?_,
      fun i row hrow ↦ ?_, ?_, ?_⟩
    · rw [Block.columns, filterMap_concat, Option.toList_none, List.append_nil]
      exact h.columns
    · exact Nat.lt_of_lt_of_le h.declared.nextRowId_pos (Nat.le_max_left _ _)
    · rw [Block.rows, filterMap_concat, hlookup]
      exact h.rows.concat rowId (collects_rowOf fields)
    · have hrow' := congrFun hlookup i ▸ hrow
      split at hrow'
      · rename_i heq
        exact heq ▸ Nat.lt_of_lt_of_le (Nat.lt_succ_self rowId) (Nat.le_max_right _ _)
      · exact Nat.lt_of_lt_of_le (h.rowId_lt i row hrow') (Nat.le_max_left _ _)
    · rw [Block.indexes, filterMap_concat, Option.toList_none, List.append_nil]
      exact h.indexes
    · rw [Block.fulltextIndexes, filterMap_concat, Option.toList_none, List.append_nil]
      exact h.fulltextIndexes

omit [Platform] in
/-- What a block declares is not in the contents of the derived maps. -/
theorem Declares.sameData {block : Block} {t t' : Table} (h : block.Declares t)
    (hdata : t.SameData t') : block.Declares t' where
  name := hdata.name.trans h.name
  columns := hdata.columns.trans h.columns
  declared := ⟨hdata.columns ▸ h.declared.columns_nodup,
    by rw [hdata.columns, hdata.primaryKey]; exact h.declared.primaryKey_eq,
    hdata.nextRowId ▸ h.declared.nextRowId_pos⟩
  rows := hdata.rows ▸ h.rows
  rowId_lt := by
    rw [hdata.rows, hdata.nextRowId]
    exact h.rowId_lt
  indexes := by
    rw [funext hdata.indexes]
    exact h.indexes
  fulltextIndexes := by
    rw [funext hdata.fulltextIndexes]
    exact h.fulltextIndexes

/-- **A table is what a block makes of it**: what the block declares, with primary keys present and
distinct, indexed values finite, and the derived maps those of the rows. -/
structure Makes (tokenizer : FullTextTokenizer) (block : Block) (t : Table) : Prop where
  declares : block.Declares t
  keys : t.KeysOk
  indexesFinite : t.IndexesFinite
  exact : t.Exact tokenizer

/-- A table that is read is coherent, if its values are finite. -/
theorem Makes.coherent {tokenizer : FullTextTokenizer} {block : Block} {t : Table}
    (h : block.Makes tokenizer t)
    (hfinite : ∀ (rowId : RowId) (row : Row), t.rows[rowId]? = some row →
      ∀ (column : String) (value : Value), row[column]? = some value → value.isFinite = true) :
    t.Coherent where
  rowId_lt := h.declares.rowId_lt
  finite := hfinite
  keys := h.keys
  primary := h.exact.primary
  indexes := h.exact.indexes
  fulltextIndexes n index hindex token rowId hmem := by
    obtain ⟨row, hrow, -⟩ :=
      ((h.exact.fulltextIndexes n index hindex).mem_lookup token rowId).mp hmem
    exact ⟨row, hrow⟩

/-- The end of a block. -/
theorem Declares.makes {block : Block} {t : Table} (h : block.Declares t)
    (hok : (t.rebuildIndexesWithOptions options).1 = .ok ()) :
    block.Makes options.fulltextTokenizer (t.rebuildIndexesWithOptions options).2 := by
  have hdata := t.rebuild_sameData options
  obtain ⟨hkeys, hfinite⟩ := (t.rebuild_ok_iff options).mp hok
  refine ⟨h.sameData hdata, hdata.keysOk.mpr hkeys, ?_, Table.rebuild_exact hok⟩
  intro n index hindex rowId row hrow value hvalue
  have hcolumn := hdata.indexes n
  rw [hindex, Option.map_some] at hcolumn
  obtain ⟨index', hindex', heq⟩ := Option.map_eq_some_iff.mp hcolumn.symm
  exact hfinite n index' hindex' rowId row (hdata.rows ▸ hrow) value (heq ▸ hvalue)

end Block

/-- **The tables of a catalog are those of blocks**, of the last ones with their names. -/
def MadeOf (tokenizer : FullTextTokenizer) (blocks : List Block) (catalog : Catalog) : Prop :=
  Collects (Block.Makes tokenizer) (blocks.map fun block ↦ (block.name, block)) fun name ↦
    catalog.tables[name]?

theorem madeOf_empty (tokenizer : FullTextTokenizer) : MadeOf tokenizer [] .empty := by
  simp only [MadeOf, Catalog.empty, Std.ExtTreeMap.getElem?_empty]
  exact .nil

/-- One more block. -/
theorem MadeOf.concat {tokenizer : FullTextTokenizer} {blocks : List Block} {catalog : Catalog}
    (h : MadeOf tokenizer blocks catalog) {block : Block} {t : Table}
    (ht : block.Makes tokenizer t) :
    MadeOf tokenizer (blocks ++ [block]) ⟨catalog.tables.insert t.name t⟩ := by
  have hlookup : (fun name ↦ (catalog.tables.insert t.name t)[name]?) =
      fun name ↦ if block.name = name then some t else catalog.tables[name]? := by
    funext name
    rw [BTree.getElem?_insert, ht.declares.name]
  rw [MadeOf, List.map_append, List.map_singleton, hlookup]
  exact Collects.concat h block.name ht

/-- **Directives are blocks**, and the tables come from them.  The induction is on the directives,
for a start outside of a block and for one inside of it. -/
theorem leads_blocks {directives : List Directive} {catalog catalog' : Catalog}
    {done : List Block} (hdone : MadeOf options.fulltextTokenizer done catalog) :
    (Leads options directives (catalog, none) (catalog', none) →
      ∃ blocks : List Block, directives = blocks.flatMap Block.directives ∧
        MadeOf options.fulltextTokenizer (done ++ blocks) catalog') ∧
    ∀ (block : Block) (t : Table), block.Declares t →
      Leads options directives (catalog, some t) (catalog', none) →
        ∃ (entries : List Entry) (blocks : List Block),
          directives = entries.map .entry ++ .endTable :: blocks.flatMap Block.directives ∧
            MadeOf options.fulltextTokenizer
              (done ++ ⟨block.name, block.entries ++ entries⟩ :: blocks) catalog' := by
  induction directives generalizing catalog done with
  | nil =>
    refine ⟨fun h ↦ ?_, fun block t hblock h ↦ ?_⟩
    · cases h
      exact ⟨[], rfl, by rwa [List.append_nil]⟩
    · cases h
  | cons directive directives ih =>
    refine ⟨fun h ↦ ?_, fun block t hblock h ↦ ?_⟩
    · rcases h with _ | ⟨hlead, hrest⟩
      cases hlead with
      | table _ name =>
        obtain ⟨entries, blocks, rfl, hmade⟩ :=
          (ih hdone).2 ⟨name, []⟩ _ (Block.declares_blank name) hrest
        exact ⟨⟨name, entries⟩ :: blocks, by simp [Block.directives], hmade⟩
    · rcases h with _ | ⟨hlead, hrest⟩
      cases hlead with
      | entry _ hfits =>
        rename_i entry
        obtain ⟨entries, blocks, rfl, hmade⟩ :=
          (ih hdone).2 (block.concat entry) _ (hblock.enter hfits) hrest
        exact ⟨entry :: entries, blocks, rfl, by simpa [Block.concat] using hmade⟩
      | endTable _ hok =>
        have hinsert := hdone.concat (hblock.makes hok)
        rw [(t.rebuild_sameData options).name] at hinsert
        obtain ⟨blocks, rfl, hmade⟩ := (ih hinsert).1 hrest
        exact ⟨[], blocks, rfl, by simpa using hmade⟩

/-- What is accepted: an empty text, or a header and complete blocks, and then the tables are those
of the blocks. -/
theorem Catalog.madeOf_decode {input : String} {catalog : Catalog}
    (h : Catalog.decodeWithOptions input options = .ok catalog) :
    (lines input.toList = [] ∧ catalog = .empty) ∨
      ∃ (rest : List (List Char)) (blocks : List Block),
        lines input.toList = "FSQ1".toList :: rest ∧
        (rest.filter (· ≠ [])).map readLine = (blocks.flatMap Block.directives).map some ∧
        MadeOf options.fulltextTokenizer blocks catalog := by
  rw [Catalog.decodeWithOptions] at h
  split at h
  · rename_i hlines
    exact .inl ⟨hlines, (Except.ok.inj h).symm⟩
  · rename_i header rest hlines
    split at h
    · cases h
    · rename_i hheader
      obtain ⟨⟨c, current⟩, hfold, hrest⟩ := bind_eq_ok h
      dsimp only at hrest
      split at hrest
      · cases hrest
      · rename_i hcurrent
        obtain rfl := Except.ok.inj hrest
        obtain rfl : current = none := by simpa using hcurrent
        obtain ⟨directives, hread, hleads⟩ := foldlM_decodeLine hfold
        obtain ⟨blocks, rfl, hmade⟩ := (leads_blocks (madeOf_empty _)).1 hleads
        exact .inr ⟨rest, blocks, by rw [hlines, of_not_not hheader], hread, hmade⟩

end Platform

end Fsql
