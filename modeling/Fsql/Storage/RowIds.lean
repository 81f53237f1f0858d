import Fsql.Sql.Literal
import Fsql.Storage.Accepted

/-!
# Row ids in 64 bits

A row id of the source is a `u64`, and `row_id + 1` is computed twice: for each `ROW` line of a
database file, and for each row that is inserted.  Here are both with the bound; a sum that does not
fit is a panic, as in a build that checks for it.  `Catalog.decode64_eq_ok` says what the reader
accepts, and what it does not check; `rowIdsSafe_iff` says for which texts no sum overflows.
-/

set_option autoImplicit false

namespace Fsql

open Number Text

/-- The greatest row id. -/
def maxRowId : RowId := 2 ^ 64 - 1

/-- `row_id + 1`. -/
def nextId (rowId : RowId) : Parse RowId :=
  if rowId + 1 ≤ maxRowId then .ok (rowId + 1) else .error .panic

/-- A `ROW` line. -/
def decodeRow64 (t : Table) (parts : List (List Char)) : Parse Table := do
  match parseNat maxRowId (← requiredPart parts 1 "row id") with
  | none => throw (.error (execution "invalid row id in file"))
  | some rowId =>
    let row ← ((parts.drop 2).foldlM decodeField ∅ : Result Row)
    let next ← nextId rowId
    return { t with
      nextRowId := max t.nextRowId next
      rows := t.rows.insert rowId row }

section Platform

variable [Platform]

/-- One line.  Row ids are on `ROW` lines only. -/
def decodeLine64 (options : TableRuntimeOptions) (state : Catalog × Option Table)
    (line : List Char) : Parse (Catalog × Option Table) :=
  let parts := line.splitOn '\t'
  if parts.headD [] = "ROW".toList then do
    let table ← tableMut state.2 "row outside table block"
    return (state.1, some (← decodeRow64 table parts))
  else (decodeLine options state line).mapError .error

/-- `Catalog::decode_with_options`. -/
def Catalog.decode64 (input : String) (options : TableRuntimeOptions) : Parse Catalog :=
  match lines input.toList with
  | [] => .ok .empty
  | header :: rest =>
    if header ≠ "FSQ1".toList then
      .error (.error (execution "unsupported database file format"))
    else do
      let (catalog, current) ← rest.foldlM (decodeLine64 options) (.empty, none)
      if current.isSome then throw (.error (execution "unterminated table block"))
      else return catalog

/-- `Table::insert_with_options`. -/
def Table.insert64 (t : Table) (columns : Option (List String)) (values : List Value)
    (options : TableRuntimeOptions) : Parse Unit × Table :=
  match t.insertRow columns values options with
  | .error error => (.error (.error error), t)
  | .ok row =>
    match nextId t.nextRowId with
    | .error fault => (.error fault, t)
    | .ok next =>
      let (result, t) := { t with
        nextRowId := next
        rows := t.rows.insert t.nextRowId row }.rebuildIndexesWithOptions options
      (result.mapError .error, t)

end Platform

/-! ## One line -/

theorem nextId_eq_ok {rowId next : RowId} (h : nextId rowId = .ok next) :
    rowId < maxRowId ∧ next = rowId + 1 := by
  rw [nextId] at h
  split at h
  · rename_i hle
    exact ⟨hle, (Except.ok.inj h).symm⟩
  · cases h

theorem nextId_maxRowId : nextId maxRowId = .error .panic := by decide

theorem parseNat_eq_some_iff {max : Nat} {l : List Char} {n : Nat} :
    parseNat max l = some n ↔ parseUnbounded l = some n ∧ n ≤ max := by
  simp only [parseNat, parseUnbounded]
  generalize (if l.head? = some '+' then l.tail else l) = digits
  constructor
  · intro h
    split at h
    · rename_i hall
      obtain rfl := Option.some.inj h
      exact ⟨if_pos ⟨hall.1, hall.2.1⟩, hall.2.2⟩
    · cases h
  · rintro ⟨h, hle⟩
    split at h
    · rename_i hall
      obtain rfl := Option.some.inj h
      exact if_pos ⟨hall.1, hall.2, hle⟩
    · cases h

/-- Fields that can be read make a row. -/
theorem foldlM_of_mapM_readField {fields : List (List Char)} {pairs : List (String × Value)}
    (h : fields.mapM readField = some pairs) (row : Row) :
    ∃ row', fields.foldlM decodeField row = .ok row' := by
  induction fields generalizing pairs row with
  | nil => exact ⟨row, rfl⟩
  | cons field fields ih =>
    rw [List.mapM_cons] at h
    obtain ⟨pair, hpair, hrest⟩ := Option.bind_eq_some_iff.mp h
    obtain ⟨pairs', hpairs, -⟩ := Option.bind_eq_some_iff.mp hrest
    obtain ⟨⟨column, value⟩, hsplit, hread⟩ := Option.bind_eq_some_iff.mp hpair
    obtain ⟨name, hname, hread⟩ := Option.bind_eq_some_iff.mp hread
    obtain ⟨v, hv, -⟩ := Option.bind_eq_some_iff.mp hread
    have hfield : decodeField row field = .ok (row.insert name v) := by
      rcases hdecode : decodeString column with error | name'
      · rw [hdecode] at hname
        cases hname
      · rcases hvalue : decodeValue value with error | v'
        · rw [hvalue] at hv
          cases hv
        · rw [hdecode] at hname
          rw [hvalue] at hv
          obtain rfl := Option.some.inj hname
          obtain rfl := Option.some.inj hv
          simp [decodeField, hsplit, hdecode, hvalue, bind, Except.bind, pure, Except.pure]
    obtain ⟨row', hrow'⟩ := ih hpairs (row.insert name v)
    refine ⟨row', ?_⟩
    rw [List.foldlM_cons, hfield]
    exact hrow'

/-- **A `ROW` line that is accepted**: the sum fits. -/
theorem decodeRow64_eq_ok {t t' : Table} {parts : List (List Char)}
    (h : decodeRow64 t parts = .ok t') :
    ∃ rowId fields, readRow parts = some (rowId, fields) ∧ rowId < maxRowId ∧
      t' = (Entry.row rowId fields).enter t := by
  obtain ⟨part, hpart, h⟩ := bind_eq_ok_iff.mp h
  have hpart := requiredPart_eq_ok (monadLift_eq_ok_iff.mp hpart)
  split at h
  · cases h
  · rename_i rowId hrowId
    obtain ⟨row, hrow, h⟩ := bind_eq_ok_iff.mp h
    obtain ⟨next, hnext, h⟩ := bind_eq_ok_iff.mp h
    obtain ⟨hlt, rfl⟩ := nextId_eq_ok hnext
    obtain ⟨fields, hfields, rfl⟩ := foldlM_decodeField (monadLift_eq_ok_iff.mp hrow)
    refine ⟨rowId, fields, ?_, hlt, (Except.ok.inj h).symm⟩
    simp [readRow, hpart, (parseNat_eq_some_iff.mp hrowId).1, hfields]

/-- It is accepted without a bound too. -/
theorem decodeRow_of_decodeRow64 {t t' : Table} {parts : List (List Char)}
    (h : decodeRow64 t parts = .ok t') : decodeRow t parts = .ok t' := by
  obtain ⟨part, hpart, h⟩ := bind_eq_ok_iff.mp h
  split at h
  · cases h
  · rename_i rowId hrowId
    obtain ⟨row, hrow, h⟩ := bind_eq_ok_iff.mp h
    obtain ⟨next, hnext, h⟩ := bind_eq_ok_iff.mp h
    obtain ⟨-, rfl⟩ := nextId_eq_ok hnext
    refine bind_eq_ok_iff.mpr ⟨part, monadLift_eq_ok_iff.mp hpart, ?_⟩
    rw [(parseNat_eq_some_iff.mp hrowId).1]
    exact bind_eq_ok_iff.mpr ⟨row, monadLift_eq_ok_iff.mp hrow, congrArg _ (Except.ok.inj h)⟩

/-- **A `ROW` line that panics** has the greatest row id. -/
theorem decodeRow64_eq_panic_iff {t : Table} {parts : List (List Char)} :
    decodeRow64 t parts = .error .panic ↔ ∃ fields, readRow parts = some (maxRowId, fields) := by
  constructor
  · intro h
    rcases bind_eq_error_iff.mp h with hpart | ⟨part, hpart, h⟩
    · exact absurd hpart (monadLift_ne_panic _)
    · have hpart := requiredPart_eq_ok (monadLift_eq_ok_iff.mp hpart)
      split at h
      · cases Except.error.inj h
      · rename_i rowId hrowId
        obtain ⟨hparse, hle⟩ := parseNat_eq_some_iff.mp hrowId
        rcases bind_eq_error_iff.mp h with hrow | ⟨row, hrow, h⟩
        · exact absurd hrow (monadLift_ne_panic _)
        · obtain ⟨fields, hfields, -⟩ := foldlM_decodeField (monadLift_eq_ok_iff.mp hrow)
          rcases bind_eq_error_iff.mp h with hnext | ⟨next, -, h⟩
          · rw [nextId] at hnext
            split at hnext
            · cases hnext
            · rename_i hover
              have hmax : rowId = maxRowId := Nat.le_antisymm hle (Nat.not_lt.mp hover)
              exact ⟨fields, by simp [readRow, hpart, hparse, hfields, hmax]⟩
          · cases h
  · rintro ⟨fields, h⟩
    obtain ⟨part, hpart, h⟩ := Option.bind_eq_some_iff.mp h
    obtain ⟨rowId, hparse, h⟩ := Option.bind_eq_some_iff.mp h
    obtain ⟨pairs, hfields, h⟩ := Option.bind_eq_some_iff.mp h
    obtain ⟨rfl, rfl⟩ := Prod.mk.inj (Option.some.inj h)
    obtain ⟨row, hrow⟩ := foldlM_of_mapM_readField hfields ∅
    refine bind_eq_error_iff.mpr (.inr ⟨part, ?_, ?_⟩)
    · rw [requiredPart, hpart]
      rfl
    · rw [parseNat_eq_some_iff.mpr ⟨hparse, le_rfl⟩]
      refine bind_eq_error_iff.mpr (.inr ⟨row, monadLift_eq_ok_iff.mpr hrow, ?_⟩)
      exact bind_eq_error_iff.mpr (.inl nextId_maxRowId)

theorem readLine_eq_row_iff {line : List Char} {rowId : RowId} {fields : List (String × Value)} :
    readLine line = some (.entry (.row rowId fields)) ↔
      (line.splitOn '\t').headD [] = "ROW".toList ∧
        readRow (line.splitOn '\t') = some (rowId, fields) := by
  by_cases hhead : (line.splitOn '\t').headD [] = "ROW".toList
  · have hrow : readLine line = (readRow (line.splitOn '\t')).bind fun row ↦
        some (.entry (.row row.1 row.2)) := by
      rw [readLine]
      simp only [hhead]
      rfl
    rw [hrow, Option.bind_eq_some_iff]
    constructor
    · rintro ⟨row, hread, h⟩
      cases h
      exact ⟨hhead, hread⟩
    · rintro ⟨-, hread⟩
      exact ⟨_, hread, rfl⟩
  · refine ⟨fun h ↦ ?_, fun h ↦ absurd h.1 hhead⟩
    rw [readLine] at h
    simp only [hhead, if_false] at h
    -- no other directive is a row
    split at h
    · obtain ⟨part, -, h⟩ := Option.bind_eq_some_iff.mp h
      obtain ⟨name, -, h⟩ := Option.bind_eq_some_iff.mp h
      cases h
    split at h
    · obtain ⟨column, -, h⟩ := Option.bind_eq_some_iff.mp h
      cases h
    split at h
    · obtain ⟨index, -, h⟩ := Option.bind_eq_some_iff.mp h
      cases h
    split at h
    · obtain ⟨index, -, h⟩ := Option.bind_eq_some_iff.mp h
      cases h
    split at h
    · cases h
    · cases h

section Platform

variable [Platform] {options : TableRuntimeOptions}

/-- **One line that is accepted**: what it leads to, and that its sum fits. -/
theorem decodeLine64_eq_ok {state state' : Catalog × Option Table} {line : List Char}
    (hne : line ≠ []) (h : decodeLine64 options state line = .ok state') :
    ∃ directive, readLine line = some directive ∧ directive.Leads options state state' ∧
      ∀ rowId fields, directive = .entry (.row rowId fields) → rowId < maxRowId := by
  obtain ⟨catalog, current⟩ := state
  rw [decodeLine64] at h
  split at h
  · rename_i hhead
    obtain ⟨t, ht, h⟩ := bind_eq_ok_iff.mp h
    obtain ⟨t', hrow, h⟩ := bind_eq_ok_iff.mp h
    obtain rfl : current = some t := tableMut_eq_ok (monadLift_eq_ok_iff.mp ht)
    obtain ⟨rowId, fields, hread, hlt, rfl⟩ := decodeRow64_eq_ok hrow
    obtain rfl := Except.ok.inj h
    refine ⟨.entry (.row rowId fields), readLine_eq_row_iff.mpr ⟨hhead, hread⟩,
      .entry catalog trivial, ?_⟩
    rintro _ _ ⟨⟩
    exact hlt
  · rename_i hhead
    obtain ⟨directive, hread, hleads⟩ := decodeLine_eq_ok hne (monadLift_eq_ok_iff.mp h)
    refine ⟨directive, hread, hleads, ?_⟩
    rintro rowId fields rfl
    exact absurd (readLine_eq_row_iff.mp hread).1 hhead

/-- It is accepted without a bound too. -/
theorem decodeLine_of_decodeLine64 {state state' : Catalog × Option Table} {line : List Char}
    (h : decodeLine64 options state line = .ok state') :
    decodeLine options state line = .ok state' := by
  obtain ⟨catalog, current⟩ := state
  rw [decodeLine64] at h
  split at h
  · rename_i hhead
    obtain ⟨t, ht, h⟩ := bind_eq_ok_iff.mp h
    obtain ⟨t', hrow, h⟩ := bind_eq_ok_iff.mp h
    have hne : line ≠ [] := by
      rintro rfl
      exact absurd hhead (by decide)
    rw [decodeLine, if_neg hne]
    simp only [hhead]
    refine bind_eq_ok_iff.mpr ⟨t, monadLift_eq_ok_iff.mp ht, ?_⟩
    exact bind_eq_ok_iff.mpr ⟨t', decodeRow_of_decodeRow64 hrow, congrArg _ (Except.ok.inj h)⟩
  · exact monadLift_eq_ok_iff.mp h

/-- **One line that panics.** -/
theorem decodeLine64_eq_panic_iff {state : Catalog × Option Table} {line : List Char} :
    decodeLine64 options state line = .error .panic ↔
      state.2.isSome ∧ ∃ fields, readLine line = some (.entry (.row maxRowId fields)) := by
  simp only [readLine_eq_row_iff]
  rw [decodeLine64]
  split
  · rename_i hhead
    rcases hcurrent : state.2 with _ | t
    · refine ⟨fun h ↦ ?_, fun h ↦ absurd h.1 (by simp)⟩
      rcases bind_eq_error_iff.mp h with h | ⟨t, ht, -⟩
      · exact absurd h (monadLift_ne_panic _)
      · cases tableMut_eq_ok (monadLift_eq_ok_iff.mp ht)
    · simp only [hhead, true_and, Option.isSome_some, ← decodeRow64_eq_panic_iff (t := t)]
      constructor
      · intro h
        rcases bind_eq_error_iff.mp h with h | ⟨t', ht', h⟩
        · exact absurd h (monadLift_ne_panic _)
        · obtain rfl := Option.some.inj (tableMut_eq_ok (monadLift_eq_ok_iff.mp ht'))
          rcases bind_eq_error_iff.mp h with h | ⟨t'', -, h⟩
          · exact h
          · cases h
      · intro h
        exact bind_eq_error_iff.mpr (.inr ⟨t, rfl, bind_eq_error_iff.mpr (.inl h)⟩)
  · rename_i hhead
    exact ⟨fun h ↦ absurd h (monadLift_ne_panic _), fun ⟨_, _, h, _⟩ ↦ absurd h hhead⟩

/-! ## Tables -/

omit [Platform] in
/-- **Row ids of a table fit**: the next one is free, at most the greatest one, and right after the
highest one that is taken. -/
structure Table.RowIdsOk (t : Table) : Prop where
  rowId_lt (rowId : RowId) : rowId ∈ t.rows → rowId < t.nextRowId
  nextRowId_le : t.nextRowId ≤ maxRowId
  highest : t.nextRowId = 1 ∨ t.nextRowId - 1 ∈ t.rows

omit [Platform] in
theorem Table.rowIdsOk_blank (name : String) : (Table.blank name).RowIdsOk where
  rowId_lt rowId h := by simp [Table.blank] at h
  nextRowId_le := by
    show 1 ≤ maxRowId
    decide
  highest := .inl rfl

omit [Platform] in
theorem Table.RowIdsOk.sameData {t t' : Table} (h : t.RowIdsOk) (hdata : t.SameData t') :
    t'.RowIdsOk where
  rowId_lt := by
    rw [hdata.rows, hdata.nextRowId]
    exact h.rowId_lt
  nextRowId_le := by
    rw [hdata.nextRowId]
    exact h.nextRowId_le
  highest := by
    rw [hdata.rows, hdata.nextRowId]
    exact h.highest

omit [Platform] in
theorem mem_insert_rows (rows : BTreeMap RowId Row) (rowId : RowId) (row : Row) (i : RowId) :
    i ∈ rows.insert rowId row ↔ rowId = i ∨ i ∈ rows := by
  rw [Std.ExtTreeMap.mem_insert, Std.LawfulEqCmp.compare_eq_iff_eq]

omit [Platform] in
/-- One more `ROW` line. -/
theorem Table.RowIdsOk.enterRow {t : Table} (h : t.RowIdsOk) {rowId : RowId}
    (hlt : rowId < maxRowId) (fields : List (String × Value)) :
    ((Entry.row rowId fields).enter t).RowIdsOk where
  rowId_lt i hi := by
    show i < max t.nextRowId (rowId + 1)
    rcases (mem_insert_rows t.rows rowId (rowOf fields) i).mp hi with rfl | hi
    · exact lt_max_of_lt_right (Nat.lt_succ_self _)
    · exact lt_max_of_lt_left (h.rowId_lt i hi)
  nextRowId_le := max_le h.nextRowId_le hlt
  highest := by
    show max t.nextRowId (rowId + 1) = 1 ∨
      max t.nextRowId (rowId + 1) - 1 ∈ t.rows.insert rowId (rowOf fields)
    rcases le_total (rowId + 1) t.nextRowId with hle | hle
    · rw [max_eq_left hle]
      refine h.highest.imp_right fun hmem ↦ ?_
      exact (mem_insert_rows t.rows rowId (rowOf fields) _).mpr (.inr hmem)
    · rw [max_eq_right hle]
      exact .inr ((mem_insert_rows t.rows rowId (rowOf fields) _).mpr (.inl rfl))

/-! ## The reader -/

omit [Platform] in
/-- The tables the reader has, the one it is inside of included. -/
def RowIdsOk (state : Catalog × Option Table) : Prop :=
  state.1.All Table.RowIdsOk ∧ ∀ t ∈ state.2, t.RowIdsOk

/-- What one directive does. -/
theorem Directive.Leads.rowIdsOk {directive : Directive} {state state' : Catalog × Option Table}
    (h : directive.Leads options state state')
    (hlt : ∀ rowId fields, directive = .entry (.row rowId fields) → rowId < maxRowId)
    (hstate : RowIdsOk state) : RowIdsOk state' := by
  cases h with
  | table catalog name =>
    refine ⟨hstate.1, fun t ht ↦ ?_⟩
    obtain rfl := Option.some.inj ht
    exact Table.rowIdsOk_blank name
  | @entry catalog t entry hfits =>
    refine ⟨hstate.1, fun t' ht' ↦ ?_⟩
    obtain rfl := Option.some.inj ht'
    have ht := hstate.2 t rfl
    cases entry with
    | column column => exact ⟨ht.rowId_lt, ht.nextRowId_le, ht.highest⟩
    | index name column => exact ⟨ht.rowId_lt, ht.nextRowId_le, ht.highest⟩
    | fts name column => exact ⟨ht.rowId_lt, ht.nextRowId_le, ht.highest⟩
    | row rowId fields => exact ht.enterRow (hlt rowId fields rfl) fields
  | @endTable catalog t hok =>
    refine ⟨hstate.1.insert t.name ?_, by simp⟩
    exact (hstate.2 t rfl).sameData (t.rebuild_sameData options)

/-- What lines that are accepted do. -/
theorem foldlM_decodeLine64_rowIdsOk {ls : List (List Char)} {state state' : Catalog × Option Table}
    (h : ls.foldlM (decodeLine64 options) state = .ok state') (hstate : RowIdsOk state) :
    RowIdsOk state' := by
  induction ls generalizing state with
  | nil => exact Except.ok.inj h ▸ hstate
  | cons line ls ih =>
    rw [List.foldlM_cons] at h
    obtain ⟨state₁, hline, h⟩ := bind_eq_ok_iff.mp h
    refine ih h ?_
    by_cases hne : line = []
    · subst hne
      obtain rfl := Except.ok.inj hline
      exact hstate
    · obtain ⟨directive, -, hleads, hlt⟩ := decodeLine64_eq_ok hne hline
      exact hleads.rowIdsOk hlt hstate

/-- **The row ids of every table that is read fit.** -/
theorem Catalog.decode64_rowIdsOk {input : String} {catalog : Catalog}
    (h : Catalog.decode64 input options = .ok catalog) : catalog.All Table.RowIdsOk := by
  rw [Catalog.decode64] at h
  split at h
  · obtain rfl := Except.ok.inj h
    exact Catalog.all_empty _
  · split at h
    · cases h
    · obtain ⟨⟨c, current⟩, hfold, h⟩ := bind_eq_ok_iff.mp h
      dsimp only at h
      split at h
      · cases h
      · obtain rfl := Except.ok.inj h
        exact (foldlM_decodeLine64_rowIdsOk hfold ⟨Catalog.all_empty _, by simp⟩).1

/-- **What is read is what the reader without a bound reads.** -/
theorem Catalog.decodeWithOptions_of_decode64 {input : String} {catalog : Catalog}
    (h : Catalog.decode64 input options = .ok catalog) :
    Catalog.decodeWithOptions input options = .ok catalog := by
  have hfold (ls : List (List Char)) (state state' : Catalog × Option Table)
      (h : ls.foldlM (decodeLine64 options) state = .ok state') :
      ls.foldlM (decodeLine options) state = .ok state' := by
    induction ls generalizing state with
    | nil => exact congrArg Except.ok (Except.ok.inj h)
    | cons line ls ih =>
      rw [List.foldlM_cons] at h ⊢
      obtain ⟨state₁, hline, h⟩ := bind_eq_ok_iff.mp h
      exact bind_eq_ok_iff.mpr ⟨state₁, decodeLine_of_decodeLine64 hline, ih state₁ h⟩
  rw [Catalog.decode64] at h
  rw [Catalog.decodeWithOptions]
  generalize lines input.toList = ls at h ⊢
  rcases ls with _ | ⟨header, rest⟩
  · exact congrArg Except.ok (Except.ok.inj h)
  · dsimp only at h ⊢
    split at h
    · cases h
    · rename_i hheader
      rw [if_neg hheader]
      obtain ⟨⟨c, current⟩, hlines, h⟩ := bind_eq_ok_iff.mp h
      refine bind_eq_ok_iff.mpr ⟨(c, current), hfold rest _ _ hlines, ?_⟩
      dsimp only at h ⊢
      split at h
      · cases h
      · rename_i hcurrent
        rw [if_neg hcurrent]
        exact congrArg Except.ok (Except.ok.inj h)

/-- The row ids on lines that are accepted are below the greatest one. -/
theorem rowId_lt_of_foldlM {ls : List (List Char)} {state state' : Catalog × Option Table}
    (h : ls.foldlM (decodeLine64 options) state = .ok state') {line : List Char} (hmem : line ∈ ls)
    {rowId : RowId} {fields : List (String × Value)}
    (hread : readLine line = some (.entry (.row rowId fields))) : rowId < maxRowId := by
  induction ls generalizing state with
  | nil => cases hmem
  | cons head ls ih =>
    rw [List.foldlM_cons] at h
    obtain ⟨state₁, hline, h⟩ := bind_eq_ok_iff.mp h
    rcases List.mem_cons.mp hmem with rfl | hmem
    · have hne : line ≠ [] := by
        rintro rfl
        cases hread
      obtain ⟨directive, hdirective, -, hlt⟩ := decodeLine64_eq_ok hne hline
      exact hlt rowId fields (Option.some.inj (hdirective.symm.trans hread))
    · exact ih h hmem

omit [Platform] in
/-- The rows that blocks declare are on lines. -/
theorem exists_line_of_mem_rows {ls : List (List Char)} {blocks : List Block}
    (h : ls.map readLine = (blocks.flatMap Block.directives).map some) {block : Block}
    (hblock : block ∈ blocks) {row : RowId × List (String × Value)} (hrow : row ∈ block.rows) :
    ∃ line ∈ ls, readLine line = some (.entry (.row row.1 row.2)) := by
  obtain ⟨entry, hentry, heq⟩ := List.mem_filterMap.mp hrow
  have hdirective : Directive.entry entry ∈ block.directives :=
    List.mem_cons_of_mem _ (List.mem_append_left _ (List.mem_map_of_mem hentry))
  have hmem : some (Directive.entry entry) ∈ ls.map readLine := by
    rw [h]
    exact List.mem_map_of_mem (List.mem_flatMap_of_mem hblock hdirective)
  obtain ⟨line, hline, hread⟩ := List.mem_map.mp hmem
  refine ⟨line, hline, hread.trans ?_⟩
  cases entry with
  | row rowId fields =>
    obtain rfl := Option.some.inj heq
    rfl
  | _ => cases heq

/-- **What is accepted**: an empty text, or a header and complete blocks with row ids that fit, and
then the tables are those of the blocks, and so are their rows, indexes and counters. -/
theorem Catalog.decode64_eq_ok {input : String} {catalog : Catalog}
    (h : Catalog.decode64 input options = .ok catalog) :
    (lines input.toList = [] ∧ catalog = .empty) ∨
      ∃ (rest : List (List Char)) (blocks : List Block),
        lines input.toList = "FSQ1".toList :: rest ∧
        (rest.filter (· ≠ [])).map readLine = (blocks.flatMap Block.directives).map some ∧
        (∀ block ∈ blocks, ∀ row ∈ block.rows, row.1 < maxRowId) ∧
        MadeOf options.fulltextTokenizer blocks catalog ∧
        catalog.All Table.RowIdsOk := by
  rcases Catalog.madeOf_decode (Catalog.decodeWithOptions_of_decode64 h) with
    hempty | ⟨rest, blocks, hlines, hread, hmade⟩
  · exact .inl hempty
  · refine .inr ⟨rest, blocks, hlines, hread, fun block hblock row hrow ↦ ?_, hmade,
      Catalog.decode64_rowIdsOk h⟩
    obtain ⟨line, hline, hrow⟩ := exists_line_of_mem_rows hread hblock hrow
    rw [Catalog.decode64, hlines] at h
    dsimp only at h
    rw [if_neg (not_not_intro rfl)] at h
    obtain ⟨_, hfold, -⟩ := bind_eq_ok_iff.mp h
    exact rowId_lt_of_foldlM hfold (List.mem_filter.mp hline).1 hrow

/-- A catalog that is read is coherent, if its values are finite. -/
theorem Catalog.coherent_of_decode64 {input : String} {catalog : Catalog}
    (h : Catalog.decode64 input options = .ok catalog)
    (hfinite : catalog.All fun t ↦ ∀ (rowId : RowId) (row : Row), t.rows[rowId]? = some row →
      ∀ (column : String) (value : Value), row[column]? = some value → value.isFinite = true) :
    catalog.Coherent := by
  intro name t ht
  rcases Catalog.madeOf_decode (Catalog.decodeWithOptions_of_decode64 h) with
    ⟨-, rfl⟩ | ⟨rest, blocks, -, -, hmade⟩
  · cases ht
  · obtain ⟨-, block, -, -, -, hmakes⟩ := hmade.exists_last name t ht
    exact hmakes.coherent (hfinite name t ht)

end Platform

/-! ## What is not checked -/

/-- An index on a column the table has not, two rows under one row id, a field of no column and a
text in an integer column. -/
def uncheckedFile : String :=
  "FSQ1\nTABLE\t74\nCOLUMN\t61\tinteger\t0\nINDEX\t69\t78\n" ++
    "ROW\t1\t61=I:1\nROW\t1\t61=T:\t62=N\nENDTABLE\n"

/-- It is accepted. -/
theorem decode_uncheckedFile : ∃ catalog : Catalog,
    @Catalog.decode64 Platform.ascii uncheckedFile {} = .ok catalog ∧
      ((lines uncheckedFile.toList = [] ∧ catalog = .empty) ∨
        ∃ (rest : List (List Char)) (blocks : List Block),
          lines uncheckedFile.toList = "FSQ1".toList :: rest ∧
          (rest.filter (· ≠ [])).map readLine = (blocks.flatMap Block.directives).map some ∧
          (∀ block ∈ blocks, ∀ row ∈ block.rows, row.1 < maxRowId) ∧
          @MadeOf Platform.ascii .simple blocks catalog ∧ catalog.All Table.RowIdsOk) := by
  have hok : (@Catalog.decode64 Platform.ascii uncheckedFile {}).isOk = true := by
    decide +kernel
  rcases hdecode : @Catalog.decode64 Platform.ascii uncheckedFile {} with error | catalog
  · rw [hdecode] at hok
    cases hok
  · exact ⟨catalog, rfl, @Catalog.decode64_eq_ok Platform.ascii {} _ _ hdecode⟩

/-- **The reader checks neither columns of indexes nor fields of rows**, and drops a row under a row
id that comes again. -/
theorem not_checked : ∃ (catalog : Catalog) (t : Table) (index : Index) (row : Row),
    @Catalog.decode64 Platform.ascii uncheckedFile {} = .ok catalog ∧
      catalog.tables["t"]? = some t ∧ t.columns = [⟨"a", .integer, false⟩] ∧
      t.indexes["i"]? = some index ∧ index.column = "x" ∧
      t.rows.toList = [(1, row)] ∧ row["b"]? = some .null ∧ row["a"]? = some (.text "") := by
  have hcheck : (@Catalog.decode64 Platform.ascii uncheckedFile {}).toOption.any
      (fun catalog ↦ catalog.tables["t"]?.any fun t ↦ t.indexes["i"]?.any fun index ↦
        t.rows[1]?.any fun row ↦ t.columns = [⟨"a", .integer, false⟩] ∧ index.column = "x" ∧
          t.rows.toList = [(1, row)] ∧ row["b"]? = some .null ∧ row["a"]? = some (.text "")) =
        true := by decide +kernel
  simp only [Option.any_eq_true, decide_eq_true_eq] at hcheck
  obtain ⟨catalog, hdecode, t, ht, index, hindex, row, -, hcolumns, hcolumn, hrows, hb, ha⟩ :=
    hcheck
  refine ⟨catalog, t, index, row, ?_, ht, hcolumns, hindex, hcolumn, hrows, hb, ha⟩
  rcases hd : @Catalog.decode64 Platform.ascii uncheckedFile {} with error | c
  · rw [hd] at hdecode
    cases hdecode
  · rw [hd] at hdecode
    exact congrArg Except.ok (Option.some.inj hdecode)

/-! ## Where the reader panics -/

/-- A loop ends early at the first item that ends it. -/
theorem foldlM_eq_error_iff {ε α β : Type} {f : β → α → Except ε β} {xs : List α} {b : β} {e : ε} :
    xs.foldlM f b = .error e ↔ ∃ before x after b', xs = before ++ x :: after ∧
      before.foldlM f b = .ok b' ∧ f b' x = .error e := by
  induction xs generalizing b with
  | nil =>
    refine ⟨fun h ↦ (by cases h), ?_⟩
    rintro ⟨before, x, after, b', h, -⟩
    simp at h
  | cons y xs ih =>
    rw [List.foldlM_cons, bind_eq_error_iff]
    constructor
    · rintro (h | ⟨b₁, hy, h⟩)
      · exact ⟨[], y, xs, b, rfl, rfl, h⟩
      · obtain ⟨before, x, after, b', rfl, hbefore, hx⟩ := ih.mp h
        refine ⟨y :: before, x, after, b', rfl, ?_, hx⟩
        rw [List.foldlM_cons]
        exact bind_eq_ok_iff.mpr ⟨b₁, hy, hbefore⟩
    · rintro ⟨before, x, after, b', h, hbefore, hx⟩
      cases before with
      | nil =>
        obtain ⟨rfl, rfl⟩ := List.cons.inj h
        obtain rfl := Except.ok.inj hbefore
        exact .inl hx
      | cons z before =>
        obtain ⟨rfl, rfl⟩ := List.cons.inj h
        rw [List.foldlM_cons] at hbefore
        obtain ⟨b₁, hy, hbefore⟩ := bind_eq_ok_iff.mp hbefore
        exact .inr ⟨b₁, hy, ih.mpr ⟨before, x, after, b', rfl, hbefore, hx⟩⟩

section Platform

variable [Platform] {options : TableRuntimeOptions}

/-- **The reader comes to a row with the greatest row id**: it accepts the lines before, is inside
of a table block, and the line can be read. -/
def MeetsMaxRowId (options : TableRuntimeOptions) (input : String) : Prop :=
  ∃ before line after catalog t fields,
    lines input.toList = "FSQ1".toList :: (before ++ line :: after) ∧
      before.foldlM (decodeLine64 options) (.empty, none) = .ok (catalog, some t) ∧
      readLine line = some (.entry (.row maxRowId fields))

/-- **When the reader panics.** -/
theorem Catalog.decode64_eq_panic_iff {input : String} :
    Catalog.decode64 input options = .error .panic ↔ MeetsMaxRowId options input := by
  rw [Catalog.decode64, MeetsMaxRowId]
  split
  · rename_i hlines
    refine ⟨fun h ↦ (by cases h), ?_⟩
    rintro ⟨before, line, after, catalog, t, fields, h, -⟩
    cases hlines.symm.trans h
  · rename_i header rest hlines
    rw [hlines]
    split
    · rename_i hheader
      refine ⟨fun h ↦ (by cases Except.error.inj h), ?_⟩
      rintro ⟨before, line, after, catalog, t, fields, h, -⟩
      exact absurd (List.cons.inj h).1 hheader
    · rename_i hheader
      obtain rfl := of_not_not hheader
      constructor
      · intro h
        rcases bind_eq_error_iff.mp h with h | ⟨⟨catalog, current⟩, -, h⟩
        · obtain ⟨before, line, after, ⟨catalog, current⟩, rfl, hbefore, hline⟩ :=
            foldlM_eq_error_iff.mp h
          obtain ⟨hcurrent, fields, hread⟩ := decodeLine64_eq_panic_iff.mp hline
          obtain ⟨t, rfl⟩ := Option.isSome_iff_exists.mp hcurrent
          exact ⟨before, line, after, catalog, t, fields, rfl, hbefore, hread⟩
        · dsimp only at h
          split at h
          · cases Except.error.inj h
          · cases h
      · rintro ⟨before, line, after, catalog, t, fields, h, hbefore, hread⟩
        obtain rfl := (List.cons.inj h).2
        refine bind_eq_error_iff.mpr (.inl (foldlM_eq_error_iff.mpr ?_))
        exact ⟨before, line, after, _, rfl, hbefore,
          decodeLine64_eq_panic_iff.mpr ⟨rfl, fields, hread⟩⟩

/-! ## Inserting -/

/-- **An insertion keeps the rows there are**, whatever comes of it. -/
theorem Table.RowIdsOk.insert64_keeps {t : Table} (h : t.RowIdsOk) (columns : Option (List String))
    (values : List Value) {rowId : RowId} {row : Row} (hrow : t.rows[rowId]? = some row) :
    (t.insert64 columns values options).2.rows[rowId]? = some row := by
  rw [Table.insert64]
  split
  · exact hrow
  · rename_i inserted hinserted
    split
    · exact hrow
    · rename_i next hnext
      have hlt := h.rowId_lt rowId ((BTree.mem_iff_exists t.rows rowId).mpr ⟨row, hrow⟩)
      show (Table.rebuildIndexesWithOptions _ options).2.rows[rowId]? = some row
      rw [(Table.rebuild_sameData _ options).rows]
      show (t.rows.insert t.nextRowId inserted)[rowId]? = some row
      rw [BTree.getElem?_insert, if_neg (Nat.ne_of_gt hlt)]
      exact hrow

/-- **When an insertion panics**: its checks pass, and the greatest row id but one is taken. -/
theorem Table.RowIdsOk.insert64_eq_panic_iff {t : Table} (h : t.RowIdsOk)
    (columns : Option (List String)) (values : List Value) :
    (t.insert64 columns values options).1 = .error .panic ↔
      (∃ row, t.insertRow columns values options = .ok row) ∧ maxRowId - 1 ∈ t.rows := by
  have hnext : nextId t.nextRowId = .error .panic ↔ maxRowId - 1 ∈ t.rows := by
    constructor
    · intro hpanic
      have heq : t.nextRowId = maxRowId := by
        rw [nextId] at hpanic
        split at hpanic
        · cases hpanic
        · rename_i hover
          exact Nat.le_antisymm h.nextRowId_le (Nat.not_lt.mp hover)
      rcases h.highest with hone | hmem
      · rw [heq] at hone
        exact absurd hone (by decide)
      · rwa [heq] at hmem
    · intro hmem
      have hlt := h.rowId_lt _ hmem
      have heq : t.nextRowId = maxRowId :=
        Nat.le_antisymm h.nextRowId_le (Nat.le_of_pred_lt hlt)
      rw [heq]
      exact nextId_maxRowId
  rw [Table.insert64, ← hnext]
  split
  · rename_i error herror
    refine ⟨fun hpanic ↦ (by cases Except.error.inj hpanic), ?_⟩
    rintro ⟨⟨row, hrow⟩, -⟩
    cases herror.symm.trans hrow
  · rename_i row hrow
    rcases hid : nextId t.nextRowId with fault | next
    · dsimp only
      simp only [Except.error.injEq]
      exact ⟨fun hpanic ↦ ⟨⟨row, hrow⟩, hpanic⟩, fun hpanic ↦ hpanic.2⟩
    · refine ⟨fun hpanic ↦ absurd hpanic (monadLift_ne_panic _), fun hpanic ↦ ?_⟩
      cases hpanic.2

/-! ## When row ids are safe -/

/-- **Row ids are safe** for a text: reading it overflows nothing, every table it gives has a next
row id above all its row ids, and an insertion into one of them neither overflows nor changes a row.
-/
structure RowIdsSafe (options : TableRuntimeOptions) (input : String) : Prop where
  decode_ne_panic : Catalog.decode64 input options ≠ .error .panic
  rowId_lt (catalog : Catalog) : Catalog.decode64 input options = .ok catalog →
    catalog.All fun t ↦ ∀ rowId ∈ t.rows, rowId < t.nextRowId
  insert_ne_panic (catalog : Catalog) : Catalog.decode64 input options = .ok catalog →
    catalog.All fun t ↦ ∀ columns values insertOptions,
      (t.insert64 columns values insertOptions).1 ≠ .error .panic
  insert_keeps (catalog : Catalog) : Catalog.decode64 input options = .ok catalog →
    catalog.All fun t ↦ ∀ columns values insertOptions (rowId : RowId) (row : Row),
      t.rows[rowId]? = some row →
        (t.insert64 columns values insertOptions).2.rows[rowId]? = some row

/-- **A table is full**: the greatest row id but one is taken, and the checks of some insertion
pass. -/
def Table.Full (t : Table) : Prop :=
  maxRowId - 1 ∈ t.rows ∧ ∃ columns values options row, t.insertRow columns values options = .ok row

/-- **Row ids are safe exactly if** the reader does not come to a row with the greatest row id and
gives no table that is full. -/
theorem rowIdsSafe_iff (options : TableRuntimeOptions) (input : String) :
    RowIdsSafe options input ↔
      ¬ MeetsMaxRowId options input ∧
        ∀ catalog, Catalog.decode64 input options = .ok catalog →
          catalog.All fun t ↦ ¬ t.Full := by
  rw [← Catalog.decode64_eq_panic_iff]
  constructor
  · intro h
    refine ⟨h.decode_ne_panic, fun catalog hdecode name t ht ↦ ?_⟩
    rintro ⟨hmem, columns, values, insertOptions, row, hrow⟩
    have hok := Catalog.decode64_rowIdsOk hdecode name t ht
    exact h.insert_ne_panic catalog hdecode name t ht columns values insertOptions
      ((hok.insert64_eq_panic_iff columns values).mpr ⟨⟨row, hrow⟩, hmem⟩)
  · rintro ⟨hpanic, hfull⟩
    refine ⟨hpanic, fun catalog hdecode name t ht ↦ ?_, fun catalog hdecode name t ht ↦ ?_,
      fun catalog hdecode name t ht ↦ ?_⟩
    · exact (Catalog.decode64_rowIdsOk hdecode name t ht).rowId_lt
    · intro columns values insertOptions h
      have hok := Catalog.decode64_rowIdsOk hdecode name t ht
      obtain ⟨⟨row, hrow⟩, hmem⟩ := (hok.insert64_eq_panic_iff columns values).mp h
      exact hfull catalog hdecode name t ht ⟨hmem, columns, values, insertOptions, row, hrow⟩
    · intro columns values insertOptions rowId row hrow
      exact (Catalog.decode64_rowIdsOk hdecode name t ht).insert64_keeps columns values hrow

end Platform

/-- **A text with the greatest row id** is not safe. -/
theorem not_rowIdsSafe_max : ¬ @RowIdsSafe Platform.ascii {}
    "FSQ1\nTABLE\t74\nROW\t18446744073709551615\nENDTABLE\n" := by
  intro h
  exact @RowIdsSafe.decode_ne_panic Platform.ascii _ _ h (by decide +kernel)

end Fsql
