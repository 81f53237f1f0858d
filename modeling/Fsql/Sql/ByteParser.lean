import Fsql.Library.Utf8
import Fsql.Sql.Forms

/-!
# The parser on bytes

`sql/parser.rs` once more, with the slices as the source takes them: at byte positions that come
from a search, from a scan or from the length of a keyword.  A slice panics when its ends are in the
wrong order, outside of the text or inside of a character.  What follows here is only the functions
that slice; the others are those of the parser on characters, and `parseSqlWithDialect_eq` says that
the two parsers are the same.
-/

set_option autoImplicit false

namespace Fsql

namespace ByteParser

open Number Text
open String (utf8Len)

/-! ## Slices -/

/-- The part of a text, or the panic of a slice. -/
def orPanic (part : Option (List Char)) : Parse (List Char) :=
  match part with
  | some part => .ok part
  | none => .error .panic

/-- `&input[..stop]`. -/
def sliceTo (input : List Char) (stop : Nat) : Parse (List Char) := orPanic (getTo input stop)

/-- `&input[start..]`. -/
def sliceFrom (input : List Char) (start : Nat) : Parse (List Char) := orPanic (getFrom input start)

/-- `&input[start..stop]`. -/
def slice (input : List Char) (start stop : Nat) : Parse (List Char) :=
  orPanic (getRange input start stop)

/-- `str::len`. -/
def len (text : String) : Nat := utf8Len text.toList

/-- A parse error with a fixed text. -/
abbrev parseError {α : Type} (message : String) : Parse α := .error (.error (.parse message))

/-- `Result::is_ok`. -/
def isOk {α : Type} (result : Parse α) : Parse Bool :=
  match result with
  | .ok _ => .ok true
  | .error (.error _) => .ok false
  | .error .panic => .error .panic

/-! ## Searching without regard to case -/

/-- `starts_with_ci`. -/
def startsWithCi (input pre : List Char) : Bool :=
  (getTo input (utf8Len pre)).any (eqIgnoreCase · pre)

/-- `find_ci`: the position is one in the text in lower case. -/
def findCi (input needle : List Char) : Option Nat := findByte (lower needle) (lower input)

/-- `strip_suffix_ci`. -/
def stripSuffixCi (input suffix : List Char) : Parse (Option (List Char)) :=
  if utf8Len suffix ≤ utf8Len input ∧
      (getFrom input (utf8Len input - utf8Len suffix)).any (eqIgnoreCase · suffix) then do
    return some (← sliceTo input (utf8Len input - utf8Len suffix))
  else return none

/-! ## Splitting outside quotes, parentheses and brackets -/

/-- The loop of `split_once_top_level`, for the position it is at. -/
def cutAt (delimiter : Char) : Scan → Nat → List Char → Option Nat
  | _, _, [] => none
  | s, index, ch :: rest =>
    if s.cuts delimiter ch then some index
    else cutAt delimiter (s.next ch) (index + ch.utf8Size) rest

/-- `split_once_top_level`. -/
def splitOnceTopLevel (input : List Char) (delimiter : Char) :
    Parse (Option (List Char × List Char)) :=
  match cutAt delimiter {} 0 input with
  | none => return none
  | some index => do
    return some (← sliceTo input index, ← sliceFrom input (index + delimiter.utf8Size))

/-- The loop of `split_top_level`, for the start of the piece and the position it is at. -/
def piecesAt (delimiter : Char) (input : List Char) :
    Scan → Nat → Nat → List Char → Parse (List (List Char))
  | _, start, _, [] => do return [trim (← sliceFrom input start)]
  | s, start, index, ch :: rest =>
    if s.cuts delimiter ch then do
      let piece := trim (← slice input start index)
      let next := index + ch.utf8Size
      return piece :: (← piecesAt delimiter input s next next rest)
    else piecesAt delimiter input (s.next ch) start (index + ch.utf8Size) rest

/-- `split_top_level`. -/
def splitTopLevel (input : List Char) (delimiter : Char) : Parse (List (List Char)) :=
  piecesAt delimiter input {} 0 0 input

/-- `parenthesized_body`. -/
def parenthesizedBody (input : List Char) (context : String) : Parse (List Char) :=
  let input := trim input
  if input.head? = some '(' ∧ input.getLast? = some ')' then slice input 1 (utf8Len input - 1)
  else parseError s!"{context} requires parentheses"

/-! ## Values -/

/-- `parse_quoted_string`.  A byte that is a quote is a character. -/
def parseQuotedString (input : List Char) : Parse (Option (List Char)) :=
  match input.head?, input.getLast? with
  | some quote, some last =>
    if 2 ≤ utf8Len input ∧ (quote = '\'' ∨ quote = '"') ∧ last = quote then do
      return some (undouble quote (← slice input 1 (utf8Len input - 1)))
    else return none
  | _, _ => return none

/-- `parse_value`. -/
def parseValue (input : List Char) : Parse Value := do
  let input := trim input
  if eqIgnoreCase input "NULL".toList then return .null
  else if eqIgnoreCase input "TRUE".toList then return .boolean true
  else if eqIgnoreCase input "FALSE".toList then return .boolean false
  else
    match ← parseQuotedString input with
    | some value => return .text (String.ofList value)
    | none =>
      if startsWithCi input "POINT".toList then
        let body ← parenthesizedBody (← sliceFrom input (len "POINT")) "POINT"
        match ← splitTopLevel body ',' with
        | [lon, lat] =>
          let lon ← parseF64 lon
          let lat ← parseF64 lat
          return .point ⟨lon, lat⟩
        | _ => parseError "POINT requires lon and lat"
      else if input.head? = some '[' ∧ input.getLast? = some ']' then
        let body ← slice input 1 (utf8Len input - 1)
        if (trim body).isEmpty then return .vector []
        else
          let items ← splitTopLevel body ','
          let vector ← (items.mapM parseF32 : Result (List F32))
          return .vector vector
      else if input.contains '.' || input.contains 'e' || input.contains 'E' then
        let value ← parseF64 input
        return .float value
      else
        match parseInt (2 ^ 63 - 1) input with
        | some value => return .integer (Int64.ofInt value)
        | none => parseError s!"could not parse value {String.ofList input}"

/-! ## Clauses -/

/-- `parse_projection`. -/
def parseProjection (input : List Char) : Parse Projection := do
  if trim input = ['*'] then return .all
  else
    let columns := (← splitTopLevel input ',').map identifier
    if columns.contains "" then parseError "empty projection column" else return .columns columns

/-- The distance and the threshold of a `GEO_DISTANCE` filter, and whether it is inclusive. -/
def geoParts (input : List Char) : Parse (List Char × List Char × Bool) :=
  match findByte "<=".toList input with
  | some pos => do return (← sliceTo input pos, ← sliceFrom input (pos + 2), true)
  | none =>
    match findCharByte '<' input with
    | some pos => do return (← sliceTo input pos, ← sliceFrom input (pos + 1), false)
    | none => parseError "GEO_DISTANCE requires < or <="

/-- `parse_filter`. -/
def parseFilter (input : List Char) : Parse Filter := do
  if startsWithCi input "MATCH".toList then
    let body ← parenthesizedBody (← sliceFrom input (len "MATCH")) "MATCH"
    match ← splitTopLevel body ',' with
    | [column, query] =>
      match ← parseValue query with
      | .text query => return .fullText (identifier column) query
      | _ => parseError "MATCH query must be a string"
    | _ => parseError "MATCH requires column and query"
  else if startsWithCi input "GEO_DISTANCE".toList then
    let (function, meters, inclusive) ← geoParts input
    let body ← parenthesizedBody (← sliceFrom function (len "GEO_DISTANCE")) "GEO_DISTANCE"
    match ← splitTopLevel body ',' with
    | [column, point] =>
      match ← parseValue point with
      | .point point =>
        match f64FromStr (trim meters) with
        | some meters => return .geoWithin (identifier column) point meters inclusive
        | none => parseError "GEO_DISTANCE threshold must be numeric"
      | _ => parseError "GEO_DISTANCE target must be POINT"
    | _ => parseError "GEO_DISTANCE requires column and point"
  else
    match ← splitOnceTopLevel input '=' with
    | some (column, value) =>
      let value ← parseValue value
      return .equals (identifier column) value
    | none => parseError "unsupported WHERE clause"

/-- The text of an order without its direction, and whether it is descending. -/
def orderParts (input : List Char) : Parse (List Char × Bool) := do
  match ← stripSuffixCi input " DESC".toList with
  | some stripped => return (trim stripped, true)
  | none =>
    match ← stripSuffixCi input " ASC".toList with
    | some stripped => return (trim stripped, false)
    | none => return (trim input, false)

/-- `parse_order`. -/
def parseOrder (input : List Char) : Parse Order := do
  let (input, descending) ← orderParts input
  if !startsWithCi input "VECTOR_DISTANCE".toList then
    parseError "only VECTOR_DISTANCE ordering is currently supported"
  else
    let body ← parenthesizedBody (← sliceFrom input (len "VECTOR_DISTANCE")) "VECTOR_DISTANCE"
    match ← splitTopLevel body ',' with
    | [column, target] =>
      match ← parseValue target with
      | .vector target => return .vectorDistance (identifier column) target descending
      | _ => parseError "VECTOR_DISTANCE target must be a vector"
    | _ => parseError "VECTOR_DISTANCE requires column and vector"

/-! ## The slices are in place -/

theorem sliceTo_offset (input : List Char) (n : Nat) :
    sliceTo input (offset input n) = .ok (input.take n) := by
  rw [sliceTo, getTo_offset, orPanic]

theorem sliceFrom_offset (input : List Char) (n : Nat) :
    sliceFrom input (offset input n) = .ok (input.drop n) := by
  rw [sliceFrom, getFrom_offset, orPanic]

/-- Only the order of the ends is left. -/
theorem slice_offset (input : List Char) {start stop : Nat} (hstart : start ≤ input.length)
    (hstop : stop ≤ input.length) :
    slice input (offset input start) (offset input stop) = Fsql.slice input start stop := by
  rw [slice, getRange_offset input hstart hstop, Fsql.slice]
  split <;> rfl

theorem startsWithCi_iff {input pre : List Char} :
    Fsql.startsWithCi input pre = true ↔ lower pre <+: lower input := by
  induction pre generalizing input with
  | nil =>
    refine ⟨fun _ ↦ List.nil_prefix, fun _ ↦ ?_⟩
    cases input <;> rfl
  | cons p pre ih =>
    cases input with
    | nil => simp [Fsql.startsWithCi, lower]
    | cons c input =>
      rw [Fsql.startsWithCi, lower_cons, lower_cons, List.cons_prefix_cons, Bool.and_eq_true,
        beq_iff_eq, ih, eq_comm]

theorem offset_of_startsWithCi {input pre : List Char} (h : Fsql.startsWithCi input pre = true) :
    utf8Len pre = offset input pre.length := by
  have hadd := offset_add (l := input) (p := pre) (i := 0) (startsWithCi_iff.mp h)
  rw [Nat.zero_add] at hadd
  rw [← hadd]
  exact (Nat.zero_add _).symm

theorem startsWithCi_eq (input pre : List Char) :
    startsWithCi input pre = Fsql.startsWithCi input pre := by
  rw [Bool.eq_iff_iff, startsWithCi, Option.any_eq_true]
  constructor
  · rintro ⟨a, ha, heq⟩
    obtain ⟨⟨a', b⟩, hsplit, rfl⟩ := Option.map_eq_some_iff.mp ha
    obtain ⟨rfl, -⟩ := splitAtByte_eq_some_iff.mp hsplit
    rw [startsWithCi_iff, lower_append, ← beq_iff_eq.mp heq]
    exact List.prefix_append _ _
  · intro h
    refine ⟨input.take pre.length, ?_, ?_⟩
    · rw [offset_of_startsWithCi h, getTo_offset]
    · obtain ⟨rest, hrest⟩ := startsWithCi_iff.mp h
      rw [eqIgnoreCase, beq_iff_eq, lower, List.map_take, ← lower, ← hrest, ← length_lower pre,
        List.take_left]

/-- A text is cut behind a keyword it starts with. -/
theorem sliceFrom_of_startsWithCi {input pre : List Char}
    (h : Fsql.startsWithCi input pre = true) :
    sliceFrom input (utf8Len pre) = .ok (input.drop pre.length) := by
  rw [offset_of_startsWithCi h, sliceFrom_offset]

theorem findCi_eq (input needle : List Char) :
    findCi input needle = (Fsql.findCi input needle).map (offset input) := by
  rw [findCi, findByte, Fsql.findCi, funext (offset_lower input)]

/-- A text is cut behind a keyword that is found. -/
theorem offset_findCi {input needle : List Char} {pos : Nat}
    (h : Fsql.findCi input needle = some pos) :
    offset input pos + utf8Len needle = offset input (pos + needle.length) :=
  offset_add (prefix_drop_of_find h)

/-- The first and the last character of a text are taken off. -/
theorem slice_ends {c d : Char} (hc : c.utf8Size = 1) (hd : d.utf8Size = 1) (body : List Char) :
    slice (c :: (body ++ [d])) 1 (utf8Len (c :: (body ++ [d])) - 1) = .ok body := by
  have hone : 1 = offset (c :: (body ++ [d])) 1 := by
    show 1 = 0 + c.utf8Size
    omega
  have hstop : utf8Len (c :: (body ++ [d])) - 1 =
    offset (c :: (body ++ [d])) (body.length + 1) := by
    have htake : (c :: (body ++ [d])).take (body.length + 1) = c :: body := by
      rw [List.take_succ_cons, List.take_left]
    rw [offset, htake]
    simp only [String.utf8Len_cons, String.utf8Len_append, String.utf8Len_nil]
    omega
  have hslice := @slice_offset (c :: (body ++ [d])) 1 (body.length + 1) (by simp) (by simp)
  rw [← hstop, ← hone] at hslice
  rw [hslice, Fsql.slice, if_pos (by omega), List.take_succ_cons, List.take_left, List.drop_one,
    List.tail_cons]

/-- A text with two given ends. -/
theorem eq_of_ends {c d : Char} (hne : c ≠ d) {l : List Char} (hhead : l.head? = some c)
    (hlast : l.getLast? = some d) : l = c :: (l.tail.dropLast ++ [d]) := by
  obtain ⟨rest, rfl⟩ := List.head?_eq_some_iff.mp hhead
  cases rest with
  | nil =>
    obtain rfl := Option.some.inj hlast
    exact absurd rfl hne
  | cons e rest =>
    rw [List.getLast?_cons_cons] at hlast
    obtain ⟨body, hbody⟩ := List.getLast?_eq_some_iff.mp hlast
    rw [List.tail_cons, hbody, List.dropLast_concat]

theorem parenthesizedBody_eq (input : List Char) (context : String) :
    parenthesizedBody input context = liftM (Fsql.parenthesizedBody input context) := by
  rw [parenthesizedBody, Fsql.parenthesizedBody]
  generalize trim input = l
  split
  · rename_i hends
    have hbody := @slice_ends '(' ')' rfl rfl l.tail.dropLast
    rw [← eq_of_ends (by decide) hends.1 hends.2] at hbody
    exact hbody
  · rfl

/-- The position the scan finds. -/
theorem cutAt_eq (delimiter : Char) (s : Scan) (index : Nat) (rest : List Char) :
    cutAt delimiter s index rest =
        (Scan.splitOnce delimiter s rest).map (fun p ↦ index + utf8Len p.1) ∧
      ∀ p, Scan.splitOnce delimiter s rest = some p → rest = p.1 ++ delimiter :: p.2 := by
  induction rest generalizing s index with
  | nil => exact ⟨rfl, fun p h ↦ by cases h⟩
  | cons ch rest ih =>
    rw [cutAt, Scan.splitOnce]
    split
    · rename_i hcuts
      refine ⟨rfl, fun p h ↦ ?_⟩
      obtain rfl := Option.some.inj h
      have hch : ch = delimiter := by
        simp only [Scan.cuts, Bool.and_eq_true, beq_iff_eq] at hcuts
        exact hcuts.1.1.2
      rw [hch]
      rfl
    · obtain ⟨hcut, hrest⟩ := ih (s.next ch) (index + ch.utf8Size)
      constructor
      · rw [hcut, Option.map_map]
        refine congrArg (Option.map · _) (funext fun p ↦ ?_)
        simp only [Function.comp_apply, String.utf8Len_cons]
        omega
      · intro p h
        obtain ⟨q, hq, rfl⟩ := Option.map_eq_some_iff.mp h
        rw [List.cons_append, ← hrest q hq]

theorem splitOnceTopLevel_eq (input : List Char) (delimiter : Char) :
    splitOnceTopLevel input delimiter = .ok (Fsql.splitOnceTopLevel input delimiter) := by
  obtain ⟨hcut, hparts⟩ := cutAt_eq delimiter {} 0 input
  rw [splitOnceTopLevel, Fsql.splitOnceTopLevel, hcut]
  rcases hsplit : Scan.splitOnce delimiter {} input with _ | ⟨a, b⟩
  · rfl
  · have hinput : input = a ++ delimiter :: b := hparts _ hsplit
    have hbehind : 0 + utf8Len a + delimiter.utf8Size = utf8Len (a ++ [delimiter]) := by
      simp [String.utf8Len_append]
    have hto : sliceTo input (0 + utf8Len a) = .ok a := by
      rw [sliceTo, Nat.zero_add, hinput, getTo_append, orPanic]
    have hfrom : sliceFrom input (0 + utf8Len a + delimiter.utf8Size) = .ok b := by
      rw [sliceFrom, hbehind, hinput, List.append_cons, getFrom_append, orPanic]
    simp only [Option.map_some, hto, hfrom]
    rfl

/-- **The loop of `split_top_level`**: the pieces behind it are cut off, and the one it is in goes
on. -/
theorem piecesAt_eq (delimiter : Char) (s : Scan) (done piece rest : List Char) :
    piecesAt delimiter (done ++ piece ++ rest) s (utf8Len done) (utf8Len (done ++ piece)) rest =
      .ok (((Scan.pieces delimiter s rest).modifyHead (piece ++ ·)).map trim) := by
  induction rest generalizing s done piece with
  | nil =>
    have hfrom : sliceFrom (done ++ piece) (utf8Len done) = .ok piece := by
      rw [sliceFrom, getFrom_append, orPanic]
    rw [piecesAt, Scan.pieces, List.append_nil, hfrom]
    simp [List.modifyHead, bind, Except.bind, pure, Except.pure]
  | cons ch rest ih =>
    have hnext : utf8Len (done ++ piece) + ch.utf8Size = utf8Len (done ++ piece ++ [ch]) := by
      rw [String.utf8Len_append (done ++ piece), String.utf8Len_cons, String.utf8Len_nil,
        Nat.zero_add]
    rw [piecesAt, Scan.pieces]
    split
    · have hstart : offset (done ++ piece ++ ch :: rest) done.length = utf8Len done := by
        rw [offset, List.append_assoc, List.take_left]
      have hstop : offset (done ++ piece ++ ch :: rest) (done ++ piece).length =
          utf8Len (done ++ piece) := by
        rw [offset, List.take_left]
      have hslice : slice (done ++ piece ++ ch :: rest) (utf8Len done) (utf8Len (done ++ piece)) =
          .ok piece := by
        rw [← hstart, ← hstop, slice_offset _ (by simp) (by simp), Fsql.slice,
          if_pos (by simp), List.take_left, List.drop_left]
      have hrest : piecesAt delimiter (done ++ piece ++ ch :: rest) s
          (utf8Len (done ++ piece ++ [ch])) (utf8Len (done ++ piece ++ [ch])) rest =
          .ok ((Scan.pieces delimiter s rest).map trim) := by
        have h := ih s (done ++ piece ++ [ch]) []
        rw [List.append_nil, List.append_assoc _ [ch], List.singleton_append] at h
        rw [h]
        rcases Scan.pieces delimiter s rest with _ | ⟨first, others⟩ <;> rfl
      rw [hslice, hnext]
      simp only [bind, Except.bind, hrest]
      simp [List.modifyHead, pure, Except.pure]
    · have hrest := ih (s.next ch) done (piece ++ [ch])
      rw [← List.append_assoc, List.append_assoc _ [ch], List.singleton_append] at hrest
      rw [hnext, hrest]
      rcases Scan.pieces delimiter (s.next ch) rest with _ | ⟨first, others⟩
      · rfl
      · simp [List.modifyHead]

theorem splitTopLevel_eq (input : List Char) (delimiter : Char) :
    splitTopLevel input delimiter = .ok (Fsql.splitTopLevel input delimiter) := by
  have h := piecesAt_eq delimiter {} [] [] input
  rw [splitTopLevel, Fsql.splitTopLevel]
  refine h.trans ?_
  rcases Scan.pieces delimiter {} input with _ | ⟨first, others⟩ <;> rfl

theorem parseQuotedString_eq (input : List Char) :
    parseQuotedString input = .ok (Fsql.parseQuotedString input) := by
  rw [parseQuotedString]
  rcases input with _ | ⟨quote, _ | ⟨c, rest⟩⟩
  · rfl
  · have hlen : ¬ (2 ≤ utf8Len [quote] ∧ (quote = '\'' ∨ quote = '"') ∧ quote = quote) := by
      rintro ⟨hlen, rfl | rfl, -⟩
      · exact absurd hlen (by decide)
      · exact absurd hlen (by decide)
    exact if_neg hlen
  · have hlen : 2 ≤ utf8Len (quote :: c :: rest) := by
      have := quote.utf8Size_pos
      have := c.utf8Size_pos
      simp only [String.utf8Len_cons]
      omega
    rcases List.eq_nil_or_concat (c :: rest) with h | ⟨body, last, hbody⟩
    · cases h
    · rw [List.concat_eq_append] at hbody
      have hlast : (quote :: c :: rest).getLast? = some last := by
        rw [hbody, ← List.cons_append, List.getLast?_concat]
      rw [Fsql.parseQuotedString, hlast, hbody, List.getLast?_concat, List.dropLast_concat]
      rw [hbody] at hlen
      simp only [List.head?_cons, hlen, true_and, Option.some.injEq]
      split
      · rename_i hquote
        obtain ⟨hquote, rfl⟩ := hquote
        have hsize : last.utf8Size = 1 := by
          rcases hquote with rfl | rfl <;> rfl
        rw [slice_ends hsize hsize]
        rfl
      · rfl

/-! ## Values and clauses -/

/-- A computation that cannot panic is lifted step by step. -/
theorem liftM_bind {α β : Type} (x : Result α) (f : α → Result β) :
    (liftM (x >>= f) : Parse β) = liftM x >>= fun a ↦ liftM (f a) := by
  rcases x with error | a <;> rfl

/-- It is enough to look at what comes out of a step. -/
theorem liftM_bind_congr {α β : Type} {x : Result α} {g : α → Parse β} {f : α → Result β}
    (h : ∀ a, x = .ok a → g a = liftM (f a)) : (liftM x >>= g) = liftM (x >>= f) := by
  rcases x with error | a
  · rfl
  · exact h a rfl

theorem ok_bind {α β : Type} (a : α) (f : α → Parse β) : (Except.ok a >>= f) = f a := rfl

theorem liftM_ite {α : Type} (c : Prop) [Decidable c] (x y : Result α) :
    (liftM (if c then x else y) : Parse α) = if c then liftM x else liftM y :=
  apply_ite liftM c x y

theorem isOk_liftM {α : Type} (x : Result α) : isOk (liftM x) = .ok x.toBool := by
  rcases x with error | a <;> rfl

theorem parseValue_eq (input : List Char) :
    parseValue input = liftM (Fsql.parseValue input) := by
  rw [parseValue, Fsql.parseValue]
  generalize trim input = l
  simp only [liftM_ite]
  refine ite_congr rfl (fun _ ↦ rfl) (fun _ ↦ ite_congr rfl (fun _ ↦ rfl) (fun _ ↦
    ite_congr rfl (fun _ ↦ rfl) (fun _ ↦ ?_)))
  rw [parseQuotedString_eq, ok_bind]
  rcases Fsql.parseQuotedString l with _ | value
  · simp only [startsWithCi_eq, liftM_ite]
    refine ite_congr rfl (fun hpoint ↦ ?_) (fun _ ↦ ite_congr rfl (fun hends ↦ ?_) (fun _ ↦
      ite_congr rfl (fun _ ↦ ?_) (fun _ ↦ ?_)))
    · rw [len, sliceFrom_of_startsWithCi hpoint, ok_bind, parenthesizedBody_eq, liftM_bind]
      refine bind_congr fun body ↦ ?_
      rw [splitTopLevel_eq, ok_bind]
      rcases Fsql.splitTopLevel body ',' with _ | ⟨lon, _ | ⟨lat, _ | ⟨other, rest⟩⟩⟩
      · rfl
      · rfl
      · simp only [liftM_bind]
        rfl
      · rfl
    · have hbody := @slice_ends '[' ']' rfl rfl l.tail.dropLast
      rw [← eq_of_ends (by decide) hends.1 hends.2] at hbody
      rw [hbody, ok_bind]
      refine ite_congr rfl (fun _ ↦ rfl) (fun _ ↦ ?_)
      rw [splitTopLevel_eq, ok_bind, liftM_bind]
      rfl
    · rw [liftM_bind]
      rfl
    · rcases parseInt (2 ^ 63 - 1) l with _ | value <;> rfl
  · rfl

theorem parseProjection_eq (input : List Char) :
    parseProjection input = liftM (Fsql.parseProjection input) := by
  rw [parseProjection, Fsql.parseProjection, splitTopLevel_eq]
  simp only [liftM_ite, ok_bind]
  rfl

/-- The distance of a `GEO_DISTANCE` filter still has its name. -/
theorem startsWithCi_take {input pre : List Char} (h : Fsql.startsWithCi input pre = true) {n : Nat}
    (hn : pre.length ≤ n) : Fsql.startsWithCi (input.take n) pre = true := by
  rw [startsWithCi_iff] at h ⊢
  rw [lower_take]
  exact List.prefix_take_iff.mpr ⟨h, by rwa [length_lower]⟩

/-- A character that is not in a prefix stands behind it. -/
theorem length_le_of_not_mem {input pre : List Char} (h : Fsql.startsWithCi input pre = true)
    {c : Char} (hc : c.isAlpha = false) (hpre : c ∉ pre) {pos : Nat} (hpos : input[pos]? = some c) :
    pre.length ≤ pos := by
  by_contra hlt
  obtain ⟨rest, hrest⟩ := startsWithCi_iff.mp h
  have hlower : (lower input)[pos]? = some c := by
    rw [lower, List.getElem?_map, hpos, Option.map_some, (toLower_eq_iff hc).mpr rfl]
  rw [← hrest, List.getElem?_append_left (by rw [length_lower]; omega)] at hlower
  exact hpre ((mem_lower_iff hc).mp (List.mem_of_getElem? hlower))

/-- The two sides of a `GEO_DISTANCE` filter, on characters. -/
def geoSides (input : List Char) : Result (List Char × List Char × Bool) :=
  match find "<=".toList input with
  | some pos => .ok (input.take pos, input.drop (pos + 2), true)
  | none =>
    match findChar '<' input with
    | some pos => .ok (input.take pos, input.drop (pos + 1), false)
    | none => Fsql.parseError "GEO_DISTANCE requires < or <="

theorem geoParts_eq (input : List Char) : geoParts input = liftM (geoSides input) := by
  rw [geoParts, findByte, geoSides]
  rcases hfind : find "<=".toList input with _ | pos
  · rw [findCharByte]
    rcases hchar : findChar '<' input with _ | pos
    · rfl
    · have hbehind : offset input pos + 1 = offset input (pos + 1) :=
        offset_succ (findChar_spec hchar)
      simp only [Option.map_none, Option.map_some, hbehind, sliceTo_offset, sliceFrom_offset]
      rfl
  · have hbehind : offset input pos + 2 = offset input (pos + 2) := offset_find hfind
    simp only [Option.map_some, hbehind, sliceTo_offset, sliceFrom_offset]
    rfl

/-- The left side is the text before a `<`. -/
theorem geoSides_eq_ok {input function meters : List Char} {inclusive : Bool}
    (h : geoSides input = .ok (function, meters, inclusive)) :
    ∃ pos : Nat, input[pos]? = some '<' ∧ function = input.take pos := by
  rw [geoSides] at h
  split at h
  · rename_i pos hpos
    obtain ⟨rfl, -⟩ := Prod.mk.inj (Except.ok.inj h)
    obtain ⟨rest, hrest⟩ := prefix_drop_of_find hpos
    refine ⟨pos, ?_, rfl⟩
    rw [← List.head?_drop, ← hrest]
    rfl
  · split at h
    · rename_i pos hpos
      obtain ⟨rfl, -⟩ := Prod.mk.inj (Except.ok.inj h)
      exact ⟨pos, findChar_spec hpos, rfl⟩
    · cases h

theorem parseFilter_eq (input : List Char) :
    parseFilter input = liftM (Fsql.parseFilter input) := by
  rw [parseFilter, Fsql.parseFilter]
  simp only [startsWithCi_eq, liftM_ite]
  refine ite_congr rfl (fun hmatch ↦ ?_) (fun _ ↦ ite_congr rfl (fun hgeo ↦ ?_) (fun _ ↦ ?_))
  · rw [len, sliceFrom_of_startsWithCi hmatch, ok_bind, parenthesizedBody_eq]
    refine liftM_bind_congr fun body _ ↦ ?_
    rw [splitTopLevel_eq, ok_bind]
    rcases Fsql.splitTopLevel body ',' with _ | ⟨column, _ | ⟨query, _ | ⟨other, rest⟩⟩⟩
    · rfl
    · rfl
    · dsimp only
      rw [parseValue_eq]
      refine liftM_bind_congr fun value _ ↦ ?_
      cases value <;> rfl
    · rfl
  · rw [geoParts_eq]
    refine @liftM_bind_congr _ _ (geoSides input) _ _ fun parts hparts ↦ ?_
    obtain ⟨function, meters, inclusive⟩ := parts
    obtain ⟨pos, hpos, rfl⟩ := geoSides_eq_ok hparts
    have hfunction := startsWithCi_take hgeo
      (length_le_of_not_mem hgeo (by decide) (by decide) hpos)
    dsimp only
    rw [len, sliceFrom_of_startsWithCi hfunction, ok_bind, parenthesizedBody_eq]
    refine liftM_bind_congr fun body _ ↦ ?_
    rw [splitTopLevel_eq, ok_bind]
    rcases Fsql.splitTopLevel body ',' with _ | ⟨column, _ | ⟨point, _ | ⟨other, rest⟩⟩⟩
    · rfl
    · rfl
    · dsimp only
      rw [parseValue_eq]
      refine liftM_bind_congr fun value _ ↦ ?_
      rcases value with _ | _ | _ | _ | _ | _ | p
      all_goals try rfl
      dsimp only
      rcases f64FromStr (trim meters) with _ | distance <;> rfl
    · rfl
  · rw [splitOnceTopLevel_eq, ok_bind]
    rcases Fsql.splitOnceTopLevel input '=' with _ | ⟨column, value⟩
    · rfl
    · dsimp only
      rw [parseValue_eq, liftM_bind]
      rfl

theorem stripSuffixCi_eq (input suffix : List Char) :
    stripSuffixCi input suffix = .ok (Fsql.stripSuffixCi input suffix) := by
  rw [stripSuffixCi, Fsql.stripSuffixCi]
  by_cases h : suffix.length ≤ input.length ∧
      eqIgnoreCase (input.drop (input.length - suffix.length)) suffix
  · obtain ⟨hlen, heq⟩ := h
    -- the suffix has as many bytes in the text
    have hsplit := List.take_append_drop (input.length - suffix.length) input
    have hsuffix : utf8Len (input.drop (input.length - suffix.length)) = utf8Len suffix :=
      utf8Len_eq_of_lower_eq (beq_iff_eq.mp heq)
    have htotal : utf8Len input =
        offset input (input.length - suffix.length) + utf8Len suffix := by
      rw [← hsuffix, offset, ← String.utf8Len_append, hsplit]
    have hstart : utf8Len input - utf8Len suffix = offset input (input.length - suffix.length) := by
      omega
    rw [hstart, getFrom_offset, sliceTo_offset, if_pos ⟨by omega, heq⟩, if_pos ⟨hlen, heq⟩]
    rfl
  · rw [if_neg h, if_neg]
    · rfl
    · rintro ⟨hlen, hany⟩
      rw [Option.any_eq_true] at hany
      obtain ⟨part, hpart, heq⟩ := hany
      obtain ⟨⟨a, b⟩, hsplit, rfl⟩ := Option.map_eq_some_iff.mp hpart
      obtain ⟨rfl, -⟩ := splitAtByte_eq_some_iff.mp hsplit
      have hlength : b.length = suffix.length := by
        rw [← length_lower b, beq_iff_eq.mp heq, length_lower]
      refine h ⟨by rw [List.length_append]; omega, ?_⟩
      rw [List.length_append, hlength, Nat.add_sub_cancel, List.drop_left]
      exact heq

/-- The text of an order without its direction, on characters. -/
def orderSides (input : List Char) : List Char × Bool :=
  match Fsql.stripSuffixCi input " DESC".toList with
  | some stripped => (trim stripped, true)
  | none =>
    match Fsql.stripSuffixCi input " ASC".toList with
    | some stripped => (trim stripped, false)
    | none => (trim input, false)

theorem orderParts_eq (input : List Char) : orderParts input = .ok (orderSides input) := by
  rw [orderParts, orderSides, stripSuffixCi_eq, stripSuffixCi_eq]
  simp only [ok_bind]
  rcases Fsql.stripSuffixCi input " DESC".toList with _ | stripped
  · rcases Fsql.stripSuffixCi input " ASC".toList with _ | stripped <;> rfl
  · rfl

theorem parseOrder_eq (input : List Char) :
    parseOrder input = liftM (Fsql.parseOrder input) := by
  have hchars : Fsql.parseOrder input =
      (let (input, descending) := orderSides input
      if !Fsql.startsWithCi input "VECTOR_DISTANCE".toList then
        Fsql.parseError "only VECTOR_DISTANCE ordering is currently supported"
      else do
        let body ← Fsql.parenthesizedBody (input.drop "VECTOR_DISTANCE".length) "VECTOR_DISTANCE"
        match Fsql.splitTopLevel body ',' with
        | [column, target] => do
          match ← Fsql.parseValue target with
          | .vector target => return .vectorDistance (identifier column) target descending
          | _ => Fsql.parseError "VECTOR_DISTANCE target must be a vector"
        | _ => Fsql.parseError "VECTOR_DISTANCE requires column and vector") := rfl
  rw [hchars, parseOrder, orderParts_eq, ok_bind]
  obtain ⟨text, descending⟩ := orderSides input
  dsimp only
  rw [startsWithCi_eq, liftM_ite]
  refine ite_congr rfl (fun _ ↦ rfl) (fun hvector ↦ ?_)
  rw [Bool.not_eq_true', Bool.not_eq_false] at hvector
  rw [len, sliceFrom_of_startsWithCi hvector, ok_bind, parenthesizedBody_eq]
  refine liftM_bind_congr fun body _ ↦ ?_
  rw [splitTopLevel_eq, ok_bind]
  rcases Fsql.splitTopLevel body ',' with _ | ⟨column, _ | ⟨target, _ | ⟨other, rest⟩⟩⟩
  · rfl
  · rfl
  · dsimp only
    rw [parseValue_eq]
    refine liftM_bind_congr fun value _ ↦ ?_
    cases value <;> rfl
  · rfl

end ByteParser

end Fsql
