import Fsql.Sql.ByteStatements

/-!
# Where the parser panics

Every slice of the parser begins and ends between characters and inside of the text
(`ByteParser.parseSqlWithDialect_eq`), but the ends of five of them come from independent searches,
and can be in the wrong order.  `Misplaced` lists these texts: a closing parenthesis before the
opening one in a `CREATE INDEX` or an `INSERT`, and a keyword of a `SELECT` that shares its blank
with the one behind it.  `parse_ne_panic_iff` says that the parser panics on these and on no others.
-/

set_option autoImplicit false

namespace Fsql

open Text

/-! ## Slices in the wrong order -/

/-- **Parentheses the wrong way round**: the last closing one stands before the first opening one.
-/
def Swapped (l : List Char) : Prop :=
  ∃ opening closing, findChar '(' l = some opening ∧ rfindChar ')' l = some closing ∧
    closing < opening

theorem slice_eq_panic_iff {l : List Char} {start stop : Nat} :
    slice l start stop = .error .panic ↔ stop < start := by
  rw [slice]
  split
  · rename_i hle
    refine ⟨fun h ↦ (by cases h), fun h ↦ absurd hle (Nat.not_le.mpr h)⟩
  · rename_i hle
    exact ⟨fun _ ↦ Nat.not_le.mp hle, fun _ ↦ rfl⟩

/-- What is between the parentheses is sliced in order or they are the wrong way round. -/
theorem slice_parens_eq_panic_iff {l : List Char} {opening closing : Nat}
    (hopening : findChar '(' l = some opening) (hclosing : rfindChar ')' l = some closing) :
    slice l (opening + 1) closing = .error .panic ↔ Swapped l := by
  rw [slice_eq_panic_iff]
  constructor
  · intro h
    refine ⟨opening, closing, hopening, hclosing, ?_⟩
    have hne : closing ≠ opening := by
      rintro rfl
      have heq := (findChar_spec hopening).symm.trans (rfindChar_spec hclosing)
      exact absurd (Option.some.inj heq) (by decide)
    omega
  · rintro ⟨opening', closing', h, h', hlt⟩
    obtain rfl := Option.some.inj (h.symm.trans hopening)
    obtain rfl := Option.some.inj (h'.symm.trans hclosing)
    omega

/-- A step that panics only in its first part. -/
theorem bind_eq_panic_iff {α β : Type} {x : Parse α} {f : α → Parse β}
    (h : ∀ a, f a ≠ .error .panic) : (x >>= f) = .error .panic ↔ x = .error .panic := by
  rw [bind_eq_error_iff]
  exact ⟨fun hor ↦ hor.resolve_right fun ⟨a, _, ha⟩ ↦ h a ha, .inl⟩

/-- A step that panics only in its second part. -/
theorem liftM_bind_ne_panic {α β : Type} {x : Result α} {f : α → Parse β}
    (h : ∀ a, f a ≠ .error .panic) : (liftM x >>= f) ≠ .error .panic := by
  rw [Ne, bind_eq_panic_iff h]
  exact monadLift_ne_panic x

theorem bind_ne_panic {α β : Type} {x : Parse α} {f : α → Parse β} (hx : x ≠ .error .panic)
    (hf : ∀ a, f a ≠ .error .panic) : (x >>= f) ≠ .error .panic := by
  rw [Ne, bind_eq_panic_iff hf]
  exact hx

theorem mapM_ne_panic {α : Type} {position : Option Nat} {f : Nat → Parse α}
    (h : ∀ pos, position = some pos → f pos ≠ .error .panic) : position.mapM f ≠ .error .panic := by
  rcases position with _ | pos
  · rintro ⟨⟩
  · rw [Option.mapM_some]
    intro hpanic
    rcases hf : f pos with fault | a
    · rw [hf] at hpanic
      exact h pos rfl (hf.trans (congrArg Except.error (Except.error.inj hpanic)))
    · rw [hf] at hpanic
      cases hpanic

/-! ## Statements -/

theorem parseCreateTable_ne_panic (sql : List Char) : parseCreateTable sql ≠ .error .panic := by
  rw [parseCreateTable]
  generalize trim (sql.drop "CREATE TABLE".length) = rest
  dsimp only
  rcases findChar '(' rest with _ | opening
  · rintro ⟨⟩
  rcases rfindChar ')' rest with _ | closing
  · rintro ⟨⟩
  dsimp only
  split
  · rintro ⟨⟩
  · rename_i hlt
    -- the order of the parentheses has been checked
    have hslice : slice rest (opening + 1) closing =
        .ok ((rest.take closing).drop (opening + 1)) := if_pos (by omega)
    rw [hslice]
    by_cases hname : identifier (rest.take opening) = ""
    · rw [if_pos hname]
      rintro ⟨⟩
    · rw [if_neg hname]
      exact liftM_bind_ne_panic fun columns h ↦ by cases h

/-- The phrases that make a `CREATE INDEX` an advanced one. -/
def createIndexPhrases : List String := [" if not exists", " where ", " collate ", " desc", " asc"]

theorem isAdvancedCreateIndex_eq_panic_iff {sql : List Char} :
    isAdvancedCreateIndex sql = .error .panic ↔
      containsAny (lower sql) createIndexPhrases = false ∧ Swapped sql := by
  rw [isAdvancedCreateIndex, createIndexPhrases]
  rcases containsAny (lower sql) _ with _ | _
  · simp only [Bool.false_eq_true, if_false, true_and]
    rcases hopening : findChar '(' sql with _ | opening
    · refine ⟨fun h ↦ (by cases h), ?_⟩
      rintro ⟨_, _, h, -⟩
      cases hopening.symm.trans h
    rcases hclosing : rfindChar ')' sql with _ | closing
    · refine ⟨fun h ↦ (by cases h), ?_⟩
      rintro ⟨_, _, _, h, -⟩
      cases hclosing.symm.trans h
    rw [← slice_parens_eq_panic_iff hopening hclosing]
    exact bind_eq_panic_iff fun inner h ↦ by cases h
  · refine ⟨fun h ↦ (by cases h), fun h ↦ (by cases h.1)⟩

/-- The text of a `CREATE INDEX` behind its keywords. -/
def createIndexRest (sql : List Char) : List Char :=
  trim (sql.drop (if startsWithCi sql "CREATE FULLTEXT INDEX".toList then "CREATE FULLTEXT INDEX"
    else "CREATE INDEX").length)

theorem parseCreateIndex_eq_panic_iff {sql : List Char} :
    parseCreateIndex sql = .error .panic ↔
      ∃ onPos, findCi (createIndexRest sql) " ON ".toList = some onPos ∧
        Swapped (trim ((createIndexRest sql).drop (onPos + " ON ".length))) := by
  rw [parseCreateIndex, ← createIndexRest]
  generalize createIndexRest sql = rest
  dsimp only
  rcases findCi rest " ON ".toList with _ | onPos
  · refine ⟨fun h ↦ (by cases h), ?_⟩
    rintro ⟨_, h, -⟩
    cases h
  simp only [Option.some.injEq, exists_eq_left']
  generalize trim (rest.drop (onPos + " ON ".length)) = target
  rcases hopening : findChar '(' target with _ | opening
  · refine ⟨fun h ↦ (by cases h), ?_⟩
    rintro ⟨_, _, h, -⟩
    cases hopening.symm.trans h
  rcases hclosing : rfindChar ')' target with _ | closing
  · refine ⟨fun h ↦ (by cases h), ?_⟩
    rintro ⟨_, _, _, h, -⟩
    cases hclosing.symm.trans h
  rw [← slice_parens_eq_panic_iff hopening hclosing]
  exact bind_eq_panic_iff fun column h ↦ by cases h

theorem parseInsertTarget_eq_panic_iff {target : List Char} :
    parseInsertTarget target = .error .panic ↔ Swapped target := by
  rw [parseInsertTarget]
  rcases hopening : findChar '(' target with _ | opening
  · refine ⟨fun h ↦ (by cases h), ?_⟩
    rintro ⟨_, _, h, -⟩
    cases hopening.symm.trans h
  rcases hclosing : rfindChar ')' target with _ | closing
  · refine ⟨fun h ↦ (by cases h), ?_⟩
    rintro ⟨_, _, _, h, -⟩
    cases hclosing.symm.trans h
  rw [← slice_parens_eq_panic_iff hopening hclosing]
  exact bind_eq_panic_iff fun columns h ↦ by cases h

theorem parseInsert_eq_panic_iff {sql : List Char} :
    parseInsert sql = .error .panic ↔
      ∃ valuesPos, findCi (trim (sql.drop "INSERT INTO".length)) "VALUES".toList = some valuesPos ∧
        Swapped (trim ((trim (sql.drop "INSERT INTO".length)).take valuesPos)) := by
  rw [parseInsert]
  generalize trim (sql.drop "INSERT INTO".length) = rest
  dsimp only
  rcases findCi rest "VALUES".toList with _ | valuesPos
  · refine ⟨fun h ↦ (by cases h), ?_⟩
    rintro ⟨_, h, -⟩
    cases h
  simp only [Option.some.injEq, exists_eq_left', ← parseInsertTarget_eq_panic_iff]
  refine bind_eq_panic_iff fun target ↦ ?_
  exact liftM_bind_ne_panic fun body ↦ liftM_bind_ne_panic fun values h ↦ by cases h

/-! ## The clauses of a `SELECT` -/

theorem getElem?_of_findCi {l needle : List Char} {pos k : Nat} (h : findCi l needle = some pos)
    (hk : k < needle.length) : (lower l)[pos + k]? = (lower needle)[k]? := by
  obtain ⟨rest, hrest⟩ := prefix_drop_of_find h
  rw [← List.getElem?_drop, ← hrest, List.getElem?_append_left (by rwa [length_lower])]

/-- **Two keywords that overlap share a blank**, if no other part of the first begins the second. -/
theorem shares_blank {first second : String} {l : List Char} {pos e : Nat}
    (hkey : ∀ k < first.toList.length, 0 < k →
      (∀ j < second.toList.length, k + j < first.toList.length →
        (lower first.toList)[k + j]? = (lower second.toList)[j]?) → k + 1 = first.toList.length)
    (hfirst : findCi l first.toList = some pos) (hsecond : findCi l second.toList = some e)
    (hpos : pos < e) (he : e < pos + first.toList.length) : e + 1 = pos + first.toList.length := by
  obtain ⟨k, rfl⟩ := Nat.exists_eq_add_of_lt hpos
  have hsame (j : Nat) (hj : j < second.toList.length) (hlt : k + 1 + j < first.toList.length) :
      (lower first.toList)[k + 1 + j]? = (lower second.toList)[j]? := by
    rw [← getElem?_of_findCi hfirst hlt, ← getElem?_of_findCi hsecond hj]
    congr 1
    omega
  have hlast := hkey (k + 1) (by omega) (Nat.succ_pos k) hsame
  omega

/-- The `WHERE` of a `SELECT` shares its blank with the clause behind it. -/
def WhereShares (fromRest : List Char) : Prop :=
  ∃ pos, findCi fromRest " WHERE ".toList = some pos ∧
    (findCi fromRest " ORDER BY ".toList = some (pos + 6) ∨
      findCi fromRest " LIMIT ".toList = some (pos + 6))

/-- The `ORDER BY` of a `SELECT` shares its blank with the clause behind it. -/
def OrderShares (fromRest : List Char) : Prop :=
  ∃ pos, findCi fromRest " ORDER BY ".toList = some pos ∧
    findCi fromRest " LIMIT ".toList = some (pos + 9)

theorem minPosition_le {positions : List (Option Nat)} {n m : Nat} (hn : some n ∈ positions)
    (hm : minPosition positions = some m) : m ≤ n := by
  have hmem : n ∈ positions.filterMap id := List.mem_filterMap.mpr ⟨some n, hn, rfl⟩
  exact (List.le_min?_iff hm).mp le_rfl n hmem

/-- The text of a clause is sliced and trimmed. -/
theorem trimmed_slice_eq_panic_iff {l : List Char} {start stop : Nat} :
    (do return trim (← slice l start stop) : Parse (List Char)) = .error .panic ↔ stop < start := by
  rw [← slice_eq_panic_iff]
  exact bind_eq_panic_iff fun text h ↦ by cases h

/-- **When the text of a `WHERE` is sliced in the wrong order.** -/
theorem whereText_eq_panic_iff {l : List Char} {pos : Nat}
    (h : findCi l " WHERE ".toList = some pos) :
    (selectClauses l).whereText l pos = .error .panic ↔ WhereShares l := by
  have hlength : pos + 7 ≤ l.length := ByteParser.length_le_of_findCi h (by decide)
  refine trimmed_slice_eq_panic_iff.trans ?_
  simp only [List.map_cons, List.map_nil, selectClauses]
  constructor
  · intro hlt
    rcases hmin : minPosition _ with _ | e
    · rw [hmin] at hlt
      exact absurd hlt (Nat.not_lt.mpr hlength)
    · rw [hmin] at hlt
      have hlt : e < pos + 7 := hlt
      have hmem := ByteParser.mem_of_minPosition hmin
      simp only [List.mem_cons, List.not_mem_nil, or_false] at hmem
      refine ⟨pos, h, ?_⟩
      rcases hmem with hmem | hmem
      · obtain ⟨horder, hgt⟩ := Option.filter_eq_some_iff.mp hmem.symm
        have hshares : e + 1 = pos + 7 :=
          shares_blank (by decide) h horder (of_decide_eq_true hgt) hlt
        obtain rfl : e = pos + 6 := by omega
        exact .inl horder
      · obtain ⟨hlimit, hgt⟩ := Option.filter_eq_some_iff.mp hmem.symm
        have hshares : e + 1 = pos + 7 :=
          shares_blank (by decide) h hlimit (of_decide_eq_true hgt) hlt
        obtain rfl : e = pos + 6 := by omega
        exact .inr hlimit
  · rintro ⟨pos', hpos', hnext⟩
    obtain rfl := Option.some.inj (hpos'.symm.trans h)
    have hmem : some (pos' + 6) ∈
        [(findCi l " ORDER BY ".toList).filter (pos' < ·),
          (findCi l " LIMIT ".toList).filter (pos' < ·)] := by
      have hkeep : (some (pos' + 6)).filter (pos' < ·) = some (pos' + 6) :=
        Option.filter_eq_some_iff.mpr ⟨rfl, by simp⟩
      rcases hnext with hnext | hnext
      · rw [hnext, hkeep]
        exact List.mem_cons_self
      · rw [hnext, hkeep]
        exact List.mem_cons_of_mem _ List.mem_cons_self
    rcases hmin : minPosition _ with _ | e
    · have hnone := List.min?_eq_none_iff.mp hmin
      exact absurd hnone (List.ne_nil_of_mem (List.mem_filterMap.mpr ⟨_, hmem, rfl⟩))
    · have hle := minPosition_le hmem hmin
      show e < pos' + 7
      omega

/-- **When the text of an `ORDER BY` is sliced in the wrong order.** -/
theorem orderText_eq_panic_iff {l : List Char} {pos : Nat}
    (h : findCi l " ORDER BY ".toList = some pos) :
    (selectClauses l).orderText l pos = .error .panic ↔ OrderShares l := by
  have hlength : pos + 10 ≤ l.length := ByteParser.length_le_of_findCi h (by decide)
  refine trimmed_slice_eq_panic_iff.trans ?_
  simp only [selectClauses]
  constructor
  · intro hlt
    rcases hfilter : (findCi l " LIMIT ".toList).filter (pos < ·) with _ | e
    · rw [hfilter] at hlt
      exact absurd hlt (Nat.not_lt.mpr hlength)
    · rw [hfilter] at hlt
      have hlt : e < pos + 10 := hlt
      obtain ⟨hlimit, hgt⟩ := Option.filter_eq_some_iff.mp hfilter
      have hshares : e + 1 = pos + 10 :=
        shares_blank (by decide) h hlimit (of_decide_eq_true hgt) hlt
      obtain rfl : e = pos + 9 := by omega
      exact ⟨pos, h, hlimit⟩
  · rintro ⟨pos', hpos', hlimit⟩
    obtain rfl := Option.some.inj (hpos'.symm.trans h)
    have hkeep : (some (pos' + 9)).filter (pos' < ·) = some (pos' + 9) :=
      Option.filter_eq_some_iff.mpr ⟨rfl, by simp⟩
    rw [hlimit, hkeep]
    show pos' + 9 < pos' + 10
    omega

/-- **The clauses of a `SELECT` are looked at**: nothing before them makes it an advanced one. -/
structure SelectFrom (sql fromRest : List Char) : Prop where
  nonempty : (trim (sql.drop "SELECT".length)).isEmpty = false
  simple : (startsWithCi (trim (sql.drop "SELECT".length)) "DISTINCT".toList ||
    startsWithCi (trim (sql.drop "SELECT".length)) "ALL".toList ||
    containsAny (lower (trim (sql.drop "SELECT".length)))
      [" union ", " intersect ", " except ", " window "]) = false
  behind : ∃ fromPos, findCi (trim (sql.drop "SELECT".length)) " FROM ".toList = some fromPos ∧
    isAdvancedProjection ((trim (sql.drop "SELECT".length)).take fromPos) = false ∧
    fromRest = trim ((trim (sql.drop "SELECT".length)).drop (fromPos + " FROM ".length))
  ungrouped : ((findCi fromRest " GROUP BY ".toList).isSome ||
    (findCi fromRest " HAVING ".toList).isSome || (findCi fromRest " OFFSET ".toList).isSome ||
    (findCi fromRest " WINDOW ".toList).isSome) = false
  table : isAdvancedFrom (fromRest.take (selectClauses fromRest).tableEnd) = false

/-- The `WHERE` of a `SELECT`, if there is one, is not an advanced one. -/
def PlainWhere (fromRest : List Char) : Prop :=
  ∀ pos, findCi fromRest " WHERE ".toList = some pos →
    ∃ text, (selectClauses fromRest).whereText fromRest pos = .ok text ∧
      isAdvancedWhereClause text = false

/-- What `is_advanced_select` does with the clauses. -/
def advancedClauses (fromRest : List Char) : Parse Bool := do
  let advancedWhere ← (match (selectClauses fromRest).wherePos with
    | none => .ok false
    | some pos => do
      let text ← (selectClauses fromRest).whereText fromRest pos
      return isAdvancedWhereClause text : Parse Bool)
  if advancedWhere then return true
  match (selectClauses fromRest).orderPos with
  | none => return false
  | some pos =>
    let text ← (selectClauses fromRest).orderText fromRest pos
    return isAdvancedOrderClause text

theorem isAdvancedSelect_of_selectFrom {sql fromRest : List Char} (h : SelectFrom sql fromRest) :
    isAdvancedSelect sql = advancedClauses fromRest := by
  obtain ⟨fromPos, hfrom, hprojection, hrest⟩ := h.behind
  rw [isAdvancedSelect]
  dsimp only
  rw [h.nonempty, h.simple, hfrom]
  dsimp only
  rw [hprojection, ← hrest, h.ungrouped, h.table]
  rfl

/-- What is decided before the clauses are looked at. -/
theorem selectFrom_or (sql : List Char) :
    (∃ fromRest, SelectFrom sql fromRest) ∨ (∃ advanced, isAdvancedSelect sql = .ok advanced ∧
      (advanced = false → findCi (trim (sql.drop "SELECT".length)) " FROM ".toList = none)) := by
  rw [isAdvancedSelect]
  dsimp only
  rcases hnonempty : (trim (sql.drop "SELECT".length)).isEmpty with _ | _
  · rcases hsimple : startsWithCi (trim (sql.drop "SELECT".length)) "DISTINCT".toList ||
        startsWithCi (trim (sql.drop "SELECT".length)) "ALL".toList ||
        containsAny (lower (trim (sql.drop "SELECT".length)))
          [" union ", " intersect ", " except ", " window "] with _ | _
    · rcases hfrom : findCi (trim (sql.drop "SELECT".length)) " FROM ".toList with _ | fromPos
      · exact .inr ⟨_, rfl, fun _ ↦ rfl⟩
      · dsimp only
        rcases hprojection : isAdvancedProjection
            ((trim (sql.drop "SELECT".length)).take fromPos) with _ | _
        · generalize hrest : trim ((trim (sql.drop "SELECT".length)).drop
            (fromPos + " FROM ".length)) = fromRest
          rcases hungrouped : (findCi fromRest " GROUP BY ".toList).isSome ||
              (findCi fromRest " HAVING ".toList).isSome ||
              (findCi fromRest " OFFSET ".toList).isSome ||
              (findCi fromRest " WINDOW ".toList).isSome with _ | _
          · rcases htable : isAdvancedFrom (fromRest.take (selectClauses fromRest).tableEnd)
              with _ | _
            · exact .inl ⟨fromRest, hnonempty, hsimple, ⟨fromPos, hfrom, hprojection, hrest.symm⟩,
                hungrouped, htable⟩
            · exact .inr ⟨true, rfl, fun h ↦ by cases h⟩
          · exact .inr ⟨true, rfl, fun h ↦ by cases h⟩
        · exact .inr ⟨true, rfl, fun h ↦ by cases h⟩
    · exact .inr ⟨true, rfl, fun h ↦ by cases h⟩
  · rw [List.isEmpty_iff.mp hnonempty]
    exact .inr ⟨false, rfl, fun _ ↦ rfl⟩

/-- Where the `ORDER BY` panics. -/
theorem orderClause_eq_panic_iff {fromRest : List Char} :
    (match (selectClauses fromRest).orderPos with
      | none => return false
      | some pos => do
        let text ← (selectClauses fromRest).orderText fromRest pos
        return isAdvancedOrderClause text : Parse Bool) = .error .panic ↔ OrderShares fromRest := by
  rcases horder : (selectClauses fromRest).orderPos with _ | pos
  · refine ⟨fun h ↦ (by cases h), ?_⟩
    rintro ⟨pos, hpos, -⟩
    cases horder.symm.trans hpos
  · rw [← orderText_eq_panic_iff horder]
    exact bind_eq_panic_iff fun text h ↦ by cases h

/-- **Where the clauses panic.** -/
theorem advancedClauses_eq_panic_iff {fromRest : List Char} :
    advancedClauses fromRest = .error .panic ↔
      WhereShares fromRest ∨ PlainWhere fromRest ∧ OrderShares fromRest := by
  rw [advancedClauses, ← orderClause_eq_panic_iff]
  rcases hwhere : (selectClauses fromRest).wherePos with _ | pos
  · have hplain : PlainWhere fromRest := fun pos hpos ↦ by cases hwhere.symm.trans hpos
    have hshares : ¬ WhereShares fromRest := by
      rintro ⟨pos, hpos, -⟩
      cases hwhere.symm.trans hpos
    exact ⟨fun h ↦ .inr ⟨hplain, h⟩, fun h ↦ (h.resolve_left hshares).2⟩
  · rw [← whereText_eq_panic_iff hwhere]
    dsimp only
    rcases htext : (selectClauses fromRest).whereText fromRest pos with fault | text
    · have hplain : ¬ PlainWhere fromRest := by
        intro h
        obtain ⟨text, hok, -⟩ := h pos hwhere
        cases htext.symm.trans hok
      refine ⟨fun h ↦ .inl ?_, fun h ↦ ?_⟩
      · cases Except.error.inj h
        rfl
      · cases Except.error.inj (h.resolve_right fun hor ↦ hplain hor.1)
        rfl
    · show (if isAdvancedWhereClause text = true then (return true : Parse Bool) else _) = _ ↔ _
      rcases hadvanced : isAdvancedWhereClause text with _ | _
      · have hplain : PlainWhere fromRest := by
          intro pos' hpos'
          obtain rfl := Option.some.inj (hwhere.symm.trans hpos')
          exact ⟨text, htext, hadvanced⟩
        refine ⟨fun h ↦ .inr ⟨hplain, h⟩, fun h ↦ (h.resolve_left ?_).2⟩
        rintro ⟨⟩
      · have hplain : ¬ PlainWhere fromRest := by
          intro h
          obtain ⟨text', hok, hfalse⟩ := h pos hwhere
          obtain rfl := Except.ok.inj (htext.symm.trans hok)
          rw [hadvanced] at hfalse
          cases hfalse
        refine ⟨fun h ↦ (by cases h), fun h ↦ ?_⟩
        cases h.resolve_right fun hor ↦ hplain hor.1

/-- **Where a `SELECT` is found to be wrong by its slices.** -/
theorem isAdvancedSelect_eq_panic_iff {sql : List Char} :
    isAdvancedSelect sql = .error .panic ↔ ∃ fromRest, SelectFrom sql fromRest ∧
      (WhereShares fromRest ∨ PlainWhere fromRest ∧ OrderShares fromRest) := by
  constructor
  · intro h
    rcases selectFrom_or sql with ⟨fromRest, hfrom⟩ | ⟨advanced, hok, -⟩
    · rw [isAdvancedSelect_of_selectFrom hfrom, advancedClauses_eq_panic_iff] at h
      exact ⟨fromRest, hfrom, h⟩
    · cases h.symm.trans hok
  · rintro ⟨fromRest, hfrom, h⟩
    rw [isAdvancedSelect_of_selectFrom hfrom, advancedClauses_eq_panic_iff]
    exact h

theorem plainWhere_of_ok {fromRest : List Char} (h : advancedClauses fromRest = .ok false) :
    PlainWhere fromRest := by
  intro pos hpos
  have hwhere : (selectClauses fromRest).wherePos = some pos := hpos
  rw [advancedClauses, hwhere] at h
  obtain ⟨advancedWhere, htext, h⟩ := bind_eq_ok_iff.mp h
  obtain ⟨text, hslice, hadvanced⟩ := bind_eq_ok_iff.mp htext
  refine ⟨text, hslice, ?_⟩
  rcases advancedWhere with _ | _
  · exact Except.ok.inj hadvanced
  · cases h

/-- **What is not advanced is sliced again at the same places.** -/
theorem parseSelect_ne_panic {sql : List Char} (h : isAdvancedSelect sql = .ok false) :
    parseSelect sql ≠ .error .panic := by
  rw [parseSelect]
  dsimp only
  rcases selectFrom_or sql with ⟨fromRest, hselect⟩ | ⟨advanced, hok, hnone⟩
  · rw [isAdvancedSelect_of_selectFrom hselect] at h
    have hpanic : ¬ (WhereShares fromRest ∨ PlainWhere fromRest ∧ OrderShares fromRest) := by
      rw [← advancedClauses_eq_panic_iff, h]
      rintro ⟨⟩
    obtain ⟨hwhere, horder⟩ := not_or.mp hpanic
    have horder : ¬ OrderShares fromRest := fun hshares ↦ horder ⟨plainWhere_of_ok h, hshares⟩
    obtain ⟨fromPos, hfrom, -, hrest⟩ := hselect.behind
    rw [hfrom]
    dsimp only
    rw [← hrest]
    refine liftM_bind_ne_panic fun projection ↦ bind_ne_panic (mapM_ne_panic fun pos hpos ↦ ?_)
      fun filter ↦ bind_ne_panic (mapM_ne_panic fun pos hpos ↦ ?_)
      fun order ↦ bind_ne_panic (mapM_ne_panic fun pos hpos ↦ ?_) fun limit ↦ ?_
    · refine bind_ne_panic ?_ fun text ↦ monadLift_ne_panic _
      rwa [Ne, whereText_eq_panic_iff hpos]
    · refine bind_ne_panic ?_ fun text ↦ monadLift_ne_panic _
      rwa [Ne, orderText_eq_panic_iff hpos]
    · exact monadLift_ne_panic _
    · rintro ⟨⟩
  · obtain rfl := Except.ok.inj (h.symm.trans hok)
    rw [hnone rfl]
    rintro ⟨⟩

/-! ## Dispatch -/

/-- **A text starts with one of two keywords only**, where neither begins the other. -/
theorem startsWithCi_eq_false {sql a b : List Char} (h : startsWithCi sql a = true)
    (hab : ¬ lower a <+: lower b) (hba : ¬ lower b <+: lower a) : startsWithCi sql b = false := by
  rw [← Bool.not_eq_true, ByteParser.startsWithCi_iff]
  intro hb
  rw [ByteParser.startsWithCi_iff] at h
  rcases List.prefix_or_prefix_of_prefix h hb with hor | hor
  · exact hab hor
  · exact hba hor

theorem startsWithCi_of_eqIgnoreCase {sql text : List Char} (h : eqIgnoreCase sql text = true) :
    startsWithCi sql text = true := by
  rw [ByteParser.startsWithCi_iff, beq_iff_eq.mp h]

/-- The statements about transactions start with other keywords. -/
theorem not_transaction_of {sql : List Char}
    (h : ∀ text ∈ ["BEGIN", "COMMIT", "END", "ROLLBACK"], startsWithCi sql text.toList = false)
    (dialect : SqlDialect) : isBegin sql dialect = false ∧ isCommit sql dialect = false ∧
      isRollback sql dialect = false := by
  have key (texts : List String) (hstart : ∀ text ∈ texts,
      ∃ keyword ∈ ["BEGIN", "COMMIT", "END", "ROLLBACK"], keyword.toList <+: text.toList) :
      isOneOf sql texts = false := by
    rw [isOneOf, List.any_eq_false]
    intro text htext hequal
    obtain ⟨keyword, hkeyword, hpre⟩ := hstart text htext
    have hstarts := ByteParser.startsWithCi_mono hpre (startsWithCi_of_eqIgnoreCase hequal)
    rw [h keyword hkeyword] at hstarts
    cases hstarts
  refine ⟨?_, ?_, ?_⟩
  · rw [isBegin, key _ (by decide), key _ (by decide), key _ (by decide)]
    simp
  · rw [isCommit, key _ (by decide), key _ (by decide), key _ (by decide)]
    simp
  · rw [isRollback, key _ (by decide), key _ (by decide)]
    simp

/-- The keywords that are looked for before those of a `CREATE INDEX`, up to its own. -/
def earlierKeywords : List String :=
  ["WITH", "VALUES", "INSERT OR ", "UPDATE OR ", "ROLLBACK TO", "SAVEPOINT", "RELEASE",
    "ALTER TABLE", "ANALYZE", "ATTACH", "DETACH", "CREATE TABLE", "CREATE TEMP TABLE",
    "CREATE TEMPORARY TABLE", "CREATE VIEW", "CREATE TEMP VIEW", "CREATE TEMPORARY VIEW",
    "CREATE TRIGGER", "CREATE TEMP TRIGGER", "CREATE TEMPORARY TRIGGER", "CREATE VIRTUAL TABLE",
    "CREATE UNIQUE INDEX", "CREATE UNIQUE INDEX IF NOT EXISTS", "BEGIN", "COMMIT", "END",
    "ROLLBACK"]

/-- The keywords that are looked for behind those, before the ones of an `INSERT`. -/
def indexKeywords : List String :=
  ["CREATE INDEX IF NOT EXISTS", "CREATE FULLTEXT INDEX", "CREATE INDEX", "DROP INDEX",
    "DROP TABLE",
    "DROP TRIGGER", "DROP VIEW"]

/-- The keywords of one statement are not those of another. -/
def Apart (keyword : String) (texts : List String) : Prop :=
  ∀ text ∈ texts, ¬ lower keyword.toList <+: lower text.toList ∧
    ¬ lower text.toList <+: lower keyword.toList

instance (keyword : String) (texts : List String) : Decidable (Apart keyword texts) :=
  inferInstanceAs (Decidable (∀ text ∈ texts, _ ∧ _))

theorem Apart.startsWithCi_eq_false {keyword : String} {texts : List String}
    (h : Apart keyword texts)
    {sql : List Char} (hstarts : startsWithCi sql keyword.toList = true) :
    ∀ text ∈ texts, startsWithCi sql text.toList = false := fun text htext ↦
  Fsql.startsWithCi_eq_false hstarts (h text htext).1 (h text htext).2

theorem parseStatement_of_select {sql : List Char} (h : startsWithCi sql "SELECT".toList = true)
    (dialect : SqlDialect) :
    parseStatement sql dialect = (do
      if ← isAdvancedSelect sql then parseParsedOnly sql .select "SELECT"
      else parseSelect sql) := by
  have hfalse := @Apart.startsWithCi_eq_false "SELECT"
    (earlierKeywords ++ indexKeywords ++ ["INSERT INTO", "REPLACE INTO"]) (by decide) sql h
  obtain ⟨hbegin, hcommit, hrollback⟩ := @not_transaction_of sql
    (fun text htext ↦ hfalse text (by revert text; decide)) dialect
  simp only [earlierKeywords, indexKeywords, List.cons_append, List.nil_append,
    List.forall_mem_cons] at hfalse
  rw [parseStatement]
  simp only [startsWithAny, List.any_cons, List.any_nil, hfalse, hbegin, hcommit, hrollback, h]
  rfl

theorem parseStatement_of_insert {sql : List Char}
    (h : startsWithCi sql "INSERT INTO".toList = true) (dialect : SqlDialect) :
    parseStatement sql dialect = (do
      if isAdvancedInsert sql then parseAdvancedInsertKind sql .insert "INSERT INTO"
      else parseInsert sql : Parse Statement) := by
  have hfalse := @Apart.startsWithCi_eq_false "INSERT INTO" (earlierKeywords ++ indexKeywords)
    (by decide) sql h
  obtain ⟨hbegin, hcommit, hrollback⟩ := @not_transaction_of sql
    (fun text htext ↦ hfalse text (by revert text; decide)) dialect
  simp only [earlierKeywords, indexKeywords, List.cons_append, List.nil_append,
    List.forall_mem_cons] at hfalse
  rw [parseStatement]
  simp only [startsWithAny, List.any_cons, List.any_nil, hfalse, hbegin, hcommit, hrollback, h]
  rfl

/-- A text that starts with a keyword contains what is in the keyword. -/
theorem containsAny_of_startsWithCi {sql : List Char} {keyword pattern : String}
    {patterns : List String} (h : startsWithCi sql keyword.toList = true)
    (hmem : pattern ∈ patterns) (hpart : pattern.toList <:+: lower keyword.toList) :
    containsAny (lower sql) patterns = true := by
  refine List.any_eq_true.mpr ⟨pattern, hmem, contains_iff.mpr ?_⟩
  exact hpart.trans (ByteParser.startsWithCi_iff.mp h).isInfix

/-- A `CREATE INDEX` without `IF NOT EXISTS` is not looked for under other keywords. -/
theorem parseStatement_of_createIndex {sql : List Char}
    (h : startsWithAny sql ["CREATE FULLTEXT INDEX", "CREATE INDEX"] = true)
    (hphrases : containsAny (lower sql) createIndexPhrases = false) (dialect : SqlDialect) :
    parseStatement sql dialect = (do
      if ← isAdvancedCreateIndex sql then parseParsedOnly sql .createIndex "CREATE"
      else parseCreateIndex sql) := by
  have hexists : startsWithCi sql "CREATE INDEX IF NOT EXISTS".toList = false := by
    by_contra hstarts
    have hcontains := @containsAny_of_startsWithCi sql "CREATE INDEX IF NOT EXISTS" " if not exists"
      createIndexPhrases (Bool.not_eq_false _ ▸ hstarts) (by decide) (by decide)
    rw [hphrases] at hcontains
    cases hcontains
  have hfalse : ∀ text ∈ earlierKeywords, startsWithCi sql text.toList = false := by
    obtain ⟨keyword, hkeyword, hstarts⟩ := List.any_eq_true.mp h
    have hapart : ∀ keyword ∈ ["CREATE FULLTEXT INDEX", "CREATE INDEX"],
        Apart keyword earlierKeywords := by decide
    exact (hapart keyword hkeyword).startsWithCi_eq_false hstarts
  obtain ⟨hbegin, hcommit, hrollback⟩ := @not_transaction_of sql
    (fun text htext ↦ hfalse text (by revert text; decide)) dialect
  simp only [earlierKeywords, List.forall_mem_cons] at hfalse
  simp only [startsWithAny, List.any_cons, List.any_nil] at h
  rw [parseStatement]
  simp only [startsWithAny, List.any_cons, List.any_nil, hfalse, hexists, hbegin, hcommit,
    hrollback, h]
  rfl

/-! ## The texts the parser panics on -/

/-- **The statements whose slices are in the wrong order.** -/
inductive Misplaced (sql : List Char) : Prop
  /-- A `CREATE INDEX` without an advanced phrase, its parentheses the wrong way round. -/
  | createIndex (h : startsWithAny sql ["CREATE FULLTEXT INDEX", "CREATE INDEX"] = true)
      (hphrases : containsAny (lower sql) createIndexPhrases = false) (hswapped : Swapped sql)
  /-- A `CREATE INDEX` that is not an advanced one, the parentheses behind its `ON` the wrong way
  round. -/
  | indexTarget (h : startsWithAny sql ["CREATE FULLTEXT INDEX", "CREATE INDEX"] = true)
      (hphrases : containsAny (lower sql) createIndexPhrases = false)
      (hadvanced : isAdvancedCreateIndex sql = .ok false) {onPos : Nat}
      (hon : findCi (createIndexRest sql) " ON ".toList = some onPos)
      (hswapped : Swapped (trim ((createIndexRest sql).drop (onPos + " ON ".length))))
  /-- An `INSERT` that is not an advanced one, the parentheses before its `VALUES` the wrong way
  round. -/
  | insert (h : startsWithCi sql "INSERT INTO".toList = true)
      (hadvanced : isAdvancedInsert sql = false) {valuesPos : Nat}
      (hvalues : findCi (trim (sql.drop "INSERT INTO".length)) "VALUES".toList = some valuesPos)
      (hswapped : Swapped (trim ((trim (sql.drop "INSERT INTO".length)).take valuesPos)))
  /-- A `SELECT` whose `WHERE` shares its blank with the clause behind it. -/
  | whereClause (h : startsWithCi sql "SELECT".toList = true) {fromRest : List Char}
      (hselect : SelectFrom sql fromRest) (hshares : WhereShares fromRest)
  /-- A `SELECT` without an advanced `WHERE` whose `ORDER BY` shares its blank with the clause
  behind it. -/
  | orderClause (h : startsWithCi sql "SELECT".toList = true) {fromRest : List Char}
      (hselect : SelectFrom sql fromRest) (hwhere : PlainWhere fromRest)
      (hshares : OrderShares fromRest)

theorem phrases_of_not_advanced {sql : List Char} (h : isAdvancedCreateIndex sql = .ok false) :
    containsAny (lower sql) createIndexPhrases = false := by
  rw [isAdvancedCreateIndex, ← createIndexPhrases] at h
  rcases hphrases : containsAny (lower sql) createIndexPhrases with _ | _
  · rfl
  · rw [hphrases] at h
    cases h

/-- Where a statement panics that is parsed only if it is an advanced one. -/
theorem advanced_or_eq_panic_iff {advanced : Parse Bool} {x : Result Statement}
    {y : Parse Statement} :
    (do if ← advanced then x else y : Parse Statement) = .error .panic ↔
      advanced = .error .panic ∨ advanced = .ok false ∧ y = .error .panic := by
  rcases advanced with fault | _ | _
  · simp [bind, Except.bind]
  · simp [bind, Except.bind]
  · refine ⟨fun h ↦ absurd h (monadLift_ne_panic x), ?_⟩
    rintro (h | ⟨h, -⟩) <;> cases h

theorem ite_ne_panic {c : Prop} [Decidable c] {x y : Parse Statement}
    (hx : c → x ≠ .error .panic) (hy : ¬ c → y ≠ .error .panic) :
    (if c then x else y) ≠ .error .panic := by
  split
  · exact hx ‹_›
  · exact hy ‹_›

/-- **When a statement panics.** -/
theorem parseStatement_eq_panic_iff {sql : List Char} {dialect : SqlDialect} :
    parseStatement sql dialect = .error .panic ↔ Misplaced sql := by
  constructor
  · contrapose!
    intro hplaced
    rw [parseStatement]
    dsimp only
    repeat' with_reducible refine ite_ne_panic (fun h ↦ ?_) (fun _ ↦ ?_)
    all_goals try with_reducible exact monadLift_ne_panic _
    · rintro ⟨⟩
    · rintro ⟨⟩
    · rintro ⟨⟩
    · exact parseCreateTable_ne_panic sql
    · rw [Ne, advanced_or_eq_panic_iff, isAdvancedCreateIndex_eq_panic_iff]
      rintro (⟨hphrases, hswapped⟩ | ⟨hadvanced, hpanic⟩)
      · exact hplaced (.createIndex h hphrases hswapped)
      · obtain ⟨onPos, hon, hswapped⟩ := parseCreateIndex_eq_panic_iff.mp hpanic
        exact hplaced (.indexTarget h (phrases_of_not_advanced hadvanced) hadvanced hon hswapped)
    · rename_i hadvanced
      intro hpanic
      obtain ⟨valuesPos, hvalues, hswapped⟩ := parseInsert_eq_panic_iff.mp hpanic
      exact hplaced (.insert ‹_› (Bool.not_eq_true _ ▸ hadvanced) hvalues hswapped)
    · rw [Ne, advanced_or_eq_panic_iff, isAdvancedSelect_eq_panic_iff]
      rintro (⟨fromRest, hselect, hshares | ⟨hwhere, hshares⟩⟩ | ⟨hadvanced, hpanic⟩)
      · exact hplaced (.whereClause h hselect hshares)
      · exact hplaced (.orderClause h hselect hwhere hshares)
      · exact parseSelect_ne_panic hadvanced hpanic
    · rintro ⟨⟩
  · rintro (⟨h, hphrases, hswapped⟩ | ⟨h, hphrases, hadvanced, hon, hswapped⟩ |
      ⟨h, hadvanced, hvalues, hswapped⟩ | ⟨h, hselect, hshares⟩ | ⟨h, hselect, hwhere, hshares⟩)
    · rw [parseStatement_of_createIndex h hphrases, advanced_or_eq_panic_iff]
      exact .inl (isAdvancedCreateIndex_eq_panic_iff.mpr ⟨hphrases, hswapped⟩)
    · rw [parseStatement_of_createIndex h hphrases, advanced_or_eq_panic_iff]
      exact .inr ⟨hadvanced, parseCreateIndex_eq_panic_iff.mpr ⟨_, hon, hswapped⟩⟩
    · rw [parseStatement_of_insert h, hadvanced]
      exact parseInsert_eq_panic_iff.mpr ⟨_, hvalues, hswapped⟩
    · rw [parseStatement_of_select h, advanced_or_eq_panic_iff]
      exact .inl (isAdvancedSelect_eq_panic_iff.mpr ⟨_, hselect, .inl hshares⟩)
    · rw [parseStatement_of_select h, advanced_or_eq_panic_iff]
      exact .inl (isAdvancedSelect_eq_panic_iff.mpr ⟨_, hselect, .inr ⟨hwhere, hshares⟩⟩)

/-- **What a text explains**: the statement behind its `EXPLAIN`s. -/
inductive Explains : List Char → List Char → Prop
  | statement {sql : List Char}
      (h : startsWithCi (stripStatement sql) "EXPLAIN".toList = false) :
      Explains sql (stripStatement sql)
  | explain {sql statement : List Char}
      (h : startsWithCi (stripStatement sql) "EXPLAIN".toList = true)
      (hrest : Explains (explained (stripStatement sql)) statement) : Explains sql statement

theorem not_misplaced_nil : ¬ Misplaced [] := by
  rintro (⟨h, -, -⟩ | ⟨h, -, -, -, -⟩ | ⟨h, -, -, -⟩ | ⟨h, -, -⟩ | ⟨h, -, -, -⟩) <;> cases h

/-- A text explains one statement. -/
theorem explains_iff {sql statement : List Char} : Explains sql statement ↔
    if startsWithCi (stripStatement sql) "EXPLAIN".toList then
      Explains (explained (stripStatement sql)) statement
    else statement = stripStatement sql := by
  rcases h : startsWithCi (stripStatement sql) "EXPLAIN".toList with _ | _
  · simp only [Bool.false_eq_true, if_false]
    constructor
    · rintro (_ | ⟨hexplain, -⟩)
      · rfl
      · rw [h] at hexplain
        cases hexplain
    · rintro rfl
      exact .statement h
  · simp only [if_true]
    constructor
    · rintro (hstatement | ⟨-, hrest⟩)
      · rw [h] at hstatement
        cases hstatement
      · exact hrest
    · exact .explain h

/-- The induction is on the nested `EXPLAIN`s. -/
theorem parseSqlFuel_eq_panic_iff {fuel : Nat} {sql : List Char} (hlength : sql.length < fuel)
    {dialect : SqlDialect} :
    parseSqlFuel fuel sql dialect = .error .panic ↔
      ∃ statement, Explains sql statement ∧ Misplaced statement := by
  induction fuel generalizing sql with
  | zero => omega
  | succ fuel ih =>
    rw [parseSqlFuel]
    simp only [@explains_iff sql]
    rcases hempty : (stripStatement sql).isEmpty with _ | _
    · rcases hexplain : startsWithCi (stripStatement sql) "EXPLAIN".toList with _ | _
      · simp only [Bool.false_eq_true, if_false, exists_eq_left]
        exact parseStatement_eq_panic_iff
      · have hlt := (length_explained_lt hexplain).trans_le
          (length_stripStatement_le sql)
        have hrest := ih (hlt.trans_le (Nat.le_of_lt_succ hlength))
        simp only [Bool.false_eq_true, if_false, if_true, ← hrest]
        by_cases hnil : explained (stripStatement sql) = []
        · obtain ⟨n, rfl⟩ := Nat.exists_eq_succ_of_ne_zero (show fuel ≠ 0 by omega)
          have hsql : parseSqlFuel n.succ [] dialect = .error (.error (.parse "empty SQL")) := rfl
          rw [hnil, hsql]
          simp
        · rw [if_neg (by rwa [List.isEmpty_iff])]
          rcases parseSqlFuel fuel (explained (stripStatement sql)) dialect with fault | statement
          · exact ⟨fun h ↦ congrArg Except.error (Except.error.inj h),
              fun h ↦ congrArg Except.error (Except.error.inj h)⟩
          · exact ⟨fun h ↦ (by cases h), fun h ↦ (by cases h)⟩
    · rw [List.isEmpty_iff.mp hempty]
      refine ⟨fun h ↦ (by cases Except.error.inj h), ?_⟩
      rintro ⟨statement, rfl, hmisplaced⟩
      exact absurd hmisplaced not_misplaced_nil

/-- **When the parser panics**: on no text and in no dialect, unless the slices of the statement
behind the `EXPLAIN`s are in the wrong order. -/
theorem parse_ne_panic_iff (sql : String) (dialect : SqlDialect) :
    ByteParser.parseSqlWithDialect sql dialect ≠ .error .panic ↔
      ∀ statement, Explains sql.toList statement → ¬ Misplaced statement := by
  have hpanic := @parseSqlFuel_eq_panic_iff (sql.length + 1) sql.toList
    (Nat.lt_succ_self sql.toList.length) dialect
  rw [ByteParser.parseSqlWithDialect_eq, parseSqlWithDialect, Ne, hpanic]
  simp only [not_exists, not_and]

/-- **A closing parenthesis before the opening one** makes the parser panic. -/
theorem parse_panics : ¬ ∀ (sql : String) (dialect : SqlDialect),
    ByteParser.parseSqlWithDialect sql dialect ≠ .error .panic := by
  intro h
  refine h "CREATE INDEX i ON t)c(" .fsql ?_
  rw [ByteParser.parseSqlWithDialect_eq]
  decide +kernel

example : parseSqlWithDialect "CREATE INDEX ( ON )(" .fsql = .error .panic := by decide +kernel

example : parseSqlWithDialect "INSERT INTO t)a( VALUES (1)" .fsql = .error .panic := by
  decide +kernel

example : parseSqlWithDialect "SELECT * FROM t WHERE LIMIT 1" .fsql = .error .panic := by
  decide +kernel

example : parseSqlWithDialect "SELECT * FROM t ORDER BY LIMIT 1" .fsql = .error .panic := by
  decide +kernel

end Fsql
