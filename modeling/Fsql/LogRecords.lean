import Fsql.Library.Framing
import Fsql.Logging
import Fsql.Storage.Decode

/-!
# The records of the logs

The other half of `logging.rs`: the lines that the five logs consist of.  Texts are escaped and
snapshots are written in hexadecimal, so that a line is a record of fields.

`logs_lossless` says that nothing is lost: what is meant for a log is written to it, a line has one
line break, at its end, and splits at tabs into the fields of its kind, and a file, whatever texts
are logged in it, reads as the records of the calls that were meant for it.
-/

set_option autoImplicit false

namespace Fsql

open Number Text Framing

/-! ## Escaping and hexadecimal -/

/-- `escape`. -/
def escape (input : String) : String :=
  String.ofList (Text.replaceChar '\n' ['\\', 'n'] (Text.replaceChar '\t' ['\\', 't']
    (Text.replaceChar '\\' ['\\', '\\'] input.toList)))

/-- What `escape` makes of one character. -/
def escapeChar (c : Char) : List Char :=
  if c = '\\' then ['\\', '\\'] else if c = '\t' then ['\\', 't']
  else if c = '\n' then ['\\', 'n'] else [c]

theorem escape_eq (input : String) :
    escape input = String.ofList (input.toList.flatMap escapeChar) := by
  have hchar (c : Char) : ((if c = '\\' then ['\\', '\\'] else [c]).flatMap fun c ↦
      (if c = '\t' then ['\\', 't'] else [c]).flatMap fun c ↦
        if c = '\n' then ['\\', 'n'] else [c]) = escapeChar c := by
    rw [escapeChar]
    by_cases hslash : c = '\\'
    · subst hslash
      rfl
    · by_cases htab : c = '\t'
      · subst htab
        rfl
      · simp only [if_neg hslash, if_neg htab, List.flatMap_cons, List.flatMap_nil,
          List.append_nil]
  rw [escape, Text.replaceChar, Text.replaceChar, Text.replaceChar, List.flatMap_assoc,
    List.flatMap_assoc]
  exact congrArg String.ofList (congrArg (List.flatMap · _) (funext hchar))

/-- The code behind `escape`: a backslash before a letter. -/
def escapeCode : EscapeCode Char where
  mark := '\\'
  letter c := if c = '\\' then some '\\' else if c = '\t' then some 't'
    else if c = '\n' then some 'n' else none
  unletter c := if c = 't' then '\t' else if c = 'n' then '\n' else c
  letter_mark := rfl
  unletter_letter {a b} h := by
    split_ifs at h with hslash htab hbreak
    · obtain rfl := Option.some.inj h
      exact hslash.symm
    · obtain rfl := Option.some.inj h
      exact htab.symm
    · obtain rfl := Option.some.inj h
      exact hbreak.symm

theorem toList_escape (input : String) :
    (escape input).toList = escapeCode.encode input.toList := by
  have hitem : escapeChar = escapeCode.encodeItem := by
    funext c
    rw [EscapeCode.encodeItem]
    dsimp only [escapeChar, escapeCode]
    split_ifs
    all_goals rfl
  rw [escape_eq, String.toList_ofList, hitem]
  rfl

/-- The text of an escaped field. -/
def unescape (field : List Char) : String := String.ofList (escapeCode.decode field)

/-- **An escaped text is read back.** -/
theorem unescape_escape (input : String) : unescape (escape input).toList = input := by
  rw [unescape, toList_escape, EscapeCode.decode_encode, String.ofList_toList]

theorem escape_injective : Function.Injective escape := by
  intro input input' h
  rw [← unescape_escape input, h, unescape_escape]

/-- `hex`. -/
def hex (bytes : List UInt8) : String :=
  String.ofList (bytes.flatMap fun byte ↦ hexPad 2 byte.toNat)

/-- The bytes of a field in hexadecimal. -/
def unhex (field : List Char) : Option (List UInt8) := decodeBytes (asBytes field)

/-- **Bytes in hexadecimal are read back.** -/
theorem unhex_hex (bytes : List UInt8) : unhex (hex bytes).toList = some bytes := by
  rw [unhex, hex, String.toList_ofList, decodeBytes_encode]

/-! ## The lines -/

/-- `RedoEvent`. -/
inductive RedoEvent
  | begin
  | commit
  | abort
deriving DecidableEq, Repr

/-- How `append_redolog` writes an event. -/
def RedoEvent.marker : RedoEvent → String
  | .begin => "BEGIN"
  | .commit => "COMMIT"
  | .abort => "ABORT"

/-- A line that is appended to a file. -/
structure LogLine where
  /-- The file. -/
  path : String
  /-- The line, with its end. -/
  line : String
deriving DecidableEq, Repr

namespace LogLine

/-- `append_slow_sql` at a time: it has taken `elapsed` nanoseconds. -/
def appendSlowSql (options : DatabaseOptions) (timestamp : Nat) (sql : String) (elapsed : Nat) :
    Option LogLine :=
  match options.slowSqlThreshold with
  | none => none
  | some threshold =>
    if elapsed < threshold then none
    else
      let line := s!"SLOW\t{timestamp}\t{elapsed / 1000}\t{escape sql}\n"
      options.slowSqlLogPath.map (⟨·, line⟩)

/-- `append_error`. -/
def appendError (options : DatabaseOptions) (timestamp : Nat) (sql error : String) :
    Option LogLine :=
  let line := s!"ERROR\t{timestamp}\t{escape sql}\t{escape error}\n"
  options.errorLogPath.map (⟨·, line⟩)

/-- `append_binlog`. -/
def appendBinlog (options : DatabaseOptions) (timestamp : Nat) (sql : String) : Option LogLine :=
  let line := s!"BIN\t{timestamp}\t{escape sql}\n"
  options.binlogPath.map (⟨·, line⟩)

/-- `append_redolog`. -/
def appendRedolog (options : DatabaseOptions) (timestamp : Nat) (event : RedoEvent)
    (sql : String) : Option LogLine :=
  if options.walMode = .disabled then none
  else
    let line := s!"REDO\t{timestamp}\t{event.marker}\t{escape sql}\n"
    options.redologPath.map (⟨·, line⟩)

/-- `append_undolog`. -/
def appendUndolog (options : DatabaseOptions) (timestamp : Nat) (sql catalogSnapshot : String) :
    Option LogLine :=
  let snapshot := hex catalogSnapshot.toByteArray.data.toList
  let line := s!"UNDO\t{timestamp}\t{escape sql}\t{snapshot}\n"
  options.undologPath.map (⟨·, line⟩)

end LogLine

/-- A call of one of the functions that append to a log. -/
inductive LogCall
  | slowSql (sql : String) (elapsed : Nat)
  | error (sql error : String)
  | binlog (sql : String)
  | redolog (event : RedoEvent) (sql : String)
  | undolog (sql catalogSnapshot : String)
deriving DecidableEq, Repr

/-- The line that a call appends. -/
def LogCall.append (options : DatabaseOptions) (timestamp : Nat) : LogCall → Option LogLine
  | .slowSql sql elapsed => LogLine.appendSlowSql options timestamp sql elapsed
  | .error sql message => LogLine.appendError options timestamp sql message
  | .binlog sql => LogLine.appendBinlog options timestamp sql
  | .redolog event sql => LogLine.appendRedolog options timestamp event sql
  | .undolog sql catalogSnapshot => LogLine.appendUndolog options timestamp sql catalogSnapshot

/-- **The log that a call is meant for**: its file, if there is one.  The slow log is for the
statements that reach its threshold, and without the redo mode there is no redo log. -/
def LogCall.target (options : DatabaseOptions) : LogCall → Option String
  | .slowSql _ elapsed =>
    if options.slowSqlThreshold.any (· ≤ elapsed) then options.slowSqlLogPath else none
  | .error .. => options.errorLogPath
  | .binlog _ => options.binlogPath
  | .redolog .. => if options.walMode = .redoLog then options.redologPath else none
  | .undolog .. => options.undologPath

/-- **A call whose log is configured appends a line to it**, and no other call appends any. -/
theorem LogCall.path_append (options : DatabaseOptions) (timestamp : Nat) (call : LogCall) :
    (call.append options timestamp).map (·.path) = call.target options := by
  have hpath (line : String) (path : Option String) :
      (path.map fun path ↦ (⟨path, line⟩ : LogLine)).map (·.path) = path := by
    rw [Option.map_map]
    exact Option.map_id'
  cases call with
  | slowSql sql elapsed =>
    rw [append, LogLine.appendSlowSql, target]
    rcases options.slowSqlThreshold with _ | threshold
    · rfl
    · by_cases h : elapsed < threshold
      · simp [h, Nat.not_le.mpr h]
      · simp [h, Nat.not_lt.mp h, hpath]
  | redolog event sql =>
    rw [append, LogLine.appendRedolog, target]
    rcases hmode : options.walMode with _ | _
    · rfl
    · exact hpath _ _
  | error sql message => exact hpath _ _
  | binlog sql => exact hpath _ _
  | undolog sql catalogSnapshot => exact hpath _ _

/-! ## The records -/

/-- What a line says. -/
inductive LogRecord
  | slowSql (timestamp micros : Nat) (sql : String)
  | error (timestamp : Nat) (sql error : String)
  | binlog (timestamp : Nat) (sql : String)
  | redolog (timestamp : Nat) (event : RedoEvent) (sql : String)
  | undolog (timestamp : Nat) (sql catalogSnapshot : String)
deriving DecidableEq, Repr

/-- What a call logs. -/
def LogCall.record (timestamp : Nat) : LogCall → LogRecord
  | .slowSql sql elapsed => .slowSql timestamp (elapsed / 1000) sql
  | .error sql message => .error timestamp sql message
  | .binlog sql => .binlog timestamp sql
  | .redolog event sql => .redolog timestamp event sql
  | .undolog sql catalogSnapshot => .undolog timestamp sql catalogSnapshot

/-- The number of fields of each kind of line. -/
def LogCall.fieldCount : LogCall → Nat
  | .binlog _ => 3
  | .slowSql .. | .error .. | .redolog .. | .undolog .. => 4

namespace LogRecord

/-- The fields of a record. -/
def fields : LogRecord → List (List Char)
  | .slowSql timestamp micros sql =>
    ["SLOW".toList, decimal timestamp, decimal micros, (escape sql).toList]
  | .error timestamp sql message =>
    ["ERROR".toList, decimal timestamp, (escape sql).toList, (escape message).toList]
  | .binlog timestamp sql => ["BIN".toList, decimal timestamp, (escape sql).toList]
  | .redolog timestamp event sql =>
    ["REDO".toList, decimal timestamp, event.marker.toList, (escape sql).toList]
  | .undolog timestamp sql catalogSnapshot =>
    ["UNDO".toList, decimal timestamp, (escape sql).toList, (encodeString catalogSnapshot).toList]

/-- The event that is written so. -/
def readEvent (field : List Char) : Option RedoEvent :=
  [.begin, .commit, .abort].find? fun event ↦ event.marker.toList = field

/-- The record that has the fields. -/
def read : List (List Char) → Option LogRecord
  | [tag, timestamp, sql] =>
    if tag = "BIN".toList then
      (parseUnbounded timestamp).map fun timestamp ↦ .binlog timestamp (unescape sql)
    else none
  | [tag, timestamp, first, second] => do
    let timestamp ← parseUnbounded timestamp
    if tag = "SLOW".toList then
      return .slowSql timestamp (← parseUnbounded first) (unescape second)
    else if tag = "ERROR".toList then
      return .error timestamp (unescape first) (unescape second)
    else if tag = "REDO".toList then
      return .redolog timestamp (← readEvent first) (unescape second)
    else if tag = "UNDO".toList then
      return .undolog timestamp (unescape first) (← (decodeString second).toOption)
    else none
  | _ => none

/-- **A record can be read off its fields.** -/
theorem read_fields (record : LogRecord) : read record.fields = some record := by
  cases record with
  | slowSql timestamp micros sql =>
    simp [fields, read, parseUnbounded_decimal, unescape_escape]
  | error timestamp sql message => simp [fields, read, parseUnbounded_decimal, unescape_escape]
  | binlog timestamp sql => simp [fields, read, parseUnbounded_decimal, unescape_escape]
  | redolog timestamp event sql =>
    have hevent : readEvent event.marker.toList = some event := by
      cases event <;> decide
    simp [fields, read, parseUnbounded_decimal, unescape_escape, hevent]
  | undolog timestamp sql catalogSnapshot =>
    simp [fields, read, parseUnbounded_decimal, unescape_escape, decodeString_encodeString,
      Except.toOption]

theorem fields_ne_nil (record : LogRecord) : record.fields ≠ [] := by
  cases record <;> exact List.cons_ne_nil _ _

theorem isField_escape (input : String) : IsField '\t' '\n' (escape input).toList := by
  have hfresh (c : Char) (hc : escapeCode.unletter c = c) (hletter : escapeCode.letter c ≠ some c)
      (b : Char) : escapeCode.letter b ≠ some c := by
    intro hb
    obtain rfl : c = b := hc.symm.trans (escapeCode.unletter_letter hb)
    exact hletter hb
  rw [toList_escape]
  refine ⟨?_, ?_⟩
  · exact EscapeCode.not_mem_encode _ rfl (by decide) (hfresh '\t' rfl (by decide)) _
  · exact EscapeCode.not_mem_encode _ rfl (by decide) (hfresh '\n' rfl (by decide)) _

/-- **No field contains a tab or a line break.** -/
theorem isField_of_mem_fields {record : LogRecord} :
    ∀ field ∈ record.fields, IsField '\t' '\n' field := by
  have hdecimal (n : Nat) : IsField '\t' '\n' (decimal n) :=
    ⟨not_mem_decimal rfl, not_mem_decimal rfl⟩
  cases record with
  | slowSql timestamp micros sql =>
    simp only [fields, List.forall_mem_cons]
    exact ⟨by decide, hdecimal _, hdecimal _, isField_escape _, by simp⟩
  | error timestamp sql message =>
    simp only [fields, List.forall_mem_cons]
    exact ⟨by decide, hdecimal _, isField_escape _, isField_escape _, by simp⟩
  | binlog timestamp sql =>
    simp only [fields, List.forall_mem_cons]
    exact ⟨by decide, hdecimal _, isField_escape _, by simp⟩
  | redolog timestamp event sql =>
    simp only [fields, List.forall_mem_cons]
    exact ⟨by decide, hdecimal _, by cases event <;> decide, isField_escape _, by simp⟩
  | undolog timestamp sql catalogSnapshot =>
    simp only [fields, List.forall_mem_cons]
    exact ⟨by decide, hdecimal _, isField_escape _,
      ⟨not_mem_encodeString (by decide) _, not_mem_encodeString (by decide) _⟩, by simp⟩

/-- The line of a record. -/
def line (record : LogRecord) : List Char := frame '\t' '\n' record.fields

theorem count_line (record : LogRecord) : record.line.count '\n' = 1 :=
  count_frame (by decide) isField_of_mem_fields

theorem splitOn_line (record : LogRecord) : record.line.dropLast.splitOn '\t' = record.fields :=
  splitOn_dropLast_frame record.fields_ne_nil isField_of_mem_fields

end LogRecord

namespace LogCall

theorem length_fields_record (call : LogCall) (timestamp : Nat) :
    (call.record timestamp).fields.length = call.fieldCount := by
  cases call <;> rfl

/-- **What a call appends** is the line of its record. -/
theorem line_of_append {options : DatabaseOptions} {timestamp : Nat} {call : LogCall}
    {line : LogLine} (h : call.append options timestamp = some line) :
    line.line.toList = (call.record timestamp).line := by
  have hstring (s : String) : toString s = s := rfl
  have hdecimal (n : Nat) : (toString n).toList = decimal n := by
    simp [decimal]
  cases call with
  | slowSql sql elapsed =>
    rw [append, LogLine.appendSlowSql] at h
    split at h
    · cases h
    · split at h
      · cases h
      · obtain ⟨path, -, rfl⟩ := Option.map_eq_some_iff.mp h
        simp only [String.toList_append, hdecimal, hstring]
        simp [record, LogRecord.line, frame, LogRecord.fields]
  | error sql message =>
    obtain ⟨path, -, rfl⟩ := Option.map_eq_some_iff.mp h
    simp only [String.toList_append, hdecimal, hstring]
    simp [record, LogRecord.line, frame, LogRecord.fields]
  | binlog sql =>
    obtain ⟨path, -, rfl⟩ := Option.map_eq_some_iff.mp h
    simp only [String.toList_append, hdecimal, hstring]
    simp [record, LogRecord.line, frame, LogRecord.fields]
  | redolog event sql =>
    rw [append, LogLine.appendRedolog] at h
    split at h
    · cases h
    · obtain ⟨path, -, rfl⟩ := Option.map_eq_some_iff.mp h
      simp only [String.toList_append, hdecimal, hstring]
      simp [record, LogRecord.line, frame, LogRecord.fields]
  | undolog sql catalogSnapshot =>
    have hhex : hex catalogSnapshot.toByteArray.data.toList = encodeString catalogSnapshot := rfl
    obtain ⟨path, -, rfl⟩ := Option.map_eq_some_iff.mp h
    simp only [String.toList_append, hdecimal, hstring, hhex]
    simp [record, LogRecord.line, frame, LogRecord.fields]

end LogCall

/-! ## The files -/

/-- The calls, at their times, that are meant for a file. -/
def loggedIn (options : DatabaseOptions) (path : String) (calls : List (Nat × LogCall)) :
    List (Nat × LogCall) :=
  calls.filter fun p ↦ p.2.target options = some path

/-- A log file after the calls. -/
def logFile (options : DatabaseOptions) (path : String) (calls : List (Nat × LogCall)) :
    List Char :=
  ((calls.filterMap fun p ↦ p.2.append options p.1).filter (·.path = path)).flatMap (·.line.toList)

/-- What a log file says. -/
def readLog (file : List Char) : Option (List LogRecord) :=
  (unframe '\t' '\n' file).mapM LogRecord.read

theorem logFile_eq (options : DatabaseOptions) (path : String) (calls : List (Nat × LogCall)) :
    logFile options path calls =
      ((loggedIn options path calls).map fun p ↦ (p.2.record p.1).fields).flatMap
        (frame '\t' '\n') := by
  induction calls with
  | nil => rfl
  | cons p calls ih =>
    have htarget := LogCall.path_append options p.1 p.2
    rw [logFile, loggedIn] at ih ⊢
    rcases hline : p.2.append options p.1 with _ | line
    · rw [hline] at htarget
      simpa [hline, ← htarget] using ih
    · rw [hline] at htarget
      by_cases hpath : line.path = path
      · simpa [hline, ← htarget, hpath, LogCall.line_of_append hline, LogRecord.line] using ih
      · simpa [hline, ← htarget, hpath] using ih

/-- **A log file is read as what has been logged in it**, whatever the texts are. -/
theorem readLog_logFile (options : DatabaseOptions) (path : String)
    (calls : List (Nat × LogCall)) : readLog (logFile options path calls) =
      some ((loggedIn options path calls).map fun p ↦ p.2.record p.1) := by
  rw [readLog, logFile_eq, unframe_flatMap_frame (by decide) ?_]
  · generalize loggedIn options path calls = logged
    induction logged with
    | nil => rfl
    | cons p logged ih =>
      rw [List.map_cons, List.mapM_cons, ih, LogRecord.read_fields]
      rfl
  · intro fields hfields
    obtain ⟨p, -, rfl⟩ := List.mem_map.mp hfields
    exact ⟨LogRecord.fields_ne_nil _, LogRecord.isField_of_mem_fields⟩

/-- **Log records are framed and lossless.**  What is meant for a log is written to it, in one line
that can be read back, and a log file is read as the records of what was meant for it. -/
theorem logs_lossless (options : DatabaseOptions) :
    (∀ (timestamp : Nat) (call : LogCall),
      (call.append options timestamp).map (·.path) = call.target options) ∧
    (∀ (timestamp : Nat) (call : LogCall) (line : LogLine),
      call.append options timestamp = some line →
        line.line.toList.count '\n' = 1 ∧ line.line.toList.getLast? = some '\n' ∧
          (line.line.toList.dropLast.splitOn '\t').length = call.fieldCount ∧
            LogRecord.read (line.line.toList.dropLast.splitOn '\t') =
              some (call.record timestamp)) ∧
    (∀ input : String, unescape (escape input).toList = input) ∧
    (∀ bytes : List UInt8, unhex (hex bytes).toList = some bytes) ∧
    ∀ (path : String) (calls : List (Nat × LogCall)), readLog (logFile options path calls) =
      some ((loggedIn options path calls).map fun p ↦ p.2.record p.1) := by
  refine ⟨LogCall.path_append options, fun timestamp call line h ↦ ?_, unescape_escape, unhex_hex,
    readLog_logFile options⟩
  rw [LogCall.line_of_append h, LogRecord.splitOn_line, LogRecord.read_fields]
  exact ⟨LogRecord.count_line _, getLast?_frame _, call.length_fields_record timestamp, rfl⟩

/-- A text with a tab and a line break, in the binlog. -/
theorem logs_lossless_binlog : ∃ line,
    LogCall.append { binlogPath := some "bin" } 7 (.binlog "a\tb\n") = some line ∧
      line.line = "BIN\t7\ta\\tb\\n\n" ∧ line.line.toList.count '\n' = 1 :=
  ⟨_, rfl, by decide,
    ((logs_lossless { binlogPath := some "bin" }).2.1 7 (.binlog "a\tb\n") _ rfl).1⟩

end Fsql
