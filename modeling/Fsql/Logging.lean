import Fsql.Value

/-!
# Runtime options

The configuration half of `logging.rs`: the options a database is opened with and the checks they
must pass, and the outcomes of the log writes of one statement, which the environment decides.
-/

set_option autoImplicit false

namespace Fsql

/-- `WalMode`. -/
inductive WalMode
  | disabled
  | redoLog
deriving DecidableEq, Repr

/-- `FsyncMode`. -/
inductive FsyncMode
  | always
  | dataOnly
  | never
deriving DecidableEq, Repr

/-- `SqlDialect`. -/
inductive SqlDialect
  | fsql
  | sqlite
  | postgreSql
deriving DecidableEq, Repr

/-- `FullTextTokenizer`. -/
inductive FullTextTokenizer
  | simple
  | whitespace
  | exact
deriving DecidableEq, Repr

/-- `VectorMetric`. -/
inductive VectorMetric
  | euclidean
  | cosine
  | dotProduct
deriving DecidableEq, Repr

/-- `VectorIndexOptions`. -/
structure VectorIndexOptions where
  /-- How the distance of two vectors is computed. -/
  metric : VectorMetric := .euclidean
  /-- The number of components every stored vector must have, when fixed. -/
  dimensions : Option Nat := none
  /-- A search parameter. -/
  efSearch : Nat := 128
  /-- A construction parameter. -/
  m : Nat := 16
deriving DecidableEq, Repr

/-- `GeoCoordinateSystem`. -/
inductive GeoCoordinateSystem
  | wgs84
  | cartesian
deriving DecidableEq, Repr

/-- `DatabaseOptions`.  A path is its text, a duration a number of nanoseconds. -/
structure DatabaseOptions where
  /-- The chunk size of the persistence path. -/
  pageSize : Nat := 4096
  /-- The number of parsed statements kept. -/
  cacheCapacity : Nat := 128
  /-- Whether redo records are written. -/
  walMode : WalMode := .disabled
  /-- How files are synchronised. -/
  fsyncMode : FsyncMode := .always
  /-- The number of threads that score vectors. -/
  workerThreads : Nat := 1
  /-- The dialect of the parser. -/
  sqlDialect : SqlDialect := .fsql
  /-- The tokenizer of full-text indexes and queries. -/
  fulltextTokenizer : FullTextTokenizer := .simple
  /-- The vector settings. -/
  vectorIndex : VectorIndexOptions := {}
  /-- How geographic distances are computed. -/
  geoCoordinateSystem : GeoCoordinateSystem := .wgs84
  /-- The duration from which a statement is slow. -/
  slowSqlThreshold : Option Nat := none
  /-- The slow-statement log. -/
  slowSqlLogPath : Option String := none
  /-- The error log. -/
  errorLogPath : Option String := none
  /-- The binlog. -/
  binlogPath : Option String := none
  /-- The redo log. -/
  redologPath : Option String := none
  /-- The undo log. -/
  undologPath : Option String := none
deriving DecidableEq, Repr

/-- `usize::is_power_of_two`. -/
def isPowerOfTwo (n : Nat) : Bool := n != 0 && n == 2 ^ n.log2

/-- `DatabaseOptions::validate`. -/
def DatabaseOptions.validate (options : DatabaseOptions) : Result Unit :=
  if !isPowerOfTwo options.pageSize || !(512 ≤ options.pageSize && options.pageSize ≤ 65536) then
    .error (.execution "page size must be a power of two between 512 and 65536")
  else if options.workerThreads = 0 then
    .error (.execution "worker thread count must be greater than zero")
  else if options.vectorIndex.dimensions = some 0 then
    .error (.execution "vector dimensions must be greater than zero")
  else if options.vectorIndex.efSearch = 0 then
    .error (.execution "vector ef_search must be greater than zero")
  else if options.vectorIndex.m = 0 then
    .error (.execution "vector m must be greater than zero")
  else .ok ()

/-- What becomes of the log records one statement writes: each append succeeds or fails with an
error of the file system. -/
structure LogOutcome where
  /-- The undo record, before the statement. -/
  undo : Option Error := none
  /-- The redo record that opens the statement. -/
  redoBegin : Option Error := none
  /-- The binlog record, after success. -/
  binlog : Option Error := none
  /-- The redo record that closes the statement, after success. -/
  redoCommit : Option Error := none
deriving DecidableEq, Repr

/-- `append_optional_line`: nothing can go wrong without a path. -/
def appendOptionalLine (path : Option String) (outcome : Option Error) : Result Unit :=
  match path, outcome with
  | some _, some error => .error error
  | _, _ => .ok ()

/-- `append_binlog`. -/
def appendBinlog (options : DatabaseOptions) (outcome : Option Error) : Result Unit :=
  appendOptionalLine options.binlogPath outcome

/-- `append_redolog`. -/
def appendRedolog (options : DatabaseOptions) (outcome : Option Error) : Result Unit :=
  if options.walMode = .disabled then .ok () else appendOptionalLine options.redologPath outcome

/-- `append_undolog`. -/
def appendUndolog (options : DatabaseOptions) (outcome : Option Error) : Result Unit :=
  appendOptionalLine options.undologPath outcome

end Fsql
