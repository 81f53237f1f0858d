import Fsql.Library.BTree
import Fsql.Library.DerivedIndex
import Fsql.Library.LockTable
import Fsql.Library.Machine
import Fsql.Library.Simulation
import Fsql.Library.Number
import Fsql.Library.Text
import Fsql.Library.Numeral
import Fsql.Library.Layers
import Fsql.Library.Framing
import Fsql.Library.Scanner
import Fsql.Library.Occurrence
import Fsql.Library.Doubling
import Fsql.Library.Words
import Fsql.Library.Utf8
import Fsql.Library.Replace
import Fsql.Value
import Fsql.Identifier
import Fsql.Logging
import Fsql.Platform
import Fsql.Sql.Ast
import Fsql.Storage.Codec
import Fsql.Storage.Table
import Fsql.Storage.Rebuild
import Fsql.Storage.Coherent
import Fsql.Storage.Matching
import Fsql.Sql.Parser
import Fsql.Sql.Literal
import Fsql.Sql.Forms
import Fsql.Sql.Splitting
import Fsql.Sql.ByteParser
import Fsql.Sql.ByteStatements
import Fsql.Sql.Panics
import Fsql.Sql.Clauses
import Fsql.Sql.Names
import Fsql.Sql.RowStatements
import Fsql.Sql.Canonical
import Fsql.Sql.Enclosed
import Fsql.Sql.EnclosedRows
import Fsql.Sql.EnclosedValues
import Fsql.Sql.Quoted
import Fsql.Storage.Catalog
import Fsql.Storage.Decode
import Fsql.Storage.ValueFormat
import Fsql.LogRecords
import Fsql.Storage.File
import Fsql.Engine
import Fsql.Storage.Typed
import Fsql.EngineInvariant
import Fsql.EngineAtomic
import Fsql.Resolution
import Fsql.IndexLookup
import Fsql.Storage.Fulltext
import Fsql.Storage.Relation
import Fsql.Storage.Refinement
import Fsql.Storage.VectorOrder
import Fsql.Storage.RoundTrip
import Fsql.EngineRoundTrip
import Fsql.Storage.Accepted
import Fsql.Storage.RowIds
import Fsql.Durable
import Fsql.Recovery
import Fsql.FailedCalls
import Fsql.StatementCache
import Fsql.Replay
import Fsql.FulltextLookup
import Fsql.Relational
import Fsql.Restart
import Fsql.EngineFrame
import Fsql.Pool
import Fsql.Pool.Merge
import Fsql.Pool.LockKeys
import Fsql.Pool.Locking
import Fsql.Pool.Effect
import Fsql.Pool.Invariant
import Fsql.Pool.Counters
import Fsql.Pool.Admission
import Fsql.Pool.Uncommitted
import Fsql.Pool.History
import Fsql.Pool.Inserted
import Fsql.Pool.RowLocks
import Fsql.Pool.ReadOnly
import Fsql.Pool.Permits
import Fsql.Pool.InsertKeys
import Fsql.Pool.Binlog
import Fsql.Pool.Fulltext
import Fsql.Pool.RelationalPool
import Fsql.Pool.Staging
import Fsql.Pool.Sessions
import Fsql.Pool.Snapshot
import Fsql.Pool.Solo
