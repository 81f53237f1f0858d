import Fsql.Value

/-!
# The abstract syntax of SQL

`sql/ast.rs`: what the parser produces and the engine executes.
-/

set_option autoImplicit false

namespace Fsql

/-- The type of a column. -/
inductive ColumnType
  | integer
  | float
  | boolean
  | text
  | vector
  | point
deriving DecidableEq, Repr

/-- `ColumnType::as_str`. -/
def ColumnType.asStr : ColumnType → String
  | integer => "integer"
  | float => "float"
  | boolean => "boolean"
  | text => "text"
  | vector => "vector"
  | point => "point"

/-- A column of a table. -/
structure Column where
  /-- The stored name. -/
  name : String
  /-- The type of its values. -/
  ty : ColumnType
  /-- It is declared the primary key. -/
  primaryKey : Bool
deriving DecidableEq, Repr

/-- The columns a `SELECT` returns. -/
inductive Projection
  | all
  | columns (columns : List String)
deriving DecidableEq, Repr

/-- A `WHERE` clause. -/
inductive Filter
  | equals (column : String) (value : Value)
  | fullText (column : String) (query : String)
  | geoWithin (column : String) (point : Point) (meters : F64) (inclusive : Bool)
deriving DecidableEq, Repr

/-- An `ORDER BY` clause. -/
inductive Order
  | vectorDistance (column : String) (target : List F32) (descending : Bool)
deriving DecidableEq, Repr

/-- The statement families that are parsed and not executed. -/
inductive ParsedOnlyStatementKind
  | alterTable
  | analyze
  | attach
  | createIndex
  | createTable
  | createTrigger
  | createView
  | createVirtualTable
  | delete
  | detach
  | dropIndex
  | dropTable
  | dropTrigger
  | dropView
  | insert
  | pragma
  | reindex
  | release
  | replace
  | rollbackTo
  | savepoint
  | select
  | update
  | vacuum
  | values
  | withClause
deriving DecidableEq, Repr

/-- `ParsedOnlyStatementKind::as_str`. -/
def ParsedOnlyStatementKind.asStr : ParsedOnlyStatementKind → String
  | alterTable => "ALTER TABLE"
  | analyze => "ANALYZE"
  | attach => "ATTACH"
  | createIndex => "CREATE INDEX"
  | createTable => "CREATE TABLE"
  | createTrigger => "CREATE TRIGGER"
  | createView => "CREATE VIEW"
  | createVirtualTable => "CREATE VIRTUAL TABLE"
  | delete => "DELETE"
  | detach => "DETACH"
  | dropIndex => "DROP INDEX"
  | dropTable => "DROP TABLE"
  | dropTrigger => "DROP TRIGGER"
  | dropView => "DROP VIEW"
  | insert => "INSERT"
  | pragma => "PRAGMA"
  | reindex => "REINDEX"
  | release => "RELEASE"
  | replace => "REPLACE"
  | rollbackTo => "ROLLBACK TO"
  | savepoint => "SAVEPOINT"
  | select => "SELECT"
  | update => "UPDATE"
  | vacuum => "VACUUM"
  | values => "VALUES"
  | withClause => "WITH"

/-- A parsed statement. -/
inductive Statement
  | begin
  | commit
  | rollback
  | explain (statement : Statement)
  | parsedOnly (kind : ParsedOnlyStatementKind) (sql : String)
  | createTable (name : String) (columns : List Column)
  | createIndex (name : String) (table : String) (column : String) (fulltext : Bool)
  | insert (table : String) (columns : Option (List String)) (values : List Value)
  | select (table : String) (projection : Projection) (filter : Option Filter)
      (order : Option Order) (limit : Option Nat)
  | update (table : String) (assignments : List (String × Value)) (filter : Option Filter)
  | delete (table : String) (filter : Option Filter)
deriving DecidableEq, Repr

/-- `Statement::mutates_catalog`. -/
def Statement.mutatesCatalog : Statement → Bool
  | createTable .. | createIndex .. | insert .. | update .. | delete .. => true
  | _ => false

/-- `is_ddl_statement`: the statements that change the schema. -/
def Statement.isDdl : Statement → Bool
  | createTable .. | createIndex .. => true
  | _ => false

/-- The statements that change rows. -/
def Statement.isDml : Statement → Bool
  | insert .. | update .. | delete .. => true
  | _ => false

/-- The statements that end or open a transaction. -/
def Statement.isTransactionControl : Statement → Bool
  | begin | commit | rollback => true
  | _ => false

end Fsql
