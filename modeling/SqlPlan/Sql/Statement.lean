import SqlPlan.Sql.Query

/-!
# Statements

The parsed form of an SQL statement: a query or a write, a change of the schema, or one of the
statements that run outside of any plan.
-/

namespace SqlPlan.Sql

/-! ### Writes -/

/-- What an `OR` clause says about rows that violate a constraint. -/
inductive ConflictResolution where
  | replace
  | rollback
  | abort
  | fail
  | ignore
deriving DecidableEq

/-- The assignment of one value to one or more columns. -/
structure Assignment where
  columns : List String
  value : Expr

/-- Where the rows of an insertion come from. -/
inductive InsertSource where
  | values (rows : List (List Expr))
  | query (select : Select)
  /-- `DEFAULT VALUES` -/
  | defaults

/-- The `ON CONFLICT` clause of an insertion, which does nothing or updates. -/
structure Upsert where
  target : List String
  doUpdate : Option (List Assignment) := none

/-- An `INSERT` statement. -/
structure Insert where
  ctes : Option With := none
  onConflict : Option ConflictResolution := none
  table : QualifiedName
  label : Option String := none
  columns : List String := []
  source : InsertSource
  upsert : Option Upsert := none

/-- An `UPDATE` statement. -/
structure Update where
  ctes : Option With := none
  onConflict : Option ConflictResolution := none
  table : TableName
  assignments : List Assignment
  filter : Option Expr := none

/-- A `DELETE` statement. -/
structure Delete where
  ctes : Option With := none
  table : TableName
  filter : Option Expr := none

/-! ### Schema and session -/

/-- A kind of object that a `DROP` statement removes. -/
inductive DropKind where
  | table
  | index
  | trigger
  | view
deriving DecidableEq

/-- A `DROP` statement. -/
structure Drop where
  kind : DropKind
  ifExists : Bool := false
  name : QualifiedName
deriving DecidableEq

/-- A kind of object that a `CREATE` statement makes. -/
inductive CreateKind where
  | table
  | virtualTable
  | index
  | trigger
  | view
deriving DecidableEq

/-- A `CREATE` statement. -/
structure Create where
  kind : CreateKind
  ifNotExists : Bool := false
  name : QualifiedName
deriving DecidableEq

/-- A statement about transactions. -/
inductive Transaction where
  | begin
  | commit
  | rollback
  | savepoint (name : String)
  | release (name : String)
deriving DecidableEq

/-! ### Statements -/

/-- What a statement does. -/
inductive StatementKind where
  | select (query : Select)
  | insert (write : Insert)
  | update (write : Update)
  | delete (write : Delete)
  | drop (change : Drop)
  | create (change : Create)
  | alterTable (name : QualifiedName)
  | transaction (step : Transaction)
  | vacuum (schema : Option String)
  | analyze (target : Option QualifiedName)
  | pragma (name : QualifiedName)

/-- The `EXPLAIN` in front of a statement, possibly `EXPLAIN QUERY PLAN`. -/
structure Explain where
  queryPlan : Bool := false
deriving DecidableEq

/-- A statement. -/
structure Statement where
  explain : Option Explain := none
  kind : StatementKind

namespace Statement

/-- A statement that is not to be explained. -/
def ofKind (kind : StatementKind) : Statement := { kind := kind }

/-- The statement with a plain `EXPLAIN` in front. -/
def explained (s : Statement) : Statement := { s with explain := some {} }

end Statement

end SqlPlan.Sql
