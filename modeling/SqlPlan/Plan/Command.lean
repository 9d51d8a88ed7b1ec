import SqlPlan.Plan.Rows

/-!
# Commands

The root of a plan: what an evaluator is asked to do.
-/

namespace SqlPlan.Plan

/-- Rows to put into a table. -/
structure Insert where
  onConflict : ConflictAction := .abort
  table : Table
  cols : List String
  /-- The rows; without them one row of default values is put in. -/
  input : Option Rows
deriving DecidableEq

/-- The assignment of one value to one or more columns. -/
structure Setter where
  cols : List String
  value : Scalar
deriving DecidableEq

/-- Assignments to the rows of a table that pass a filter. -/
structure Update where
  onConflict : ConflictAction := .abort
  table : Table
  setters : List Setter
  filter : Scalar
deriving DecidableEq

/-- The removal of the rows of a table that pass a filter. -/
structure Delete where
  table : Table
  filter : Scalar
deriving DecidableEq

/-- A schema object to drop, which need not exist if `ifExists`. -/
structure DropTarget where
  ifExists : Bool
  schema : Option String
  name : String
deriving DecidableEq

/-- A command. -/
inductive Command where
  /-- Describe the command instead of running it. -/
  | explain (inner : Command)
  /-- Produce rows. -/
  | query (rows : Rows)
  | insert (write : Insert)
  | update (write : Update)
  | delete (write : Delete)
  | drop (kind : ObjectKind) (target : DropTarget)
deriving DecidableEq

end SqlPlan.Plan
