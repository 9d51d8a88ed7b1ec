/-!
# Table references

The tables that a plan reads and writes, by name.
-/

namespace SqlPlan.Plan

/-- A stored table by name, with the index that a scan of it is told to use or not to use. -/
structure SimpleTable where
  schema : Option String := none
  name : String
  label : Option String := none
  /-- False if the statement forbids indices. -/
  indexed : Bool := true
  /-- The one index that the statement demands. -/
  index : Option String := none
deriving DecidableEq

/-- A table.  Every table is a simple one so far. -/
inductive Table where
  | simple (table : SimpleTable)
deriving DecidableEq

end SqlPlan.Plan
