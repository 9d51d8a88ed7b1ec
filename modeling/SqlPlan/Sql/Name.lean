import SqlPlan.Text

/-!
# Names in a statement

The names by which a statement speaks of columns, tables and other objects.
-/

namespace SqlPlan.Sql

/-- The name of a schema object. -/
structure QualifiedName where
  schema : Option String := none
  name : String
deriving DecidableEq

/-- A reference to a column. -/
structure ColumnRef where
  schema : Option String := none
  table : Option String := none
  column : String
deriving DecidableEq

/-- The reference as it is written, with dots between its parts. -/
def ColumnRef.text (c : ColumnRef) : String :=
  Text.dotted c.schema (Text.dotted c.table c.column)

/-- What a statement says about the indices of a table. -/
inductive IndexHint where
  | indexedBy (index : String)
  | notIndexed
deriving DecidableEq

/-- A table by name, as it stands in a `FROM`, an `UPDATE` or a `DELETE`. -/
structure TableName where
  schema : Option String := none
  name : String
  label : Option String := none
  hint : Option IndexHint := none
deriving DecidableEq

end SqlPlan.Sql
