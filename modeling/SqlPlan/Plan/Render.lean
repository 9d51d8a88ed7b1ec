import SqlPlan.Plan.Command
import SqlPlan.Text

/-!
# The canonical text of a plan

Every part of a plan has one rendering, which depends on the part alone.  An operator is written as
its name, its own settings in brackets and its inputs in parentheses:

  `Limit[limit=5](Project[cols=*](Select[filter=a==1](Scan[table=t]())))`

Not everything shows.  A join shows its filter but neither its kind nor whether it is natural, and a
range test shows its bounds but not its needle.  A missing join operand is written `<absent>`.
-/

namespace SqlPlan.Plan

open Text

/-! ### Scalars -/

namespace Scalar

mutual

/-- The text of a scalar. -/
def render : Scalar → String
  | literal text => text
  | numeric value => value.toInt.repr
  | boolean value => truth value
  | unary op value => op.symbol ++ " " ++ value.render
  | binary left op right => left.render ++ " " ++ op.symbol ++ " " ++ right.render
  | call name distinct args =>
    name ++ parenthesized ((if distinct then "DISTINCT " else "") ++
      commaSeparated (renderAll args))
  | equality left right invert => left.render ++ (if invert then "!=" else "==") ++ right.render
  | range _ lo hi invert =>
    (if invert then "!" else "") ++ "[" ++ lo.render ++ ";" ++ hi.render ++ "]"

/-- The texts of some scalars. -/
def renderAll : List Scalar → List String
  | [] => []
  | s :: ss => s.render :: renderAll ss

end

end Scalar

/-- The text of a column. -/
def Column.render (c : Column) : String := labelled (dotted c.table c.value.render) c.label

/-! ### Tables -/

/-- The text of a table, with what the statement says about its indices. -/
def SimpleTable.render (t : SimpleTable) : String :=
  labelled (dotted t.schema t.name) t.label ++
    (if t.indexed then "" else " NOT INDEXED") ++
    (match t.index with
      | some index => " INDEXED BY " ++ index
      | none => "")

/-- The text of a table. -/
def Table.render : Table → String
  | simple table => table.render

/-! ### Rows -/

namespace Rows

/-- The settings of an operator that has a filter or none. -/
def filterSetting : Option Scalar → String
  | some filter => "[filter=" ++ filter.render ++ "]"
  | none => "[]"

/-- The text of a row of values. -/
def renderRow (row : List Scalar) : String :=
  parenthesized (commaSeparated (Scalar.renderAll row))

mutual

/-- The text of a row source. -/
def render : Rows → String
  | scan table => "Scan[table=" ++ table.render ++ "]()"
  | select filter input => "Select" ++ filterSetting filter ++ parenthesized input.render
  | project cols input =>
    "Project[cols=" ++ commaSeparated (cols.map Column.render) ++ "]" ++
      parenthesized input.render
  | join spec left right =>
    "Join" ++ filterSetting spec.filter ++
      parenthesized (renderOperand left ++ "," ++ renderOperand right)
  | limit count input => "Limit[limit=" ++ count.render ++ "]" ++ parenthesized input.render
  | offset count input => "Offset[offset=" ++ count.render ++ "]" ++ parenthesized input.render
  | distinct input => "Distinct" ++ parenthesized input.render
  | values rows => "Values[values=" ++ commaSeparated (rows.map renderRow) ++ "]()"

/-- The text of a join operand. -/
def renderOperand : Option Rows → String
  | some rows => rows.render
  | none => "<absent>"

end

end Rows

/-! ### Commands -/

/-- The text of an assignment; one column stands without parentheses. -/
def Setter.render (s : Setter) : String :=
  (match s.cols with
    | [col] => col
    | cols => parenthesized (commaSeparated cols)) ++ "=" ++ s.value.render

/-- The text of an object to drop. -/
def DropTarget.render (t : DropTarget) : String :=
  "[name=" ++ dotted t.schema t.name ++ ",ifexists=" ++ truth t.ifExists ++ "]"

/-- The text of an insertion. -/
def Insert.render (w : Insert) : String :=
  "Insert[table=" ++ w.table.render ++ ",cols=" ++ commaSeparated w.cols ++ ",or=" ++
    w.onConflict.symbol ++ "]" ++
    parenthesized (match w.input with
      | some rows => rows.render
      | none => "DEFAULT VALUES")

/-- The text of an update. -/
def Update.render (w : Update) : String :=
  "Update[table=" ++ w.table.render ++ ",updates=" ++ ";".intercalate (w.setters.map Setter.render) ++
    ",filter=" ++ w.filter.render ++ ",or=" ++ w.onConflict.symbol ++ "]"

/-- The text of a deletion. -/
def Delete.render (w : Delete) : String :=
  "Delete[table=" ++ w.table.render ++ ",filter=" ++ w.filter.render ++ "]"

/-- The text of a command. -/
def Command.render : Command → String
  | explain inner => "explanation: " ++ inner.render
  | query rows => rows.render
  | insert write => write.render
  | update write => write.render
  | delete write => write.render
  | drop kind target => kind.dropName ++ target.render

end SqlPlan.Plan
