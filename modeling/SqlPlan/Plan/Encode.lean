import SqlPlan.Json.Shape
import SqlPlan.Plan.Command

/-!
# Plans as JSON

The JSON form in which a plan is handed to an evaluator of another process.  A record is an object
of all its fields in their declared order, with null for an absent optional value; a variant is its
name, or an object from its name to its payload.
-/

namespace SqlPlan.Plan

open Json (variant ofOption)

/-! ### Scalars -/

namespace Scalar

mutual

/-- The JSON form of a scalar. -/
def toJson : Scalar → Json
  | literal text => variant "Literal" (.str text)
  | numeric value => variant "Numeric" (.int value.toInt)
  | boolean value => variant "ConstantBoolean" (.bool value)
  | unary op value => variant "Unary" (.obj [("op", .str op.name), ("value", value.toJson)])
  | binary left op right => variant "Binary"
      (.obj [("left", left.toJson), ("op", .str op.name), ("right", right.toJson)])
  | call name distinct args => variant "Function"
      (.obj [("name", .str name), ("distinct", .bool distinct), ("args", .arr (toJsonAll args))])
  | equality left right invert => variant "Equality"
      (.obj [("left", left.toJson), ("right", right.toJson), ("invert", .bool invert)])
  | range needle lo hi invert => variant "Range"
      (.obj [("needle", needle.toJson), ("lo", lo.toJson), ("hi", hi.toJson),
        ("invert", .bool invert)])

/-- The JSON forms of some scalars. -/
def toJsonAll : List Scalar → List Json
  | [] => []
  | s :: ss => s.toJson :: toJsonAll ss

end

end Scalar

/-- The JSON form of a column. -/
def Column.toJson (c : Column) : Json :=
  .obj [("table", ofOption .str c.table), ("column", c.value.toJson),
    ("alias", ofOption .str c.label)]

/-! ### Tables -/

/-- The JSON form of a table by name. -/
def SimpleTable.toJson (t : SimpleTable) : Json :=
  .obj [("schema", ofOption .str t.schema), ("table", .str t.name), ("alias", ofOption .str t.label),
    ("indexed", .bool t.indexed), ("index", ofOption .str t.index)]

/-- The JSON form of a table. -/
def Table.toJson : Table → Json
  | simple table => variant "Simple" table.toJson

/-! ### Rows -/

/-- The JSON form of a kind of join. -/
def JoinKind.toJson (k : JoinKind) : Json := .str k.name

namespace Rows

mutual

/-- The JSON form of a row source. -/
def toJson : Rows → Json
  | scan table => variant "Scan" (.obj [("table", table.toJson)])
  | select filter input => variant "Select"
      (.obj [("filter", ofOption Scalar.toJson filter), ("input", input.toJson)])
  | project cols input => variant "Project"
      (.obj [("cols", .arr (cols.map Column.toJson)), ("input", input.toJson)])
  | join spec left right => variant "Join"
      (.obj [("kind", spec.kind.toJson), ("natural", .bool spec.natural),
        ("filter", ofOption Scalar.toJson spec.filter), ("left", toJsonOperand left),
        ("right", toJsonOperand right)])
  | limit count input => variant "Limit" (.obj [("limit", count.toJson), ("input", input.toJson)])
  | offset count input => variant "Offset"
      (.obj [("offset", count.toJson), ("input", input.toJson)])
  | distinct input => variant "Distinct" (.obj [("input", input.toJson)])
  | values rows => variant "Values"
      (.obj [("rows", .arr (rows.map fun row => .arr (Scalar.toJsonAll row)))])

/-- The JSON form of a join operand. -/
def toJsonOperand : Option Rows → Json
  | some rows => rows.toJson
  | none => .null

end

end Rows

/-! ### Commands -/

/-- The JSON form of an assignment. -/
def Setter.toJson (s : Setter) : Json :=
  .obj [("cols", .arr (s.cols.map .str)), ("value", s.value.toJson)]

/-- The JSON form of an object to drop. -/
def DropTarget.toJson (t : DropTarget) : Json :=
  .obj [("if_exists", .bool t.ifExists), ("schema", ofOption .str t.schema), ("name", .str t.name)]

/-- The JSON form of an insertion. -/
def Insert.toJson (w : Insert) : Json :=
  .obj [("insert_or", .str w.onConflict.name), ("table", w.table.toJson),
    ("cols", .arr (w.cols.map .str)), ("input", ofOption Rows.toJson w.input)]

/-- The JSON form of an update. -/
def Update.toJson (w : Update) : Json :=
  .obj [("update_or", .str w.onConflict.name), ("table", w.table.toJson),
    ("updates", .arr (w.setters.map Setter.toJson)), ("filter", w.filter.toJson)]

/-- The JSON form of a deletion. -/
def Delete.toJson (w : Delete) : Json :=
  .obj [("table", w.table.toJson), ("filter", w.filter.toJson)]

/-- The JSON form of a command. -/
def Command.toJson : Command → Json
  | explain inner => variant "Explain" inner.toJson
  | query rows => variant "List" rows.toJson
  | insert write => variant "Insert" write.toJson
  | update write => variant "Update" write.toJson
  | delete write => variant "Delete" write.toJson
  | drop kind target => variant kind.dropName target.toJson

end SqlPlan.Plan
