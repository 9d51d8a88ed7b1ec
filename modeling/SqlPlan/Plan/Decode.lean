import SqlPlan.Json.Shape
import SqlPlan.Plan.Command

/-!
# Plans from JSON

The readers of the JSON form of plans, one for each type.  What a reader accepts is wider than what
is written: records may come as objects in any order or as arrays, optional fields may be missing,
and keys that no record declares are skipped.  There is no coercion between strings, numbers, truth
values and null.

A reader calls itself on parts of the tree alone, so the size of the tree bounds it.
-/

namespace SqlPlan.Plan

open Json (optional)

/-! ### Words -/

/-- A unary operator by its name. -/
def unaryOp? (j : Json) : Option UnaryOp := j.unit? UnaryOp.all UnaryOp.name

/-- A binary operator by its name. -/
def binaryOp? (j : Json) : Option BinaryOp := j.unit? BinaryOp.all BinaryOp.name

/-- A conflict action by its name. -/
def conflictAction? (j : Json) : Option ConflictAction :=
  j.unit? ConflictAction.all ConflictAction.name

/-- A kind of join by its name. -/
def joinKind? (j : Json) : Option JoinKind := j.unit? JoinKind.all JoinKind.name

/-- A list of strings. -/
def strings? (j : Json) : Option (List String) := j.listOf? fun p => p.1.str?

/-- An optional string. -/
def string? (field : Option (Json.Part j)) : Option (Option String) :=
  optional (fun p => p.1.str?) field

/-! ### Scalars -/

/-- The scalar that a tree is the JSON form of. -/
def Scalar.ofJson? (j : Json) : Option Scalar :=
  match j.variant? with
  | some ("Literal", some ⟨p, _⟩) => p.str?.map .literal
  | some ("Numeric", some ⟨p, _⟩) => p.int64?.map .numeric
  | some ("ConstantBoolean", some ⟨p, _⟩) => p.bool?.map .boolean
  | some ("Unary", some ⟨p, _⟩) =>
    match p.record? ["op", "value"] with
    | some [some ⟨op, _⟩, some ⟨value, _⟩] => do
      return .unary (← unaryOp? op) (← ofJson? value)
    | _ => none
  | some ("Binary", some ⟨p, _⟩) =>
    match p.record? ["left", "op", "right"] with
    | some [some ⟨left, _⟩, some ⟨op, _⟩, some ⟨right, _⟩] => do
      return .binary (← ofJson? left) (← binaryOp? op) (← ofJson? right)
    | _ => none
  | some ("Function", some ⟨p, _⟩) =>
    match p.record? ["name", "distinct", "args"] with
    | some [some ⟨name, _⟩, some ⟨distinct, _⟩, some ⟨args, _⟩] => do
      return .call (← name.str?) (← distinct.bool?) (← args.listOf? fun ⟨arg, _⟩ => ofJson? arg)
    | _ => none
  | some ("Equality", some ⟨p, _⟩) =>
    match p.record? ["left", "right", "invert"] with
    | some [some ⟨left, _⟩, some ⟨right, _⟩, some ⟨invert, _⟩] => do
      return .equality (← ofJson? left) (← ofJson? right) (← invert.bool?)
    | _ => none
  | some ("Range", some ⟨p, _⟩) =>
    match p.record? ["needle", "lo", "hi", "invert"] with
    | some [some ⟨needle, _⟩, some ⟨lo, _⟩, some ⟨hi, _⟩, some ⟨invert, _⟩] => do
      return .range (← ofJson? needle) (← ofJson? lo) (← ofJson? hi) (← invert.bool?)
    | _ => none
  | _ => none
termination_by sizeOf j
decreasing_by all_goals omega

/-- The column that a tree is the JSON form of. -/
def Column.ofJson? (j : Json) : Option Column :=
  match j.record? ["table", "column", "alias"] with
  | some [table, some ⟨column, _⟩, label] => do
    return ⟨← string? table, ← Scalar.ofJson? column, ← string? label⟩
  | _ => none

/-! ### Tables -/

/-- The table by name that a tree is the JSON form of. -/
def SimpleTable.ofJson? (j : Json) : Option SimpleTable :=
  match j.record? ["schema", "table", "alias", "indexed", "index"] with
  | some [schema, some ⟨table, _⟩, label, some ⟨indexed, _⟩, index] => do
    return ⟨← string? schema, ← table.str?, ← string? label, ← indexed.bool?, ← string? index⟩
  | _ => none

/-- The table that a tree is the JSON form of. -/
def Table.ofJson? (j : Json) : Option Table :=
  match j.variant? with
  | some ("Simple", some ⟨p, _⟩) => (SimpleTable.ofJson? p).map .simple
  | _ => none

/-! ### Rows -/

/-- A row of values. -/
def row? (j : Json) : Option (List Scalar) := j.listOf? fun p => Scalar.ofJson? p.1

namespace Rows

/-- The names of a join's fields. -/
def joinFields : List String := ["kind", "natural", "filter", "left", "right"]

/-- The row source that a tree is the JSON form of. -/
def ofJson? (j : Json) : Option Rows :=
  match j.variant? with
  | some ("Scan", some ⟨p, _⟩) =>
    match p.record? ["table"] with
    | some [some ⟨table, _⟩] => (Table.ofJson? table).map .scan
    | _ => none
  | some ("Select", some ⟨p, _⟩) =>
    match p.record? ["filter", "input"] with
    | some [filter, some ⟨input, _⟩] => do
      return .select (← optional (fun q => Scalar.ofJson? q.1) filter) (← ofJson? input)
    | _ => none
  | some ("Project", some ⟨p, _⟩) =>
    match p.record? ["cols", "input"] with
    | some [some ⟨cols, _⟩, some ⟨input, _⟩] => do
      return .project (← cols.listOf? fun q => Column.ofJson? q.1) (← ofJson? input)
    | _ => none
  | some ("Join", some ⟨p, _⟩) =>
    match p.record? joinFields with
    | some [some ⟨kind, _⟩, some ⟨natural, _⟩, filter, left, right] => do
      let spec : JoinSpec := ⟨← joinKind? kind, ← natural.bool?,
        ← optional (fun q => Scalar.ofJson? q.1) filter⟩
      return .join spec (← optional (fun ⟨q, _⟩ => ofJson? q) left)
        (← optional (fun ⟨q, _⟩ => ofJson? q) right)
    | _ => none
  | some ("Limit", some ⟨p, _⟩) =>
    match p.record? ["limit", "input"] with
    | some [some ⟨count, _⟩, some ⟨input, _⟩] => do
      return .limit (← Scalar.ofJson? count) (← ofJson? input)
    | _ => none
  | some ("Offset", some ⟨p, _⟩) =>
    match p.record? ["offset", "input"] with
    | some [some ⟨count, _⟩, some ⟨input, _⟩] => do
      return .offset (← Scalar.ofJson? count) (← ofJson? input)
    | _ => none
  | some ("Distinct", some ⟨p, _⟩) =>
    match p.record? ["input"] with
    | some [some ⟨input, _⟩] => (ofJson? input).map .distinct
    | _ => none
  | some ("Values", some ⟨p, _⟩) =>
    match p.record? ["rows"] with
    | some [some ⟨rows, _⟩] => (rows.listOf? fun q => row? q.1).map .values
    | _ => none
  | _ => none
termination_by sizeOf j
decreasing_by all_goals omega

end Rows

/-! ### Commands -/

/-- The assignment that a tree is the JSON form of. -/
def Setter.ofJson? (j : Json) : Option Setter :=
  match j.record? ["cols", "value"] with
  | some [some ⟨cols, _⟩, some ⟨value, _⟩] => do return ⟨← strings? cols, ← Scalar.ofJson? value⟩
  | _ => none

/-- The object to drop that a tree is the JSON form of. -/
def DropTarget.ofJson? (j : Json) : Option DropTarget :=
  match j.record? ["if_exists", "schema", "name"] with
  | some [some ⟨ifExists, _⟩, schema, some ⟨name, _⟩] => do
    return ⟨← ifExists.bool?, ← string? schema, ← name.str?⟩
  | _ => none

/-- The insertion that a tree is the JSON form of. -/
def Insert.ofJson? (j : Json) : Option Insert :=
  match j.record? ["insert_or", "table", "cols", "input"] with
  | some [some ⟨onConflict, _⟩, some ⟨table, _⟩, some ⟨cols, _⟩, input] => do
    return ⟨← conflictAction? onConflict, ← Table.ofJson? table, ← strings? cols,
      ← optional (fun p => Rows.ofJson? p.1) input⟩
  | _ => none

/-- The update that a tree is the JSON form of. -/
def Update.ofJson? (j : Json) : Option Update :=
  match j.record? ["update_or", "table", "updates", "filter"] with
  | some [some ⟨onConflict, _⟩, some ⟨table, _⟩, some ⟨setters, _⟩, some ⟨filter, _⟩] => do
    return ⟨← conflictAction? onConflict, ← Table.ofJson? table,
      ← setters.listOf? fun p => Setter.ofJson? p.1, ← Scalar.ofJson? filter⟩
  | _ => none

/-- The deletion that a tree is the JSON form of. -/
def Delete.ofJson? (j : Json) : Option Delete :=
  match j.record? ["table", "filter"] with
  | some [some ⟨table, _⟩, some ⟨filter, _⟩] => do
    return ⟨← Table.ofJson? table, ← Scalar.ofJson? filter⟩
  | _ => none

/-- The command that a tree is the JSON form of. -/
def Command.ofJson? (j : Json) : Option Command :=
  match j.variant? with
  | some ("Explain", some ⟨p, _⟩) => (ofJson? p).map .explain
  | some ("List", some ⟨p, _⟩) => (Rows.ofJson? p).map .query
  | some ("Insert", some ⟨p, _⟩) => (Insert.ofJson? p).map .insert
  | some ("Update", some ⟨p, _⟩) => (Update.ofJson? p).map .update
  | some ("Delete", some ⟨p, _⟩) => (Delete.ofJson? p).map .delete
  | some (name, some ⟨p, _⟩) => do
    let kind ← ObjectKind.all.find? (·.dropName == name)
    return .drop kind (← DropTarget.ofJson? p)
  | _ => none
termination_by sizeOf j
decreasing_by all_goals omega

end SqlPlan.Plan
