/-!
# The words of a plan

Operators, conflict actions and kinds of schema object, as they stand in a plan.  Equality and
inequality are not among the operators, since they have a node of their own.

A word has a `name`, its tag in the JSON form of a plan, and a `symbol`, its spelling in the
rendered text.
-/

namespace SqlPlan.Plan

/-! ### Unary operators -/

/-- An operator in front of one operand. -/
inductive UnaryOp where
  | negate
  | plus
  | not
  | bitNot
deriving DecidableEq

namespace UnaryOp

/-- All unary operators. -/
def all : List UnaryOp := [negate, plus, not, bitNot]

/-- The tag of the operator in JSON. -/
def name : UnaryOp → String
  | negate => "Negate"
  | plus => "Plus"
  | not => "Not"
  | bitNot => "BitNot"

/-- The spelling of the operator in rendered text. -/
def symbol : UnaryOp → String
  | negate => "-"
  | plus => "+"
  | not => "NOT"
  | bitNot => "~"

end UnaryOp

/-! ### Binary operators -/

/-- An operator between two operands. -/
inductive BinaryOp where
  | concat
  | multiply
  | divide
  | modulo
  | add
  | subtract
  | shiftLeft
  | shiftRight
  | bitAnd
  | bitOr
  | less
  | lessEquals
  | greater
  | greaterEquals
  | is
  | isNot
  | like
  | glob
  | and
  | or
deriving DecidableEq

namespace BinaryOp

/-- All binary operators. -/
def all : List BinaryOp :=
  [concat, multiply, divide, modulo, add, subtract, shiftLeft, shiftRight, bitAnd, bitOr,
    less, lessEquals, greater, greaterEquals, is, isNot, like, glob, and, or]

/-- The tag of the operator in JSON. -/
def name : BinaryOp → String
  | concat => "Concat"
  | multiply => "Multiply"
  | divide => "Divide"
  | modulo => "Modulo"
  | add => "Add"
  | subtract => "Subtract"
  | shiftLeft => "ShiftLeft"
  | shiftRight => "ShiftRight"
  | bitAnd => "BitAnd"
  | bitOr => "BitOr"
  | less => "Less"
  | lessEquals => "LessEquals"
  | greater => "Greater"
  | greaterEquals => "GreaterEquals"
  | is => "Is"
  | isNot => "IsNot"
  | like => "Like"
  | glob => "Glob"
  | and => "And"
  | or => "Or"

/-- The spelling of the operator in rendered text. -/
def symbol : BinaryOp → String
  | concat => "||"
  | multiply => "*"
  | divide => "/"
  | modulo => "%"
  | add => "+"
  | subtract => "-"
  | shiftLeft => "<<"
  | shiftRight => ">>"
  | bitAnd => "&"
  | bitOr => "|"
  | less => "<"
  | lessEquals => "<="
  | greater => ">"
  | greaterEquals => ">="
  | is => "IS"
  | isNot => "IS NOT"
  | like => "LIKE"
  | glob => "GLOB"
  | and => "AND"
  | or => "OR"

end BinaryOp

/-! ### Conflict resolution -/

/-- What a write does with a row that violates a constraint. -/
inductive ConflictAction where
  | abort
  | replace
  | rollback
  | fail
  | ignore
deriving DecidableEq

namespace ConflictAction

/-- A write without an `OR` clause aborts. -/
instance : Inhabited ConflictAction := ⟨abort⟩

/-- All conflict actions. -/
def all : List ConflictAction := [abort, replace, rollback, fail, ignore]

/-- The tag of the action in JSON. -/
def name : ConflictAction → String
  | abort => "Abort"
  | replace => "Replace"
  | rollback => "Rollback"
  | fail => "Fail"
  | ignore => "Ignore"

/-- The spelling of the action in rendered text. -/
def symbol : ConflictAction → String
  | abort => "ABORT"
  | replace => "REPLACE"
  | rollback => "ROLLBACK"
  | fail => "FAIL"
  | ignore => "IGNORE"

end ConflictAction

/-! ### Schema objects -/

/-- A kind of object that a command drops. -/
inductive ObjectKind where
  | table
  | index
  | trigger
  | view
deriving DecidableEq

namespace ObjectKind

/-- All kinds of schema object. -/
def all : List ObjectKind := [table, index, trigger, view]

/-- The name of the command that drops an object of the kind, in JSON and in rendered text. -/
def dropName : ObjectKind → String
  | table => "DropTable"
  | index => "DropIndex"
  | trigger => "DropTrigger"
  | view => "DropView"

end ObjectKind

end SqlPlan.Plan
