import SqlPlan.Diagnostic
import SqlPlan.Plan.Scalar

/-!
# Lowering of expressions

An expression becomes a scalar of a plan, or is refused at the first construct without a lowering.
Operands are visited from left to right.

Four differences between expressions are lost on the way.  Parentheses around one expression vanish,
a column reference becomes the literal of its dotted text, and the two spellings of equality become
one, as do those of inequality.
-/

namespace SqlPlan

/-- Refuses a construct that is present. -/
def refuseIf (present : Bool) (construct : Construct) : Except Diagnostic Unit :=
  if present then .error (.ofConstruct construct) else .ok ()

namespace Sql

open Plan (Scalar)

/-! ### Operators -/

/-- The operator of a plan that a unary operator becomes. -/
def UnaryOp.lower : UnaryOp → Plan.UnaryOp
  | minus => .negate
  | plus => .plus
  | not => .not
  | bitNot => .bitNot

/-- The scalar that a binary operator makes of its operands. -/
def BinaryOp.lower (op : BinaryOp) (left right : Scalar) : Scalar :=
  match op with
  | concat => .binary left .concat right
  | multiply => .binary left .multiply right
  | divide => .binary left .divide right
  | modulo => .binary left .modulo right
  | add => .binary left .add right
  | subtract => .binary left .subtract right
  | shiftLeft => .binary left .shiftLeft right
  | shiftRight => .binary left .shiftRight right
  | bitAnd => .binary left .bitAnd right
  | bitOr => .binary left .bitOr right
  | less => .binary left .less right
  | lessEquals => .binary left .lessEquals right
  | greater => .binary left .greater right
  | greaterEquals => .binary left .greaterEquals right
  | equals => .equality left right false
  | doubleEquals => .equality left right false
  | notEquals => .equality left right true
  | lessGreater => .equality left right true
  | is => .binary left .is right
  | isNot => .binary left .isNot right
  | like => .binary left .like right
  | glob => .binary left .glob right
  | and => .binary left .and right
  | or => .binary left .or right

/-! ### Expressions -/

mutual

/-- The scalar that an expression becomes. -/
def Expr.lower : Expr → Except Diagnostic Scalar
  | .literal text => .ok (.literal text)
  | .column ref => .ok (.literal ref.text)
  | .parameter _ => .error (.ofConstruct .parameter)
  | .unary op operand => do return .unary op.lower (← operand.lower)
  | .binary op left right => do return op.lower (← left.lower) (← right.lower)
  | .between negated operand low high => do
    return .range (← operand.lower) (← low.lower) (← high.lower) negated
  | .call name distinct args filter window => do
    refuseIf filter.isSome .functionFilter
    refuseIf window.isSome .overWindow
    return .call name distinct (← args.lower distinct)
  | .row [item] => item.lower
  | .row _ => .error (.ofConstruct .row)
  | .cast _ _ => .error (.ofConstruct .cast)
  | .caseWhen _ _ _ => .error (.ofConstruct .caseWhen)
  | .inList _ _ _ => .error (.ofConstruct .inList)
  | .existsIn _ => .error (.ofConstruct .existsIn)
  | .subquery _ => .error (.ofConstruct .subquery)

/-- The arguments of a function call; a call over distinct values takes exactly one. -/
def Args.lower : Args → Bool → Except Diagnostic (List Scalar)
  | .star, _ => .error (.ofConstruct .functionStar)
  | .list items, distinct => do
    refuseIf (distinct && items.length != 1) .distinctFunction
    Expr.lowerAll items

/-- The scalars that some expressions become. -/
def Expr.lowerAll : List Expr → Except Diagnostic (List Scalar)
  | [] => .ok []
  | e :: es => do return (← e.lower) :: (← Expr.lowerAll es)

end

end Sql

end SqlPlan
