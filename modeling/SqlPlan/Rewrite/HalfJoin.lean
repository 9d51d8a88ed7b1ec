import SqlPlan.Rewrite.Rule

/-!
# Collapse of half joins

The rule that clears joins which lost an operand.  A join with one operand gives way to that
operand; a join whose operands are all absent, or empty joins themselves, vanishes.  The rule looks
through selections, projections, limits and joins, and leaves everything below another operator as
it is.

An empty join at the root, or right below a selection, projection or limit, is left alone.  A join
that vanishes below one of these leaves a source without rows in its place.

A join whose two operands survive is built anew, and the new one keeps neither kind nor filter of
the old one.  Its tree is handed back even when nothing below it changed, but then it is not marked
as applied.
-/

namespace SqlPlan.Plan

namespace Rows

/-- The outcome for an operator over a rewritten input. -/
def rewrap (wrap : Rows → Rows) (input : Outcome Rows) : Outcome Rows :=
  if input.applied then ⟨some (wrap (input.tree.getD noRows)), true⟩ else .untouched

/-- The outcome for a join over its rewritten operands. -/
def rejoin (left right : Outcome Rows) : Outcome Rows :=
  match left.tree, right.tree with
  | none, none => ⟨none, true⟩
  | some l, none => ⟨some l, true⟩
  | none, some r => ⟨some r, true⟩
  | some l, some r => ⟨some (joined {} l r), left.applied || right.applied⟩

mutual

/-- The outcome of clearing half joins from a row source. -/
def collapse : Rows → Outcome Rows
  | select filter input => rewrap (select filter) input.collapse
  | project cols input => rewrap (project cols) input.collapse
  | limit count input => rewrap (limit count) input.collapse
  | join _ none none => .untouched
  | join _ left right => rejoin (collapseOperand left) (collapseOperand right)
  | scan _ => .untouched
  | offset _ _ => .untouched
  | distinct _ => .untouched
  | values _ => .untouched

/-- The outcome for a join operand: an operand to which the rule does not apply stays, unless it is
an empty join. -/
def collapseOperand : Option Rows → Outcome Rows
  | none => .untouched
  | some rows => if rows.isEmptyJoin then .untouched else rows.collapse.orKeep rows

end

/-! ### Events -/

/-- The events of joining two rewritten operands. -/
def rejoinEvents (left right : Outcome Rows) : List Event :=
  match left.tree, right.tree with
  | none, none => [.joinVanished]
  | some l, none => [.halfJoinReplaced l]
  | none, some r => [.halfJoinReplaced r]
  | some _, some _ => []

mutual

/-- The events of clearing half joins from a row source. -/
def collapseEvents : Rows → List Event
  | select _ input => input.collapseEvents
  | project _ input => input.collapseEvents
  | limit _ input => input.collapseEvents
  | join _ none none => []
  | join _ left right => operandEvents left ++ operandEvents right ++
    rejoinEvents (collapseOperand left) (collapseOperand right)
  | scan _ => []
  | offset _ _ => []
  | distinct _ => []
  | values _ => []

/-- The events for a join operand. -/
def operandEvents : Option Rows → List Event
  | none => []
  | some rows => if rows.isEmptyJoin then [] else rows.collapseEvents

end

end Rows

namespace Command

/-- The outcome of clearing half joins from a command, which concerns queries alone. -/
def collapse : Command → Outcome Command
  | query rows => rows.collapse.map query
  | _ => .untouched

/-- The events of clearing half joins from a command. -/
def collapseEvents : Command → List Event
  | query rows => rows.collapseEvents
  | _ => []

end Command

end SqlPlan.Plan

namespace SqlPlan.Rule

/-- The rule that clears half joins. -/
def halfJoinElimination : Rule where
  name := "half-join-elimination"
  rewrite := Plan.Command.collapse
  events := Plan.Command.collapseEvents

end SqlPlan.Rule
