import SqlPlan.Rewrite.Rule

/-!
# Pruning of a table

The rule that takes the scan of one table out of a query, which makes half joins of the joins it
stood in.  It looks through joins, selections and projections only.
-/

namespace SqlPlan.Plan

namespace Rows

/-- The scan of a table by its plain name. -/
def plainScan (name : String) : Rows := scan (.simple { name := name })

mutual

/-- The row source without the scan of a table, if anything is left of it. -/
def prune (table : String) : Rows → Option Rows
  | scan t => if scan t = plainScan table then none else some (scan t)
  | select filter input => some (select filter ((input.prune table).getD noRows))
  | project cols input => some (project cols ((input.prune table).getD noRows))
  | join spec left right => some (join spec (pruneOperand table left) (pruneOperand table right))
  | limit count input => some (limit count input)
  | offset count input => some (offset count input)
  | distinct input => some (distinct input)
  | values rows => some (values rows)

/-- The join operand without the scan of a table. -/
def pruneOperand (table : String) : Option Rows → Option Rows
  | none => none
  | some rows => rows.prune table

end

end Rows

/-- The outcome of pruning a table from a command, which concerns queries alone. -/
def Command.prune (table : String) : Command → Outcome Command
  | query rows => ⟨(rows.prune table).map query, true⟩
  | _ => .untouched

end SqlPlan.Plan

namespace SqlPlan.Rule

/-- The rule that prunes a table. -/
def prune (table : String) : Rule where
  name := "prune-" ++ table
  rewrite := Plan.Command.prune table

end SqlPlan.Rule
