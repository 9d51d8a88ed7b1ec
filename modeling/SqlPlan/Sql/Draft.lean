import SqlPlan.Sql.Statement

/-!
# Drafts

A statement under construction.  It starts as a select clause, a query or a whole statement, and
each step sets one part of it, in place of what an earlier step had set.  A step that belongs to a
larger unit first completes the draft to that unit: a limit makes a query of a clause, and `EXPLAIN`
makes a statement of either.
-/

namespace SqlPlan.Sql

namespace Draft

end Draft

end SqlPlan.Sql
