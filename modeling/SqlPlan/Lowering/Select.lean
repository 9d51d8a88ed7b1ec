import SqlPlan.Lowering.From

/-!
# Lowering of queries

Each clause of a query becomes one operator, and a clause that is absent leaves nothing behind.
From the inside out: the rows of `FROM`, a selection for `WHERE`, always a projection, `DISTINCT`,
`OFFSET` and at last `LIMIT`, which so counts the rows after the skipped ones.

The clauses are visited in this order: `WITH`, the compound, the core, `ORDER BY`, the limit and
then the offset; inside a select clause `WINDOW`, the columns, `FROM`, `WHERE` and `GROUP BY`.
-/

namespace SqlPlan.Sql

open Plan (Rows Scalar Column)

/-! ### Cores -/

/-- Whether all rows are as long as the first one. -/
def sameWidth : List (List α) → Bool
  | [] => true
  | first :: rows => rows.all fun row => row.length == first.length

/-- Rows of values, which must all have the same length. -/
def lowerRows (rows : List (List Expr)) : Except Diagnostic (List (List Scalar)) :=
  if sameWidth rows then rows.mapM Expr.lowerAll else .error .unevenRows

/-- A result column. -/
def ResultColumn.lower : ResultColumn → Except Diagnostic Column
  | .star => .ok { value := .literal "*" }
  | .tableStar table => .ok { table, value := .literal "*" }
  | .expr value label => do return { value := ← value.lower, label }

/-- The rows that a clause works on; without `FROM` they are one row without columns. -/
def lowerSource : Option From → Except Diagnostic Rows
  | none => .ok .singleRow
  | some source => source.lower

/-- The rows that pass a `WHERE`. -/
def applyFilter (input : Rows) : Option Expr → Except Diagnostic Rows
  | none => .ok input
  | some filter => do return .select (some (← filter.lower)) input

/-- The rows of which a quantifier keeps each one, or each different one. -/
def applyQuantifier (input : Rows) : Option Quantifier → Rows
  | some .distinct => .distinct input
  | _ => input

/-- The rows of a select clause. -/
def Clause.lower (c : Clause) : Except Diagnostic Rows := do
  refuseIf c.windows.isSome .window
  let cols ← c.columns.mapM ResultColumn.lower
  let source ← lowerSource c.source
  let input ← applyFilter source c.filter
  refuseIf c.groupBy.isSome .group
  return applyQuantifier (.project cols input) c.quantifier

/-- The rows of a core. -/
def Core.lower : Core → Except Diagnostic Rows
  | .select clause => clause.lower
  | .values rows => do return .values (← lowerRows rows)

/-! ### Queries -/

/-- The rows after those that an `OFFSET` skips. -/
def applyOffset (input : Rows) : Option Expr → Except Diagnostic Rows
  | none => .ok input
  | some count => do return .offset (← count.lower) input

/-- The rows within a `LIMIT`. -/
def applyLimit (input : Rows) : Option Limit → Except Diagnostic Rows
  | none => .ok input
  | some ⟨count, offset⟩ => do
    let count ← count.lower
    return .limit count (← applyOffset input offset)

/-- The rows of a query. -/
def Select.lower (s : Select) : Except Diagnostic Rows := do
  refuseIf s.ctes.isSome .ctes
  refuseIf (!s.compound.isEmpty) .compound
  let rows ← s.core.lower
  refuseIf s.orderBy.isSome .order
  applyLimit rows s.limit

/-! ### Events -/

/-- The events of what comes after a step, which there are only if the step succeeds. -/
def eventsAfter (step : Except Diagnostic α) (events : List Event) : List Event :=
  match step with
  | .ok _ => events
  | .error _ => []

/-- The events of lowering a select clause: those of its `FROM`, if that is reached. -/
def Clause.events (c : Clause) : List Event :=
  eventsAfter (refuseIf c.windows.isSome .window) <|
    eventsAfter (c.columns.mapM ResultColumn.lower) <|
      (c.source.map From.events).getD []

/-- The events of lowering a core. -/
def Core.events : Core → List Event
  | .select clause => clause.events
  | .values _ => []

/-- The events of lowering a query. -/
def Select.events (s : Select) : List Event :=
  eventsAfter (refuseIf s.ctes.isSome .ctes) <|
    eventsAfter (refuseIf (!s.compound.isEmpty) .compound) s.core.events

end SqlPlan.Sql
