import SqlPlan.Lowering.Select
import SqlPlan.Plan.Command

/-!
# Lowering of statements

Queries, writes and `DROP` statements become commands; every other statement is refused under its
own name.  A write without `WHERE` gets the filter `true`, so that the filter of a write is always
there.
-/

namespace SqlPlan.Sql

open Plan (Rows Scalar Command)

/-! ### Writes -/

/-- What a write does with a row that violates a constraint; without an `OR` clause it aborts. -/
def ConflictResolution.lower : Option ConflictResolution → Plan.ConflictAction
  | none => .abort
  | some .abort => .abort
  | some .replace => .replace
  | some .rollback => .rollback
  | some .fail => .fail
  | some .ignore => .ignore

/-- The filter of a write; without `WHERE` every row passes. -/
def lowerFilter : Option Expr → Except Diagnostic Scalar
  | none => .ok (.boolean true)
  | some filter => filter.lower

/-- Refuses rows of values that are not as long as a list of columns, unless that list is empty. -/
def checkWidth (columns : List String) : List (List α) → Except Diagnostic Unit
  | [] => .ok ()
  | first :: _ =>
    if columns.isEmpty || first.length == columns.length then .ok ()
    else .error (.widthMismatch first.length columns.length)

/-- The rows to put into some columns. -/
def InsertSource.lower (columns : List String) : InsertSource → Except Diagnostic (Option Rows)
  | .values rows => do
    let lowered ← lowerRows rows
    checkWidth columns lowered
    return some (.values lowered)
  | .query select => do return some (← select.lower)
  | .defaults => .ok none

/-- The command of an `INSERT`. -/
def Insert.lower (w : Insert) : Except Diagnostic Plan.Insert := do
  refuseIf w.ctes.isSome .ctes
  refuseIf w.upsert.isSome .upsert
  let input ← w.source.lower w.columns
  return {
    onConflict := ConflictResolution.lower w.onConflict
    table := .simple { schema := w.table.schema, name := w.table.name, label := w.label }
    cols := w.columns
    input }

/-- An assignment. -/
def Assignment.lower (a : Assignment) : Except Diagnostic Plan.Setter := do
  return { cols := a.columns, value := ← a.value.lower }

/-- The command of an `UPDATE`. -/
def Update.lower (w : Update) : Except Diagnostic Plan.Update := do
  refuseIf w.ctes.isSome .ctes
  let setters ← w.assignments.mapM Assignment.lower
  let filter ← lowerFilter w.filter
  return {
    onConflict := ConflictResolution.lower w.onConflict
    table := .simple w.table.lower
    setters
    filter }

/-- The command of a `DELETE`. -/
def Delete.lower (w : Delete) : Except Diagnostic Plan.Delete := do
  refuseIf w.ctes.isSome .ctes
  return { table := .simple w.table.lower, filter := ← lowerFilter w.filter }

/-- The kind of object that a `DROP` removes. -/
def DropKind.lower : DropKind → Plan.ObjectKind
  | table => .table
  | index => .index
  | trigger => .trigger
  | view => .view

/-- The object that a `DROP` removes. -/
def Drop.lower (d : Drop) : Plan.DropTarget where
  ifExists := d.ifExists
  schema := d.name.schema
  name := d.name.name

/-! ### Statements -/

/-- The command of a statement. -/
def StatementKind.lower : StatementKind → Except Diagnostic Command
  | .select query => do return .query (← query.lower)
  | .insert write => do return .insert (← write.lower)
  | .update write => do return .update (← write.lower)
  | .delete write => do return .delete (← write.lower)
  | .drop change => .ok (.drop change.kind.lower change.lower)
  | .create change => .error (.ofConstruct (.create change.kind))
  | .alterTable _ => .error (.ofConstruct .alterTable)
  | .transaction _ => .error (.ofConstruct .transaction)
  | .vacuum _ => .error (.ofConstruct .vacuum)
  | .analyze _ => .error (.ofConstruct .analyze)
  | .pragma _ => .error (.ofConstruct .pragma)

/-! ### Events -/

/-- The events of lowering the source of an `INSERT`. -/
def InsertSource.events : InsertSource → List Event
  | .query select => select.events
  | .values _ => []
  | .defaults => []

/-- The events of lowering an `INSERT`. -/
def Insert.events (w : Insert) : List Event :=
  eventsAfter (refuseIf w.ctes.isSome .ctes) <|
    eventsAfter (refuseIf w.upsert.isSome .upsert) w.source.events

/-- The events of lowering a statement. -/
def StatementKind.events : StatementKind → List Event
  | .select query => query.events
  | .insert write => write.events
  | _ => []

end SqlPlan.Sql
