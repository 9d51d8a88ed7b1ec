import SqlPlan.Event
import SqlPlan.Lowering.Expr

/-!
# Lowering of `FROM` clauses

The sources of a `FROM` clause become one tree of joins.  Both forms of the clause associate to the
left: each further source is joined to all that was accumulated before it.  The sources of a plain
list are joined crosswise; a part of a join clause brings its own operator and condition.

A join part is visited operator first, then condition, then source.
-/

namespace SqlPlan.Sql

open Plan (Rows SimpleTable JoinKind JoinSpec Scalar)

/-! ### Tables and join operators -/

/-- The table that a table name refers to.  Without a hint any index may be used. -/
def TableName.lower (t : TableName) : SimpleTable where
  schema := t.schema
  name := t.name
  label := t.label
  indexed := t.hint != some .notIndexed
  index := match t.hint with
    | some (.indexedBy index) => some index
    | _ => none

/-- The kind of join that a word names; a join without a word is an inner one. -/
def JoinWord.lower : Option JoinWord → Except Diagnostic JoinKind
  | none => .ok .inner
  | some .inner => .ok .inner
  | some .left => .ok .left
  | some .leftOuter => .ok .leftOuter
  | some .cross => .ok .cross
  | some .right => .error (.ofConstruct .rightJoin)
  | some .full => .error (.ofConstruct .fullJoin)

/-- The join that an operator stands for, without a condition yet. -/
def JoinOp.lower : JoinOp → Except Diagnostic JoinSpec
  | .comma => .ok { kind := .cross }
  | .join natural kind => do return { kind := ← JoinWord.lower kind, natural }

/-- The condition of a join. -/
def JoinConstraint.lower : Option JoinConstraint → Except Diagnostic (Option Scalar)
  | none => .ok none
  | some (.condition value) => do return some (← value.lower)
  | some (.columns _) => .error (.ofConstruct .joinColumns)

/-- All that a join part says beside its source. -/
def joinSpec (op : JoinOp) (constraint : Option JoinConstraint) : Except Diagnostic JoinSpec := do
  let spec ← op.lower
  return { spec with filter := ← JoinConstraint.lower constraint }

/-! ### Sources -/

mutual

/-- The rows of a `FROM` clause. -/
def From.lower : From → Except Diagnostic Rows
  | .tables [] => .error .noTables
  | .tables (first :: sources) => do Source.crossAll (← first.lower) sources
  | .join first parts => do JoinPart.joinAll (← first.lower) parts

/-- The rows of one source. -/
def Source.lower : Source → Except Diagnostic Rows
  | .table name => .ok (.scan (.simple name.lower))
  | .nested clause => clause.lower
  | .subquery _ _ => .error (.ofConstruct .subquery)
  | .function _ _ _ => .error (.ofConstruct .tableFunction)

/-- The accumulated rows joined crosswise with each further source. -/
def Source.crossAll (accumulated : Rows) : List Source → Except Diagnostic Rows
  | [] => .ok accumulated
  | s :: sources => do Source.crossAll (.joined { kind := .cross } accumulated (← s.lower)) sources

/-- The accumulated rows joined with the source of each further part. -/
def JoinPart.joinAll (accumulated : Rows) : List JoinPart → Except Diagnostic Rows
  | [] => .ok accumulated
  | ⟨op, source, constraint⟩ :: parts => do
    let spec ← joinSpec op constraint
    JoinPart.joinAll (.joined spec accumulated (← source.lower)) parts

end

/-! ### Events

Every part of a join clause is logged once its join is built.  What was logged before a later
construct is refused stays in the log.
-/

mutual

/-- The events of lowering a `FROM` clause. -/
def From.events : From → List Event
  | .tables sources => Source.eventsAll sources
  | .join first parts => first.events ++
    match first.lower with
    | .ok _ => JoinPart.eventsAll parts
    | .error _ => []

/-- The events of lowering one source. -/
def Source.events : Source → List Event
  | .nested clause => clause.events
  | .table _ => []
  | .subquery _ _ => []
  | .function _ _ _ => []

/-- The events of lowering some sources, up to the first that is refused. -/
def Source.eventsAll : List Source → List Event
  | [] => []
  | s :: sources => s.events ++
    match s.lower with
    | .ok _ => Source.eventsAll sources
    | .error _ => []

/-- The events of lowering some join parts, up to the first that is refused. -/
def JoinPart.eventsAll : List JoinPart → List Event
  | [] => []
  | ⟨op, source, constraint⟩ :: parts =>
    match joinSpec op constraint with
    | .error _ => []
    | .ok spec => source.events ++
      match source.lower with
      | .ok _ => .joining spec.kind spec.natural :: JoinPart.eventsAll parts
      | .error _ => []

end

end SqlPlan.Sql
