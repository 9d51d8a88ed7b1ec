import SqlPlan.Compiler
import SqlPlan.Proofs.Lowering.Inversion

/-!
# The offences of a statement

The offences of a statement are all the constructs in it that have no lowering and all the clauses
whose parts do not fit together, in the order in which they are visited.  What stands inside a
construct without a lowering is not visited: a subquery is one offence, whatever it holds.  Each
offence is listed as the diagnostic that a caller reads, with its context and its message.

A statement may have many offences at once.  Lowering accepts exactly the statements that have
none, and refuses any other one for its first offence (`StatementKind.lowering_fails_fast`).  The
rules of a compiler have no part in this, since they only run over what was accepted.

The proof composes: if a step fails fast on some offences and the step after it on others, the two
in sequence fail fast on the former followed by the latter (`FailsFast.bind`).
-/

namespace SqlPlan

namespace Sql

/-- An offence that is there under a condition. -/
def offenceIf (p : Prop) [Decidable p] (d : Diagnostic) : List Diagnostic := if p then [d] else []

/-! ### Expressions -/

mutual

/-- The offences of an expression, operands from left to right. -/
def Expr.offences : Expr → List Diagnostic
  | .literal _ => []
  | .column _ => []
  | .parameter _ => [.unsupported "bind parameter"]
  | .unary _ operand => operand.offences
  | .binary _ left right => left.offences ++ right.offences
  | .between _ operand low high => operand.offences ++ low.offences ++ high.offences
  | .call _ distinct args filter window =>
    offenceIf filter.isSome (.unsupported "filter") ++
      offenceIf window.isSome (.unsupported "over") ++ args.offences distinct
  -- parentheses around one expression are no construct of their own
  | .row [item] => item.offences
  | .row _ => [.unsupported "row value"]
  | .cast _ _ => [.unsupported "cast"]
  | .caseWhen _ _ _ => [.unsupported "case"]
  | .inList _ _ _ => [.unsupported "in"]
  | .existsIn _ => [.unsupported "exists"]
  | .subquery _ => [.unsupported "subquery"]

/-- The offences of the arguments of a call, which may be one over distinct values. -/
def Args.offences : Args → Bool → List Diagnostic
  | .star, _ => [.unsupported "function star"]
  | .list items, distinct =>
    offenceIf (distinct = true ∧ items.length ≠ 1) (.unsupported "distinct on function") ++
      Expr.offencesAll items

/-- The offences of some expressions. -/
def Expr.offencesAll : List Expr → List Diagnostic
  | [] => []
  | e :: es => e.offences ++ Expr.offencesAll es

end

/-! ### Sources -/

/-- The offence of a join operator: there are no right and no full joins. -/
def JoinOp.offences : JoinOp → List Diagnostic
  | .join _ (some .right) => [.unsupported "right join"]
  | .join _ (some .full) => [.unsupported "full join"]
  | _ => []

/-- The offences of the condition of a join. -/
def JoinConstraint.offences : JoinConstraint → List Diagnostic
  | .condition value => value.offences
  | .columns _ => [.unsupported "join"]

mutual

/-- The offences of a `FROM` clause. -/
def From.offences : From → List Diagnostic
  | .tables [] => [.invalid "from" "no tables to select from"]
  | .tables (first :: sources) => first.offences ++ Source.offencesAll sources
  | .join first parts => first.offences ++ JoinPart.offencesAll parts

/-- The offences of one source. -/
def Source.offences : Source → List Diagnostic
  | .table _ => []
  | .nested clause => clause.offences
  | .subquery _ _ => [.unsupported "subquery"]
  | .function _ _ _ => [.unsupported "table function"]

/-- The offences of some sources. -/
def Source.offencesAll : List Source → List Diagnostic
  | [] => []
  | s :: sources => s.offences ++ Source.offencesAll sources

/-- The offences of some join parts: for each its operator, its condition and then its source. -/
def JoinPart.offencesAll : List JoinPart → List Diagnostic
  | [] => []
  | ⟨op, source, constraint⟩ :: parts =>
    op.offences ++ constraint.elim [] JoinConstraint.offences ++ source.offences ++
      JoinPart.offencesAll parts

end

/-! ### Queries -/

/-- The offences of rows of values: two rows of different lengths, then the expressions. -/
def rowOffences (rows : List (List Expr)) : List Diagnostic :=
  offenceIf (∃ r ∈ rows, ∃ r' ∈ rows, r.length ≠ r'.length)
      (.invalid "values" "all VALUES must have the same number of terms") ++
    rows.flatMap Expr.offencesAll

/-- The offences of a result column. -/
def ResultColumn.offences : ResultColumn → List Diagnostic
  | .star => []
  | .tableStar _ => []
  | .expr value _ => value.offences

/-- The offences of a select clause. -/
def Clause.offences (c : Clause) : List Diagnostic :=
  offenceIf c.windows.isSome (.unsupported "window") ++ c.columns.flatMap ResultColumn.offences ++
    c.source.elim [] From.offences ++ c.filter.elim [] Expr.offences ++
    offenceIf c.groupBy.isSome (.unsupported "group")

/-- The offences of a core. -/
def Core.offences : Core → List Diagnostic
  | .select clause => clause.offences
  | .values rows => rowOffences rows

/-- The offences of a limit: those of the count, then those of the offset. -/
def Limit.offences (l : Limit) : List Diagnostic :=
  l.count.offences ++ l.offset.elim [] Expr.offences

/-- The offences of a query. -/
def Select.offences (s : Select) : List Diagnostic :=
  offenceIf s.ctes.isSome (.unsupported "with") ++
    offenceIf (s.compound ≠ []) (.unsupported "compound select") ++ s.core.offences ++
    offenceIf s.orderBy.isSome (.unsupported "order") ++ s.limit.elim [] Limit.offences

/-! ### Statements -/

/-- The offence of a first row that is not as long as a list of columns which is not empty. -/
def widthOffences (columns : List String) : List (List α) → List Diagnostic
  | [] => []
  | first :: _ => offenceIf (columns ≠ [] ∧ first.length ≠ columns.length)
    (.invalid "insert"
      (first.length.repr ++ " values for " ++ columns.length.repr ++ " columns"))

/-- The offences of the source of an insertion into some columns. -/
def InsertSource.offences (columns : List String) : InsertSource → List Diagnostic
  | .values rows => rowOffences rows ++ widthOffences columns rows
  | .query select => select.offences
  | .defaults => []

/-- The offences of an `INSERT`. -/
def Insert.offences (w : Insert) : List Diagnostic :=
  offenceIf w.ctes.isSome (.unsupported "with") ++
    offenceIf w.upsert.isSome (.unsupported "upsert") ++ w.source.offences w.columns

/-- The offences of an `UPDATE`. -/
def Update.offences (w : Update) : List Diagnostic :=
  offenceIf w.ctes.isSome (.unsupported "with") ++ w.assignments.flatMap (·.value.offences) ++
    w.filter.elim [] Expr.offences

/-- The offences of a `DELETE`. -/
def Delete.offences (w : Delete) : List Diagnostic :=
  offenceIf w.ctes.isSome (.unsupported "with") ++ w.filter.elim [] Expr.offences

/-- The offences of a statement. -/
def StatementKind.offences : StatementKind → List Diagnostic
  | .select query => query.offences
  | .insert write => write.offences
  | .update write => write.offences
  | .delete write => write.offences
  | .drop _ => []
  | .create ⟨.table, _, _⟩ => [.unsupported "create table"]
  | .create ⟨.virtualTable, _, _⟩ => [.unsupported "create virtual table"]
  | .create ⟨.index, _, _⟩ => [.unsupported "create index"]
  | .create ⟨.trigger, _, _⟩ => [.unsupported "create trigger"]
  | .create ⟨.view, _, _⟩ => [.unsupported "create view"]
  | .alterTable _ => [.unsupported "alter table"]
  | .transaction _ => [.unsupported "transaction"]
  | .vacuum _ => [.unsupported "vacuum"]
  | .analyze _ => [.unsupported "analyze"]
  | .pragma _ => [.unsupported "pragma"]

end Sql

/-! ### Failing fast -/

/-- A step fails fast on a list of offences: it succeeds if there are none, and is refused for the
first of them otherwise. -/
def FailsFast (step : Except Diagnostic α) (offences : List Diagnostic) : Prop :=
  match step with
  | .ok _ => offences = []
  | .error d => offences.head? = some d

namespace FailsFast

theorem ok (a : α) : FailsFast (.ok a) [] := rfl

theorem error (d : Diagnostic) : FailsFast (.error d : Except Diagnostic α) [d] := rfl

theorem isOk_iff {x : Except Diagnostic α} {ds : List Diagnostic} (hx : FailsFast x ds) :
    (∃ a, x = .ok a) ↔ ds = [] := by
  cases x with
  | ok a => exact ⟨fun _ => hx, fun _ => ⟨a, rfl⟩⟩
  | error d =>
    constructor
    · rintro ⟨a, h⟩
      cases h
    · rintro rfl
      cases hx

theorem eq_error_iff {x : Except Diagnostic α} {ds : List Diagnostic} (hx : FailsFast x ds)
    (d : Diagnostic) : x = .error d ↔ ds.head? = some d := by
  cases x with
  | ok a =>
    have hds : ds = [] := hx
    simp [hds]
  | error e =>
    have hds : ds.head? = some e := hx
    simp [hds]

/-- In a chain the offences of the first step stand before those of the rest. -/
theorem bind {x : Except Diagnostic α} {f : α → Except Diagnostic β} {ds es : List Diagnostic}
    (hx : FailsFast x ds) (hf : ∀ a, x = .ok a → FailsFast (f a) es) :
    FailsFast (x >>= f) (ds ++ es) := by
  cases x with
  | ok a =>
    have hds : ds = [] := hx
    rw [hds]
    exact hf a rfl
  | error d =>
    have hds : ds.head? = some d := hx
    show (ds ++ es).head? = some d
    rw [List.head?_append, hds, Option.some_or]

/-- What only wraps up the value of a step adds no offence. -/
theorem bind_pure {x : Except Diagnostic α} {f : α → β} {ds : List Diagnostic}
    (hx : FailsFast x ds) : FailsFast (x >>= fun a => pure (f a)) ds := by
  have h := hx.bind fun a _ => ok (f a)
  rwa [List.append_nil] at h

theorem mapM {f : α → Except Diagnostic β} {offences : α → List Diagnostic} (as : List α)
    (hf : ∀ a, FailsFast (f a) (offences a)) : FailsFast (as.mapM f) (as.flatMap offences) := by
  induction as with
  | nil => exact ok []
  | cons a as ih =>
    rw [List.mapM_cons, List.flatMap_cons]
    exact (hf a).bind fun _ _ => ih.bind_pure

theorem refuseIf {present : Bool} {p : Prop} [Decidable p] (c : Construct)
    (h : present = true ↔ p) :
    FailsFast (refuseIf present c) (Sql.offenceIf p (.unsupported c.context)) := by
  unfold SqlPlan.refuseIf Sql.offenceIf
  by_cases hp : p
  · rw [if_pos (h.mpr hp), if_pos hp]
    exact error _
  · rw [if_neg (mt h.mp hp), if_neg hp]
    exact ok ()

/-- A clause that has no lowering is an offence if present. -/
theorem refuseIf_isSome (clause : Option α) (c : Construct) :
    FailsFast (SqlPlan.refuseIf clause.isSome c)
      (Sql.offenceIf clause.isSome (.unsupported c.context)) :=
  refuseIf c Iff.rfl

end FailsFast

namespace Sql

open Plan (Rows Scalar)

/-! ### Lowering fails fast

Each proof below follows its chain of steps and puts the offences of the links one after the other.
-/

mutual

theorem Expr.failsFast_lower : ∀ e : Expr, FailsFast e.lower e.offences
  | .literal _ => .ok _
  | .column _ => .ok _
  | .parameter _ => .error _
  | .unary _ operand => by
    rw [Expr.lower, Expr.offences]
    exact operand.failsFast_lower.bind_pure
  | .binary _ left right => by
    rw [Expr.lower, Expr.offences]
    exact left.failsFast_lower.bind fun _ _ => right.failsFast_lower.bind_pure
  | .between _ operand low high => by
    rw [Expr.lower, Expr.offences, List.append_assoc]
    refine operand.failsFast_lower.bind fun _ _ => ?_
    exact low.failsFast_lower.bind fun _ _ => high.failsFast_lower.bind_pure
  | .call _ distinct args filter window => by
    rw [Expr.lower, Expr.offences, List.append_assoc]
    refine (FailsFast.refuseIf_isSome filter _).bind fun _ _ => ?_
    refine (FailsFast.refuseIf_isSome window _).bind fun _ _ => ?_
    exact (args.failsFast_lower distinct).bind_pure
  | .row [item] => by
    rw [Expr.lower, Expr.offences]
    exact item.failsFast_lower
  | .row [] => .error _
  | .row (_ :: _ :: _) => .error _
  | .cast _ _ => .error _
  | .caseWhen _ _ _ => .error _
  | .inList _ _ _ => .error _
  | .existsIn _ => .error _
  | .subquery _ => .error _

theorem Args.failsFast_lower : ∀ (args : Args) (distinct : Bool),
    FailsFast (args.lower distinct) (args.offences distinct)
  | .star, _ => .error _
  | .list items, distinct => by
    rw [Args.lower, Args.offences]
    refine (FailsFast.refuseIf _ ?_).bind fun _ _ => Expr.failsFast_lowerAll items
    simp only [Bool.and_eq_true, bne_iff_ne]

theorem Expr.failsFast_lowerAll : ∀ es : List Expr,
    FailsFast (Expr.lowerAll es) (Expr.offencesAll es)
  | [] => .ok _
  | e :: es => by
    rw [Expr.lowerAll, Expr.offencesAll]
    exact e.failsFast_lower.bind fun _ _ => (Expr.failsFast_lowerAll es).bind_pure

end

theorem JoinOp.failsFast_lower (op : JoinOp) : FailsFast op.lower op.offences := by
  cases op with
  | comma => exact .ok _
  | join natural kind =>
    rcases kind with _ | _ | _ | _ | _ | _ | _
    case some.right => exact .error _
    case some.full => exact .error _
    all_goals exact .ok _

theorem JoinConstraint.failsFast_lower (constraint : Option JoinConstraint) :
    FailsFast (JoinConstraint.lower constraint) (constraint.elim [] JoinConstraint.offences) := by
  rcases constraint with _ | value | names
  · exact .ok _
  · exact value.failsFast_lower.bind_pure
  · exact .error _

theorem failsFast_joinSpec (op : JoinOp) (constraint : Option JoinConstraint) :
    FailsFast (joinSpec op constraint)
      (op.offences ++ constraint.elim [] JoinConstraint.offences) :=
  op.failsFast_lower.bind fun _ _ => (JoinConstraint.failsFast_lower constraint).bind_pure

mutual

theorem From.failsFast_lower : ∀ clause : From, FailsFast clause.lower clause.offences
  | .tables [] => .error _
  | .tables (first :: sources) => by
    rw [From.lower, From.offences]
    exact first.failsFast_lower.bind fun rows _ => Source.failsFast_crossAll sources rows
  | .join first parts => by
    rw [From.lower, From.offences]
    exact first.failsFast_lower.bind fun rows _ => JoinPart.failsFast_joinAll parts rows

theorem Source.failsFast_lower : ∀ source : Source, FailsFast source.lower source.offences
  | .table _ => .ok _
  | .nested clause => by
    rw [Source.lower, Source.offences]
    exact clause.failsFast_lower
  | .subquery _ _ => .error _
  | .function _ _ _ => .error _

-- the rows accumulated so far matter to the result, but not to the offences that are left
theorem Source.failsFast_crossAll : ∀ (sources : List Source) (accumulated : Rows),
    FailsFast (Source.crossAll accumulated sources) (Source.offencesAll sources)
  | [], _ => .ok _
  | s :: sources, accumulated => by
    rw [Source.crossAll, Source.offencesAll]
    exact s.failsFast_lower.bind fun rows _ => Source.failsFast_crossAll sources _

theorem JoinPart.failsFast_joinAll : ∀ (parts : List JoinPart) (accumulated : Rows),
    FailsFast (JoinPart.joinAll accumulated parts) (JoinPart.offencesAll parts)
  | [], _ => .ok _
  | ⟨op, source, constraint⟩ :: parts, accumulated => by
    rw [JoinPart.joinAll, JoinPart.offencesAll, List.append_assoc]
    refine (failsFast_joinSpec op constraint).bind fun spec _ => ?_
    exact source.failsFast_lower.bind fun rows _ => JoinPart.failsFast_joinAll parts _

end

theorem failsFast_lowerRows (rows : List (List Expr)) :
    FailsFast (lowerRows rows) (rowOffences rows) := by
  unfold lowerRows rowOffences offenceIf
  by_cases h : sameWidth rows = true
  · have even : ¬ ∃ r ∈ rows, ∃ r' ∈ rows, r.length ≠ r'.length := by
      rintro ⟨r, hr, r', hr', hne⟩
      exact hne (sameWidth_iff.mp h r hr r' hr')
    rw [if_pos h, if_neg even, List.nil_append]
    exact .mapM rows Expr.failsFast_lowerAll
  · have uneven : ∃ r ∈ rows, ∃ r' ∈ rows, r.length ≠ r'.length := by
      by_contra even
      push Not at even
      exact h (sameWidth_iff.mpr even)
    rw [if_neg h, if_pos uneven]
    rfl

theorem ResultColumn.failsFast_lower (col : ResultColumn) : FailsFast col.lower col.offences := by
  cases col with
  | star => exact .ok _
  | tableStar table => exact .ok _
  | expr value label => exact value.failsFast_lower.bind_pure

theorem failsFast_lowerSource (source : Option From) :
    FailsFast (lowerSource source) (source.elim [] From.offences) := by
  cases source with
  | none => exact .ok _
  | some clause => exact clause.failsFast_lower

theorem failsFast_applyFilter (input : Rows) (filter : Option Expr) :
    FailsFast (applyFilter input filter) (filter.elim [] Expr.offences) := by
  cases filter with
  | none => exact .ok _
  | some e => exact e.failsFast_lower.bind_pure

theorem Clause.failsFast_lower (c : Clause) : FailsFast c.lower c.offences := by
  unfold Clause.lower Clause.offences
  simp only [List.append_assoc]
  refine (FailsFast.refuseIf_isSome c.windows _).bind fun _ _ => ?_
  refine (FailsFast.mapM c.columns ResultColumn.failsFast_lower).bind fun _ _ => ?_
  refine (failsFast_lowerSource c.source).bind fun source _ => ?_
  refine (failsFast_applyFilter source c.filter).bind fun _ _ => ?_
  -- grouping is refused only after everything below it was lowered
  exact (FailsFast.refuseIf_isSome c.groupBy _).bind_pure

theorem Core.failsFast_lower (core : Core) : FailsFast core.lower core.offences := by
  cases core with
  | select clause => exact clause.failsFast_lower
  | values rows => exact (failsFast_lowerRows rows).bind_pure

theorem failsFast_applyLimit (input : Rows) (limit : Option Limit) :
    FailsFast (applyLimit input limit) (limit.elim [] Limit.offences) := by
  rcases limit with _ | ⟨count, offset⟩
  · exact .ok _
  · refine count.failsFast_lower.bind fun _ _ => ?_
    cases offset with
    | none => exact .ok _
    | some e => exact e.failsFast_lower.bind_pure.bind_pure

theorem Select.failsFast_lower (s : Select) : FailsFast s.lower s.offences := by
  unfold Select.lower Select.offences
  simp only [List.append_assoc]
  refine (FailsFast.refuseIf_isSome s.ctes _).bind fun _ _ => ?_
  refine (FailsFast.refuseIf _ (by simp)).bind fun _ _ => ?_
  refine s.core.failsFast_lower.bind fun rows _ => ?_
  -- an order, too, is refused after the core, but before the limit is looked at
  refine (FailsFast.refuseIf_isSome s.orderBy _).bind fun _ _ => ?_
  exact failsFast_applyLimit rows s.limit

/-- The width is checked on lowered rows, which are as long as the rows they come from. -/
theorem failsFast_checkWidth {rows : List (List Expr)} {lowered : List (List Scalar)}
    (h : lowerRows rows = .ok lowered) (columns : List String) :
    FailsFast (checkWidth columns lowered) (widthOffences columns rows) := by
  obtain ⟨-, entries⟩ := lowerRows_iff.mp h
  cases entries with
  | nil => exact .ok _
  | @cons first xs _ _ hfirst _ =>
    have len : first.length = xs.length := (Expr.lowerAll_iff.mp hfirst).length_eq
    rw [checkWidth, widthOffences, offenceIf, len]
    by_cases fits : columns = [] ∨ xs.length = columns.length
    · rw [if_pos (by simpa using fits), if_neg (by tauto)]
      exact .ok _
    · rw [if_neg (by simpa using fits), if_pos (by tauto)]
      exact .error _

theorem InsertSource.failsFast_lower (columns : List String) (source : InsertSource) :
    FailsFast (source.lower columns) (source.offences columns) := by
  cases source with
  | values rows =>
    refine (failsFast_lowerRows rows).bind fun lowered h => ?_
    exact (failsFast_checkWidth h columns).bind_pure
  | query select => exact select.failsFast_lower.bind_pure
  | defaults => exact .ok _

theorem Insert.failsFast_lower (w : Insert) : FailsFast w.lower w.offences := by
  unfold Insert.lower Insert.offences
  rw [List.append_assoc]
  refine (FailsFast.refuseIf_isSome w.ctes _).bind fun _ _ => ?_
  refine (FailsFast.refuseIf_isSome w.upsert _).bind fun _ _ => ?_
  exact (w.source.failsFast_lower w.columns).bind_pure

theorem failsFast_lowerFilter (filter : Option Expr) :
    FailsFast (lowerFilter filter) (filter.elim [] Expr.offences) := by
  cases filter with
  | none => exact .ok _
  | some e => exact e.failsFast_lower

theorem Update.failsFast_lower (w : Update) : FailsFast w.lower w.offences := by
  unfold Update.lower Update.offences
  rw [List.append_assoc]
  refine (FailsFast.refuseIf_isSome w.ctes _).bind fun _ _ => ?_
  have assignment : ∀ a : Assignment, FailsFast a.lower a.value.offences :=
    fun a => a.value.failsFast_lower.bind_pure
  refine (FailsFast.mapM w.assignments assignment).bind fun _ _ => ?_
  exact (failsFast_lowerFilter w.filter).bind_pure

theorem Delete.failsFast_lower (w : Delete) : FailsFast w.lower w.offences := by
  refine (FailsFast.refuseIf_isSome w.ctes _).bind fun _ _ => ?_
  exact (failsFast_lowerFilter w.filter).bind_pure

theorem StatementKind.failsFast_lower (k : StatementKind) : FailsFast k.lower k.offences := by
  cases k with
  | select query => exact query.failsFast_lower.bind_pure
  | insert write => exact write.failsFast_lower.bind_pure
  | update write => exact write.failsFast_lower.bind_pure
  | delete write => exact write.failsFast_lower.bind_pure
  | drop change => exact .ok _
  | create change =>
    obtain ⟨kind, _, _⟩ := change
    cases kind <;> exact .error _
  | alterTable name => exact .error _
  | transaction step => exact .error _
  | vacuum schema => exact .error _
  | analyze target => exact .error _
  | pragma name => exact .error _

/-- **Lowering accepts exactly the statements without an offence, and refuses any other one for its
first offence.**  So does a compiler, whatever its rules are and whether or not the statement is to
be explained. -/
theorem StatementKind.lowering_fails_fast (k : StatementKind) :
    ((∃ command, k.lower = .ok command) ↔ k.offences = []) ∧
    (∀ d, k.lower = .error d ↔ k.offences.head? = some d) ∧
    ∀ (c : Compiler) (explain : Option Explain),
      ((∃ command, c.compile ⟨explain, k⟩ = .ok command) ↔ k.offences = []) ∧
      ∀ d, c.compile ⟨explain, k⟩ = .error d ↔ k.offences.head? = some d := by
  have lowered := k.failsFast_lower
  refine ⟨lowered.isOk_iff, lowered.eq_error_iff, fun c explain => ?_⟩
  have compiled : FailsFast (c.compile ⟨explain, k⟩) k.offences := lowered.bind_pure
  exact ⟨compiled.isOk_iff, compiled.eq_error_iff⟩

/-- Uneven rows come before what stands in them, and `ORDER BY` before the limit. -/
example : (StatementKind.select
    { core := .values [[.parameter "?1"], []]
      orderBy := some []
      limit := some { count := .cast (.parameter "?2") "INTEGER" } }).offences =
    [.invalid "values" "all VALUES must have the same number of terms",
      .unsupported "bind parameter", .unsupported "order", .unsupported "cast"] := by
  decide

end Sql

end SqlPlan
