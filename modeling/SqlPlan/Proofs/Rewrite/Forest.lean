import SqlPlan.Proofs.Rewrite.Collapse
import SqlPlan.Rewrite.Prune

/-!
# What the collapse of half joins keeps

The *forest* of a row source is what stands in it once the joins are taken away: the operators that
the rewrite looks through, each above the forest of its input, and the sources it does not look
into, all from left to right.  A join adds nothing of its own, and puts the forests of its operands
next to each other.

Collapsing half joins leaves the forest as it is (`Rows.collapse_keeps_forest`): no operator and no
source is lost, doubled or moved, and a row source that vanishes had nothing in it but joins.  Since
the scans can be read off the forest (`Rows.scansAll_forest`), a query reads the same tables in the
same order before and after the rule.
-/

namespace SqlPlan.Plan

/-! ### Forests -/

/-- A tree without joins. -/
inductive Tree where
  /-- A source that the rewrite does not look into. -/
  | leaf (rows : Rows)
  /-- An operator above all that stands in its input. -/
  | node (wrapper : Wrapper) (children : List Tree)

/-- The tree of an operator.  If there is nothing in its input, that is as good as no rows. -/
def Tree.wrap (wrapper : Wrapper) : List Tree → Tree
  | [] => node wrapper [leaf .noRows]
  | children => node wrapper children

namespace Rows

mutual

/-- All that stands in a row source beside its joins, from left to right. -/
def forest : Rows → List Tree
  | select filter input => [.wrap (.select filter) input.forest]
  | project cols input => [.wrap (.project cols) input.forest]
  | limit count input => [.wrap (.limit count) input.forest]
  | join _ left right => operandForest left ++ operandForest right
  | scan table => [.leaf (scan table)]
  | offset count input => [.leaf (offset count input)]
  | distinct input => [.leaf (distinct input)]
  | values rows => [.leaf (values rows)]

/-- All that stands in a join operand. -/
def operandForest : Option Rows → List Tree
  | none => []
  | some rows => rows.forest

end

theorem forest_emptyJoin {rows : Rows} (h : rows.isEmptyJoin = true) : rows.forest = [] := by
  obtain ⟨spec, rfl⟩ := isEmptyJoin_iff.mp h
  rfl

/-- No rows below an operator are as good as nothing. -/
theorem wrap_forest_getD (wrapper : Wrapper) (input : Option Rows) :
    Tree.wrap wrapper (input.getD noRows).forest = Tree.wrap wrapper (operandForest input) := by
  cases input <;> rfl

/-! ### The forest is kept -/

theorem operandForest_rejoin (left right : Outcome Rows) :
    operandForest (rejoin left right).tree =
      operandForest left.tree ++ operandForest right.tree := by
  obtain ⟨left, _⟩ := left
  obtain ⟨right, _⟩ := right
  cases left <;> cases right <;> simp [rejoin, operandForest, joined, forest]

/-- An operand keeps its forest whether or not the rewrite applies to it. -/
theorem operandForest_collapseOperand {operand : Option Rows}
    (ih : ∀ rows ∈ operand, rows.collapse.applied = true →
      operandForest rows.collapse.tree = rows.forest) :
    operandForest (collapseOperand operand).tree = operandForest operand := by
  cases operand with
  | none => rfl
  | some rows =>
    cases he : rows.isEmptyJoin with
    | true =>
      rw [collapseOperand_emptyJoin he, operandForest, forest_emptyJoin he]
      rfl
    | false =>
      cases ha : rows.collapse.applied with
      | true => rw [collapseOperand_of_applied ha, ih rows rfl ha, operandForest]
      | false => rw [collapseOperand_of_not_applied he ha]

theorem operandForest_rewrap {wrap : Rows → Rows} {wrapper : Wrapper} {input : Rows}
    (hwrap : ∀ rows, (wrap rows).forest = [.wrap wrapper rows.forest])
    (ih : input.collapse.applied = true → operandForest input.collapse.tree = input.forest)
    (h : (rewrap wrap input.collapse).applied = true) :
    operandForest (rewrap wrap input.collapse).tree = (wrap input).forest := by
  rw [rewrap_applied] at h
  rw [rewrap_of_applied wrap h, operandForest, hwrap, hwrap, wrap_forest_getD, ih h]

theorem operandForest_collapse (rows : Rows) (h : rows.collapse.applied = true) :
    operandForest rows.collapse.tree = rows.forest := by
  induction rows using Rows.induct with
  | scan table => cases h
  | select filter input ih => exact operandForest_rewrap (fun _ => rfl) ih h
  | project cols input ih => exact operandForest_rewrap (fun _ => rfl) ih h
  | join spec left right ihl ihr =>
    cases he : (join spec left right).isEmptyJoin with
    | true =>
      rw [collapse_emptyJoin he] at h
      cases h
    | false =>
      -- whether the join applies no longer matters: its operands keep their forests in any case
      rw [collapse_join he, operandForest_rejoin, operandForest_collapseOperand ihl,
        operandForest_collapseOperand ihr, forest]
  | limit count input ih => exact operandForest_rewrap (fun _ => rfl) ih h
  | offset count input _ => cases h
  | distinct input _ => cases h
  | values rows => cases h

/-! ### Scans -/

mutual

/-- The tables that a row source scans, from left to right. -/
def scans : Rows → List Table
  | scan table => [table]
  | select _ input => input.scans
  | project _ input => input.scans
  | join _ left right => operandScans left ++ operandScans right
  | limit _ input => input.scans
  | offset _ input => input.scans
  | distinct input => input.scans
  | values _ => []

/-- The tables that a join operand scans. -/
def operandScans : Option Rows → List Table
  | none => []
  | some rows => rows.scans

end

end Rows

mutual

/-- The tables scanned in a tree without joins. -/
def Tree.scans : Tree → List Table
  | leaf rows => rows.scans
  | node _ children => Tree.scansAll children

/-- The tables scanned in some trees without joins. -/
def Tree.scansAll : List Tree → List Table
  | [] => []
  | t :: trees => t.scans ++ Tree.scansAll trees

end

theorem Tree.scansAll_append (trees trees' : List Tree) :
    Tree.scansAll (trees ++ trees') = Tree.scansAll trees ++ Tree.scansAll trees' := by
  induction trees with
  | nil => rfl
  | cons t trees ih => rw [List.cons_append, scansAll, scansAll, ih, List.append_assoc]

theorem Tree.scansAll_wrap (wrapper : Wrapper) (children : List Tree) :
    Tree.scansAll [.wrap wrapper children] = Tree.scansAll children := by
  cases children with
  | nil => rfl
  | cons t trees => rw [wrap, scansAll, scans, scansAll, List.append_nil]; exact nofun

namespace Rows

theorem scansAll_operandForest {operand : Option Rows}
    (ih : ∀ rows ∈ operand, Tree.scansAll rows.forest = rows.scans) :
    Tree.scansAll (operandForest operand) = operandScans operand := by
  cases operand with
  | none => rfl
  | some rows => exact ih rows rfl

/-- The scans of a row source are those of its forest. -/
theorem scansAll_forest (rows : Rows) : Tree.scansAll rows.forest = rows.scans := by
  induction rows using Rows.induct with
  | scan table => rfl
  | select filter input ih => rw [forest, Tree.scansAll_wrap, ih, scans]
  | project cols input ih => rw [forest, Tree.scansAll_wrap, ih, scans]
  | join spec left right ihl ihr =>
    rw [forest, Tree.scansAll_append, scansAll_operandForest ihl, scansAll_operandForest ihr, scans]
  | limit count input ih => rw [forest, Tree.scansAll_wrap, ih, scans]
  | offset count input _ => exact List.append_nil _
  | distinct input _ => exact List.append_nil _
  | values rows => rfl

theorem scans_eq_of_forest_eq {rows rows' : Rows} (h : rows.forest = rows'.forest) :
    rows.scans = rows'.scans := by
  rw [← scansAll_forest, ← scansAll_forest, h]

/-- **Collapsing half joins keeps everything but the joins.**  Where it applies and leaves a row
source, that has the same forest; where it applies and leaves nothing, the forest was empty.  The
rule therefore never changes which tables a query scans, nor in which order. -/
theorem collapse_keeps_forest (rows : Rows) :
    (∀ rows', rows.collapse = ⟨some rows', true⟩ → rows'.forest = rows.forest) ∧
    (rows.collapse = ⟨none, true⟩ → rows.forest = []) ∧
    ∃ rows', Rule.runAll [.halfJoinElimination] (.query rows) = .query rows' ∧
      rows'.scans = rows.scans := by
  have kept := operandForest_collapse rows
  refine ⟨?_, ?_, rows.collapse.replacement.getD rows, Rule.step_halfJoinElimination_query rows, ?_⟩
  · intro rows' h
    rw [h] at kept
    exact kept rfl
  · intro h
    rw [h] at kept
    exact (kept rfl).symm
  · rcases hc : rows.collapse with ⟨_ | rows', _ | _⟩
    case some.true =>
      rw [hc] at kept
      exact scans_eq_of_forest_eq (kept rfl)
    -- in all other cases, the vanished root among them, the rule keeps the old rows
    all_goals rfl

/-- A half join below a join gives way to its operand, and joins without any operand vanish. -/
theorem collapse_keeps_forest_nested :
    ((select none (join { kind := .left } (some (join {} none (some (plainScan "a"))))
        (some (plainScan "b")))).collapse =
      ⟨some (select none (joined {} (plainScan "a") (plainScan "b"))), true⟩ ∧
    (select none (joined {} (plainScan "a") (plainScan "b"))).forest =
      (select none (join { kind := .left } (some (join {} none (some (plainScan "a"))))
        (some (plainScan "b")))).forest) ∧
    (join {} (some (join {} none none)) none).collapse = ⟨none, true⟩ ∧
    (join {} (some (join {} none none)) none).forest = [] := by
  refine ⟨⟨rfl, ?_⟩, rfl, ?_⟩
  · exact (collapse_keeps_forest _).1 _ rfl
  · exact (collapse_keeps_forest _).2.1 rfl

end Rows

end SqlPlan.Plan
