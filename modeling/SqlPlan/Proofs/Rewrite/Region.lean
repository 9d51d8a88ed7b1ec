import Mathlib.Logic.Relation
import SqlPlan.Proofs.Rewrite.Collapse

/-!
# The region of a row source

The *region* of a row source is the part of it that the collapse of half joins sees: all that can
be reached from the root through the inputs of wrappers and the operands of joins
(`Rows.mem_region_iff`).

A join is *broken* if it has an operand at all, but one of its two operands is void, that is, absent
or an empty join.  An empty join is void where it is an operand, yet it is not broken itself.  The
rewrite applies exactly to the row sources with a broken join in their region
(`Rows.collapse_applied`).
-/

namespace SqlPlan.Plan.Rows

/-! ### Regions -/

mutual

/-- The nodes that the rewrite sees, from the root down and from left to right. -/
def region : Rows → List Rows
  | select filter input => select filter input :: input.region
  | project cols input => project cols input :: input.region
  | limit count input => limit count input :: input.region
  | join spec left right => join spec left right :: (operandRegion left ++ operandRegion right)
  | scan table => [scan table]
  | offset count input => [offset count input]
  | distinct input => [distinct input]
  | values rows => [values rows]

/-- The nodes of a join operand that the rewrite sees. -/
def operandRegion : Option Rows → List Rows
  | none => []
  | some rows => rows.region

end

/-- The nodes right below a node that the rewrite sees from there. -/
def children : Rows → List Rows
  | select _ input => [input]
  | project _ input => [input]
  | limit _ input => [input]
  | join _ left right => left.toList ++ right.toList
  | _ => []

theorem region_leaf {rows : Rows} (h : rows.isLeaf = true) : rows.region = [rows] := by
  cases rows with
  | scan | offset | distinct | values => rfl
  | select | project | join | limit => cases h

theorem region_over (w : Wrapper) (input : Rows) :
    (w.over input).region = w.over input :: input.region := by
  cases w <;> rfl

theorem children_leaf {rows : Rows} (h : rows.isLeaf = true) : rows.children = [] := by
  cases rows with
  | scan | offset | distinct | values => rfl
  | select | project | join | limit => cases h

theorem children_over (w : Wrapper) (input : Rows) : (w.over input).children = [input] := by
  cases w <;> rfl

theorem mem_operandRegion_iff {operand : Option Rows} {node : Rows} :
    node ∈ operandRegion operand ↔ ∃ rows ∈ operand, node ∈ rows.region := by
  cases operand with
  | none => simp [operandRegion]
  | some rows => simp [operandRegion]

/-- A node of a region is the root, or in the region of a node right below. -/
theorem mem_region_cases {rows node : Rows} :
    node ∈ rows.region ↔ rows = node ∨ ∃ child ∈ rows.children, node ∈ child.region := by
  induction rows using shape_induct with
  | leaf rows h => simp [region_leaf h, children_leaf h, eq_comm]
  | wrapper w input => simp [region_over, children_over, eq_comm]
  | join spec left right =>
    simp only [region, children, List.mem_cons, List.mem_append, mem_operandRegion_iff,
      Option.mem_toList, Option.mem_def, or_and_right, exists_or, eq_comm]

/-- Induction from the nodes right below to the node above them. -/
theorem children_induct {motive : Rows → Prop}
    (step : ∀ rows, (∀ child ∈ rows.children, motive child) → motive rows) (rows : Rows) :
    motive rows := by
  induction rows using shape_induct with
  | leaf rows h => exact step _ (by simp [children_leaf h])
  | wrapper w input ih => exact step _ (by simpa [children_over] using ih)
  | join spec left right ihl ihr =>
    refine step _ fun child hchild => ?_
    rcases List.mem_append.mp hchild with hl | hr
    · exact ihl child (Option.mem_toList.mp hl)
    · exact ihr child (Option.mem_toList.mp hr)

/-- The region is what can be reached from the root. -/
theorem mem_region_iff {rows node : Rows} : node ∈ rows.region ↔
    Relation.ReflTransGen (fun parent child => child ∈ parent.children) rows node := by
  induction rows using children_induct with
  | step rows ih =>
    rw [mem_region_cases, Relation.ReflTransGen.cases_head_iff]
    exact or_congr_right (exists_congr fun child => and_congr_right fun hchild => ih child hchild)

/-! ### Broken joins -/

/-- A join operand that comes to nothing: it is absent or an empty join. -/
def isVoid (operand : Option Rows) : Bool := operand.all isEmptyJoin

/-- A join with an operand, but also with a void one. -/
def isBroken : Rows → Bool
  | join spec left right =>
    !(join spec left right).isEmptyJoin && (isVoid left || isVoid right)
  | _ => false

/-- Whether the region has a broken join. -/
def hasBroken (rows : Rows) : Bool := rows.region.any isBroken

/-- Whether the region of a join operand has a broken join. -/
def operandHasBroken (operand : Option Rows) : Bool := (operandRegion operand).any isBroken

theorem hasBroken_eq_true_iff {rows : Rows} :
    rows.hasBroken = true ↔ ∃ node ∈ rows.region, node.isBroken = true :=
  List.any_eq_true

theorem hasBroken_eq_false_iff {rows : Rows} :
    rows.hasBroken = false ↔ ∀ node ∈ rows.region, node.isBroken = false := by
  simp only [hasBroken, List.any_eq_false, Bool.not_eq_true]

theorem hasBroken_leaf {rows : Rows} (h : rows.isLeaf = true) : rows.hasBroken = false := by
  cases rows with
  | scan | offset | distinct | values => rfl
  | select | project | join | limit => cases h

theorem hasBroken_over (w : Wrapper) (input : Rows) :
    (w.over input).hasBroken = input.hasBroken := by
  cases w <;> rfl

theorem hasBroken_join (spec : JoinSpec) (left right : Option Rows) :
    (join spec left right).hasBroken =
      ((join spec left right).isBroken || (operandHasBroken left || operandHasBroken right)) := by
  rw [hasBroken, region, List.any_cons, List.any_append]
  rfl

theorem hasBroken_emptyJoin {rows : Rows} (h : rows.isEmptyJoin = true) :
    rows.hasBroken = false := by
  obtain ⟨spec, rfl⟩ := isEmptyJoin_iff.mp h
  rfl

theorem not_emptyJoin_of_hasBroken {rows : Rows} (h : rows.hasBroken = true) :
    rows.isEmptyJoin = false := by
  cases he : rows.isEmptyJoin with
  | false => rfl
  | true =>
    rw [hasBroken_emptyJoin he] at h
    cases h

/-! ### Where the rewrite applies -/

/-- A join operand is lost or rewritten exactly if it is void or has a broken join. -/
theorem lost_or_applied_collapseOperand {operand : Option Rows}
    (ih : ∀ rows ∈ operand, rows.collapse.applied = rows.hasBroken) :
    ((collapseOperand operand).tree.isNone || (collapseOperand operand).applied) =
      (isVoid operand || operandHasBroken operand) := by
  cases operand with
  | none => rfl
  | some rows =>
    have flag : rows.collapse.applied = operandHasBroken (some rows) := ih rows rfl
    have void_eq : isVoid (some rows) = rows.isEmptyJoin := rfl
    rw [void_eq, ← flag]
    rcases collapseOperand_cases rows with ⟨he, h⟩ | ⟨he, ha, h⟩ | ⟨he, ha, h⟩
    · rw [h, he]
      rfl
    · rw [h, ha, Bool.or_true, Bool.or_true]
    · rw [h, he, ha]
      rfl

/-- The rewrite applies exactly if there is a broken join in the region. -/
theorem collapse_applied (rows : Rows) : rows.collapse.applied = rows.hasBroken := by
  induction rows using shape_induct with
  | leaf rows h =>
    rw [collapse_leaf h, hasBroken_leaf h]
    rfl
  | wrapper w input ih => rw [collapse_over, rewrap_applied, ih, hasBroken_over]
  | join spec left right ihl ihr =>
    cases he : (join spec left right).isEmptyJoin with
    | true =>
      rw [collapse_emptyJoin he, hasBroken_emptyJoin he]
      rfl
    | false =>
      have broken_eq : (join spec left right).isBroken = (isVoid left || isVoid right) := by
        rw [isBroken, he]
        rfl
      rw [collapse_join he, rejoin_applied, lost_or_applied_collapseOperand ihl,
        lost_or_applied_collapseOperand ihr, hasBroken_join, broken_eq]
      ac_rfl

end SqlPlan.Plan.Rows
