import SqlPlan.Rewrite.HalfJoin

/-!
# How half joins collapse

The outcome of clearing half joins, operator by operator: an operator above another passes its
input's outcome on, a join puts the outcomes of its operands together, and an operand to which
nothing applies stays as it is.  What follows about whole trees is shown by induction from these
equations, with no need to unfold the rewrite again.

To the rewrite there are three shapes of row source: a wrapper above an input, a join, and a leaf
into which it does not look (`Rows.shape_induct`).
-/

namespace SqlPlan.Plan

/-! ### Shapes -/

/-- An operator that the collapse of half joins looks through, without its input. -/
inductive Wrapper where
  | select (filter : Option Scalar)
  | project (cols : List Column)
  | limit (count : Scalar)

/-- The operator above an input. -/
def Wrapper.over : Wrapper → Rows → Rows
  | select filter => .select filter
  | project cols => .project cols
  | limit count => .limit count

namespace Rows

/-- A row source into which the rewrite does not look. -/
def isLeaf : Rows → Bool
  | scan _ => true
  | offset _ _ => true
  | distinct _ => true
  | values _ => true
  | _ => false

/-- Induction on row sources as the rewrite sees them. -/
@[elab_as_elim]
theorem shape_induct {motive : Rows → Prop}
    (leaf : ∀ rows, rows.isLeaf = true → motive rows)
    (wrapper : ∀ (w : Wrapper) input, motive input → motive (w.over input))
    (join : ∀ spec left right, (∀ l ∈ left, motive l) → (∀ r ∈ right, motive r) →
      motive (.join spec left right)) (rows : Rows) : motive rows := by
  induction rows using Rows.induct with
  | scan table => exact leaf _ rfl
  | select filter input ih => exact wrapper (.select filter) input ih
  | project cols input ih => exact wrapper (.project cols) input ih
  | join spec left right ihl ihr => exact join spec left right ihl ihr
  | limit count input ih => exact wrapper (.limit count) input ih
  | offset count input _ => exact leaf _ rfl
  | distinct input _ => exact leaf _ rfl
  | values rows => exact leaf _ rfl

theorem collapse_leaf {rows : Rows} (h : rows.isLeaf = true) : rows.collapse = .untouched := by
  cases rows with
  | scan | offset | distinct | values => rfl
  | select | project | join | limit => cases h

theorem collapse_over (w : Wrapper) (input : Rows) :
    (w.over input).collapse = rewrap w.over input.collapse := by
  cases w <;> rfl

/-! ### Operators above one input -/

theorem rewrap_of_applied (wrap : Rows → Rows) {input : Outcome Rows} (h : input.applied = true) :
    rewrap wrap input = ⟨some (wrap (input.tree.getD noRows)), true⟩ := by
  rw [rewrap, if_pos h]

theorem rewrap_of_not_applied (wrap : Rows → Rows) {input : Outcome Rows}
    (h : input.applied = false) : rewrap wrap input = .untouched := by
  rw [rewrap, h]
  rfl

theorem rewrap_applied (wrap : Rows → Rows) (input : Outcome Rows) :
    (rewrap wrap input).applied = input.applied := by
  cases h : input.applied with
  | true => rw [rewrap_of_applied wrap h]
  | false => rw [rewrap_of_not_applied wrap h]; rfl

theorem rewrap_ne_vanished (wrap : Rows → Rows) (input : Outcome Rows) :
    rewrap wrap input ≠ ⟨none, true⟩ := by
  cases h : input.applied with
  | true => simp [rewrap_of_applied wrap h]
  | false => simp [rewrap_of_not_applied wrap h, Outcome.untouched]

/-! ### Joins -/

theorem isEmptyJoin_iff {rows : Rows} :
    rows.isEmptyJoin = true ↔ ∃ spec, rows = join spec none none := by
  constructor
  · intro h
    unfold isEmptyJoin at h
    split at h
    · exact ⟨_, rfl⟩
    · cases h
  · rintro ⟨spec, rfl⟩
    rfl

theorem collapse_emptyJoin {rows : Rows} (h : rows.isEmptyJoin = true) :
    rows.collapse = .untouched := by
  obtain ⟨spec, rfl⟩ := isEmptyJoin_iff.mp h
  rfl

theorem collapse_join {spec : JoinSpec} {left right : Option Rows}
    (h : (join spec left right).isEmptyJoin = false) :
    (join spec left right).collapse = rejoin (collapseOperand left) (collapseOperand right) := by
  cases left with
  | some l => rw [collapse]; exact nofun
  | none =>
    cases right with
    | some r => rw [collapse]; exact nofun
    | none => cases h

theorem collapseOperand_emptyJoin {rows : Rows} (h : rows.isEmptyJoin = true) :
    collapseOperand (some rows) = .untouched := by
  rw [collapseOperand, if_pos h]

theorem collapseOperand_of_applied {rows : Rows} (h : rows.collapse.applied = true) :
    collapseOperand (some rows) = rows.collapse := by
  have not_empty : rows.isEmptyJoin = false := by
    cases he : rows.isEmptyJoin with
    | false => rfl
    | true =>
      rw [collapse_emptyJoin he] at h
      cases h
  rw [collapseOperand, not_empty, Outcome.orKeep, h]
  rfl

theorem collapseOperand_of_not_applied {rows : Rows} (he : rows.isEmptyJoin = false)
    (h : rows.collapse.applied = false) : collapseOperand (some rows) = ⟨some rows, false⟩ := by
  rw [collapseOperand, he, Outcome.orKeep, h]
  rfl

/-- An operand that is present is an empty join and void, or rewritten, or kept as it is. -/
theorem collapseOperand_cases (rows : Rows) :
    (rows.isEmptyJoin = true ∧ collapseOperand (some rows) = .untouched) ∨
    (rows.isEmptyJoin = false ∧ rows.collapse.applied = true ∧
      collapseOperand (some rows) = rows.collapse) ∨
    (rows.isEmptyJoin = false ∧ rows.collapse.applied = false ∧
      collapseOperand (some rows) = ⟨some rows, false⟩) := by
  cases he : rows.isEmptyJoin with
  | true => exact .inl ⟨rfl, collapseOperand_emptyJoin he⟩
  | false =>
    cases ha : rows.collapse.applied with
    | true => exact .inr (.inl ⟨rfl, rfl, collapseOperand_of_applied ha⟩)
    | false => exact .inr (.inr ⟨rfl, rfl, collapseOperand_of_not_applied he ha⟩)

/-- What is left of a join, by what is left of its operands. -/
def remains : Option Rows → Option Rows → Option Rows
  | some left, some right => some (joined {} left right)
  | some left, none => some left
  | none, some right => some right
  | none, none => none

theorem rejoin_tree (left right : Outcome Rows) :
    (rejoin left right).tree = remains left.tree right.tree := by
  obtain ⟨_ | l, _⟩ := left <;> obtain ⟨_ | r, _⟩ := right <;> rfl

/-- A join applies if it lost an operand, or if the rewrite applied to one. -/
theorem rejoin_applied (left right : Outcome Rows) :
    (rejoin left right).applied =
      ((left.tree.isNone || left.applied) || (right.tree.isNone || right.applied)) := by
  obtain ⟨_ | l, _⟩ := left <;> obtain ⟨_ | r, _⟩ := right <;> simp [rejoin]

end Rows

end SqlPlan.Plan

/-! ### The rule -/

namespace SqlPlan.Rule

open Plan (Rows Command)

/-- The rule replaces the rows of a query if the collapse applies and leaves any. -/
theorem step_halfJoinElimination_query (rows : Rows) :
    halfJoinElimination.step (.query rows) = .query (rows.collapse.replacement.getD rows) := by
  show ((rows.collapse.map Command.query).replacement).getD (.query rows) = _
  obtain ⟨tree, applied⟩ := rows.collapse
  cases tree <;> cases applied <;> rfl

theorem step_halfJoinElimination_of_untouched {c : Command} (h : c.collapse = .untouched) :
    halfJoinElimination.step c = c := by
  show c.collapse.replacement.getD c = c
  rw [h]
  rfl

/-- A rule that leaves a command as it is may have any number of turns. -/
theorem runAll_replicate_append {rule : Rule} {c : Command} (h : rule.step c = c) (n : Nat)
    (rules : List Rule) : runAll (List.replicate n rule ++ rules) c = runAll rules c := by
  induction n with
  | zero => rfl
  | succ n ih =>
    rw [List.replicate_succ, List.cons_append]
    show runAll (List.replicate n rule ++ rules) (rule.step c) = _
    rw [h, ih]

end SqlPlan.Rule
