import SqlPlan.Proofs.Rewrite.Outcome

/-!
# What the joins lose

The collapse of half joins builds a join anew without what it said beside its operands: its kind,
whether it is natural, and its filter.  It hands such joins back even if nothing is broken, and it
is up to the operators above to throw them away.

`Rows.cleared` says what comes of it in the end, with no flag to pass around.  A part in which
nothing is broken is kept as it is.  In any other part, a wrapper keeps what it says, a join of two
operands that survive loses it, and a join of fewer than two gives way to what is left of it.
Where the rewrite applies, this is its tree (`Rows.collapse_tree_eq_cleared`).  So a join is stripped
exactly if both its operands survive and a join in its own region is broken.
-/

namespace SqlPlan.Plan.Rows

/-! ### The tree without half joins -/

mutual

/-- What is left of a row source without its half joins. -/
def cleared : Rows → Option Rows
  | select filter input =>
    if (select filter input).hasBroken then some (select filter (input.cleared.getD noRows))
    else some (select filter input)
  | project cols input =>
    if (project cols input).hasBroken then some (project cols (input.cleared.getD noRows))
    else some (project cols input)
  | limit count input =>
    if (limit count input).hasBroken then some (limit count (input.cleared.getD noRows))
    else some (limit count input)
  | join spec left right =>
    if (join spec left right).hasBroken then remains (clearedOperand left) (clearedOperand right)
    else some (join spec left right)
  | scan table => some (scan table)
  | offset count input => some (offset count input)
  | distinct input => some (distinct input)
  | values rows => some (values rows)

/-- What is left of a join operand; a void one leaves nothing. -/
def clearedOperand : Option Rows → Option Rows
  | none => none
  | some rows => if rows.isEmptyJoin then none else rows.cleared

end

theorem cleared_over_of_hasBroken (w : Wrapper) {input : Rows} (h : input.hasBroken = true) :
    (w.over input).cleared = some (w.over (input.cleared.getD noRows)) := by
  rw [← hasBroken_over w] at h
  cases w <;> exact if_pos h

theorem cleared_join_of_hasBroken {spec : JoinSpec} {left right : Option Rows}
    (h : (join spec left right).hasBroken = true) :
    (join spec left right).cleared = remains (clearedOperand left) (clearedOperand right) := by
  rw [cleared, if_pos h]

theorem cleared_of_not_hasBroken {rows : Rows} (h : rows.hasBroken = false) :
    rows.cleared = some rows := by
  cases rows with
  | scan | offset | distinct | values => rfl
  | select | project | join | limit => rw [cleared, h]; rfl

theorem clearedOperand_of_not_empty {rows : Rows} (h : rows.isEmptyJoin = false) :
    clearedOperand (some rows) = rows.cleared := by
  rw [clearedOperand, h]
  rfl

theorem clearedOperand_emptyJoin {rows : Rows} (h : rows.isEmptyJoin = true) :
    clearedOperand (some rows) = none := by
  rw [clearedOperand, if_pos h]

/-! ### The rewrite clears -/

theorem collapseOperand_tree {operand : Option Rows}
    (ih : ∀ rows ∈ operand, rows.hasBroken = true → rows.collapse.tree = rows.cleared) :
    (collapseOperand operand).tree = clearedOperand operand := by
  cases operand with
  | none => rfl
  | some rows =>
    rcases collapseOperand_cases rows with ⟨he, h⟩ | ⟨he, ha, h⟩ | ⟨he, ha, h⟩
    · rw [h, clearedOperand_emptyJoin he]
      rfl
    · rw [h, clearedOperand_of_not_empty he]
      exact ih rows rfl ((collapse_applied rows).symm.trans ha)
    · have sound := (collapse_applied rows).symm.trans ha
      rw [h, clearedOperand_of_not_empty he, cleared_of_not_hasBroken sound]

theorem collapse_tree_of_hasBroken {rows : Rows} (h : rows.hasBroken = true) :
    rows.collapse.tree = rows.cleared := by
  induction rows using shape_induct with
  | leaf rows hleaf =>
    rw [hasBroken_leaf hleaf] at h
    cases h
  | wrapper w input ih =>
    rw [hasBroken_over] at h
    rw [collapse_over, rewrap_of_applied _ ((collapse_applied input).trans h), ih h,
      cleared_over_of_hasBroken w h]
  | join spec left right ihl ihr =>
    rw [collapse_join (not_emptyJoin_of_hasBroken h), rejoin_tree, collapseOperand_tree ihl,
      collapseOperand_tree ihr, cleared_join_of_hasBroken h]

mutual

/-- What the joins of a tree say beside their operands, from left to right. -/
def specs : Rows → List JoinSpec
  | scan _ => []
  | select _ input => input.specs
  | project _ input => input.specs
  | join spec left right => operandSpecs left ++ [spec] ++ operandSpecs right
  | limit _ input => input.specs
  | offset _ input => input.specs
  | distinct input => input.specs
  | values _ => []

/-- What the joins of a join operand say. -/
def operandSpecs : Option Rows → List JoinSpec
  | none => []
  | some rows => rows.specs

end

/-- What is left of what a join says: all of it if nothing in its region is broken, and otherwise
nothing, in a join that still stands if both operands survive. -/
def ownSpec (spec : JoinSpec) (left right : Option Rows) : List JoinSpec :=
  if !(join spec left right).hasBroken then [spec]
  else if !operandOnlyJoins left && !operandOnlyJoins right then [{}]
  else []

mutual

/-- What is left of what the joins of a tree say, from left to right.  An empty join has its say
unless it is an operand. -/
def keptSpecs : Rows → List JoinSpec
  | select _ input => input.keptSpecs
  | project _ input => input.keptSpecs
  | limit _ input => input.keptSpecs
  | join spec left right =>
    operandKeptSpecs left ++ ownSpec spec left right ++ operandKeptSpecs right
  | scan _ => []
  | offset _ input => input.specs
  | distinct input => input.specs
  | values _ => []

/-- What is left of what the joins of a join operand say. -/
def operandKeptSpecs : Option Rows → List JoinSpec
  | none => []
  | some rows => if rows.isEmptyJoin then [] else rows.keptSpecs

end

mutual

/-- The parts in which nothing is broken, as large as they can be, from left to right. -/
def soundParts : Rows → List Rows
  | select filter input =>
    if (select filter input).hasBroken then input.soundParts else [select filter input]
  | project cols input =>
    if (project cols input).hasBroken then input.soundParts else [project cols input]
  | limit count input =>
    if (limit count input).hasBroken then input.soundParts else [limit count input]
  | join spec left right =>
    if (join spec left right).hasBroken then operandSoundParts left ++ operandSoundParts right
    else [join spec left right]
  | scan table => [scan table]
  | offset count input => [offset count input]
  | distinct input => [distinct input]
  | values rows => [values rows]

/-- The parts of a join operand in which nothing is broken; an empty join does not count. -/
def operandSoundParts : Option Rows → List Rows
  | none => []
  | some rows => if rows.isEmptyJoin then [] else rows.soundParts

end

end SqlPlan.Plan.Rows
