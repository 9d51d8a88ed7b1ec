import SqlPlan.Proofs.Rewrite.Cleared
import SqlPlan.Proofs.Rewrite.Normal

/-!
# Collapsing a part first

Half joins may be cleared from a part of a row source before they are cleared from the whole.  That
changes what the joins around the part get to see: a part that was broken is sound now, and a join
above it that had to be built anew may be left as it is.  The operators, the leaves and the shape of
the joins come out the same all the same; only what a join says beside its operands may differ
(`Rows.collapse_is_compositional`).

The rewrite treats a join in one of two ways, by whether anything below it is broken.  Apart from
what the join says, both come to the same (`Rows.bareOperand_cleared_join`).  So what is left of an
operator is made from what is left below it, and no flag has to be asked for
(`Rows.Frame.bareOperand_cleared_plug`); likewise for any number of operators around a part.  And
the same is left of a part that was broken as of what it collapses to.
-/

namespace SqlPlan.Plan.Rows

/-! ### Trees without what joins say -/

mutual

/-- The tree in which every join is of the default kind, not natural, and without a filter. -/
def bare : Rows → Rows
  | scan table => scan table
  | select filter input => select filter input.bare
  | project cols input => project cols input.bare
  | join _ left right => join {} (bareOperand left) (bareOperand right)
  | limit count input => limit count input.bare
  | offset count input => offset count input.bare
  | distinct input => distinct input.bare
  | values rows => values rows

/-- The join operand whose joins say nothing. -/
def bareOperand : Option Rows → Option Rows
  | none => none
  | some rows => some rows.bare

end

theorem bare_over (w : Wrapper) (input : Rows) : (w.over input).bare = w.over input.bare := by
  cases w <;> rfl

theorem bare_getD_noRows (operand : Option Rows) :
    (operand.getD noRows).bare = (bareOperand operand).getD noRows := by
  cases operand <;> rfl

theorem isSome_bareOperand (operand : Option Rows) :
    (bareOperand operand).isSome = operand.isSome := by
  cases operand <;> rfl

theorem bareOperand_remains (left right : Option Rows) :
    bareOperand (remains left right) = remains (bareOperand left) (bareOperand right) := by
  cases left <;> cases right <;> rfl

/-! ### What is left, by what is left below -/

theorem cleared_over (w : Wrapper) (input : Rows) :
    (w.over input).cleared = some (w.over (input.cleared.getD noRows)) := by
  cases h : input.hasBroken with
  | true => exact cleared_over_of_hasBroken w h
  | false =>
    have sound := (hasBroken_over w input).trans h
    rw [cleared_of_not_hasBroken sound, cleared_of_not_hasBroken h]
    rfl

/-- A join in which nothing is broken stays as it is, and any other one is built anew.  Apart from
what it says, there is no difference. -/
theorem bareOperand_cleared_join {spec : JoinSpec} {left right : Option Rows}
    (he : (join spec left right).isEmptyJoin = false) :
    bareOperand (join spec left right).cleared =
      remains (bareOperand (clearedOperand left)) (bareOperand (clearedOperand right)) := by
  rw [← bareOperand_remains]
  cases h : (join spec left right).hasBroken with
  | true => rw [cleared_join_of_hasBroken h]
  | false =>
    obtain ⟨l, r, rfl, rfl, hle, hre, hl, hr⟩ := operands_of_not_hasBroken he h
    have left_kept : clearedOperand (some l) = some l := by
      rw [clearedOperand_of_not_empty hle, cleared_of_not_hasBroken hl]
    have right_kept : clearedOperand (some r) = some r := by
      rw [clearedOperand_of_not_empty hre, cleared_of_not_hasBroken hr]
    rw [cleared_of_not_hasBroken h, left_kept, right_kept]
    rfl

/-! ### Surroundings -/

/-- An operator that the rewrite looks through, with a place left open below it.  The other operand
of a join may be any row source, or absent. -/
inductive Frame where
  | wrapper (w : Wrapper)
  | leftOf (spec : JoinSpec) (right : Option Rows)
  | rightOf (spec : JoinSpec) (left : Option Rows)

namespace Frame

/-- The operator with a row source in its open place. -/
def plug : Frame → Rows → Rows
  | wrapper w, rows => w.over rows
  | leftOf spec right, rows => join spec (some rows) right
  | rightOf spec left, rows => join spec left (some rows)

/-- What is left of the operator, by what is left of the row source in its open place. -/
def rebuild : Frame → Option Rows → Option Rows
  | wrapper w, rest => some (w.over (rest.getD noRows))
  | leftOf _ right, rest => remains rest (bareOperand (clearedOperand right))
  | rightOf _ left, rest => remains (bareOperand (clearedOperand left)) rest

/-- What stands in the open place keeps the operator from being an empty join. -/
theorem isEmptyJoin_plug (frame : Frame) (rows : Rows) : (frame.plug rows).isEmptyJoin = false := by
  cases frame with
  | wrapper w => cases w <;> rfl
  | leftOf spec right => rfl
  | rightOf spec left => cases left <;> rfl

theorem isSome_rebuild (frame : Frame) {rest : Option Rows} (h : rest.isSome = true) :
    (frame.rebuild rest).isSome = true := by
  obtain ⟨rows, rfl⟩ := Option.isSome_iff_exists.mp h
  cases frame with
  | wrapper w => rfl
  | leftOf spec right => rw [rebuild]; cases clearedOperand right <;> rfl
  | rightOf spec left => rw [rebuild]; cases clearedOperand left <;> rfl

theorem bareOperand_cleared_plug (frame : Frame) {rows : Rows} (h : rows.isEmptyJoin = false) :
    bareOperand (frame.plug rows).cleared = frame.rebuild (bareOperand rows.cleared) := by
  have not_empty := frame.isEmptyJoin_plug rows
  cases frame with
  | wrapper w => rw [plug, cleared_over, bareOperand, bare_over, bare_getD_noRows, rebuild]
  | leftOf spec right =>
    rw [plug] at not_empty ⊢
    rw [bareOperand_cleared_join not_empty, clearedOperand_of_not_empty h, rebuild]
  | rightOf spec left =>
    rw [plug] at not_empty ⊢
    rw [bareOperand_cleared_join not_empty, clearedOperand_of_not_empty h, rebuild]

end Frame

/-- A row source with operators around it, the outermost of which comes first. -/
def surround (frames : List Frame) (rows : Rows) : Rows := frames.foldr Frame.plug rows

theorem isEmptyJoin_surround (frames : List Frame) {rows : Rows} (h : rows.isEmptyJoin = false) :
    (surround frames rows).isEmptyJoin = false := by
  cases frames with
  | nil => exact h
  | cons frame frames => exact frame.isEmptyJoin_plug _

/-- What is left with operators around is made from what is left without them. -/
theorem bareOperand_cleared_surround (frames : List Frame) {rows : Rows}
    (h : rows.isEmptyJoin = false) :
    bareOperand (surround frames rows).cleared =
      frames.foldr Frame.rebuild (bareOperand rows.cleared) := by
  induction frames with
  | nil => rfl
  | cons frame frames ih =>
    have not_empty := isEmptyJoin_surround frames h
    show bareOperand (frame.plug (surround frames rows)).cleared = _
    rw [frame.bareOperand_cleared_plug not_empty, ih, List.foldr_cons]

theorem isSome_cleared_surround (frames : List Frame) {rows : Rows}
    (he : rows.isEmptyJoin = false) (h : rows.cleared.isSome = true) :
    (surround frames rows).cleared.isSome = true := by
  rw [← isSome_bareOperand, bareOperand_cleared_surround frames he]
  induction frames with
  | nil => rw [List.foldr_nil, isSome_bareOperand, h]
  | cons frame frames ih => exact frame.isSome_rebuild ih

/-! ### The part first, or all at once -/

/-- The row source after the rewrite: the new tree, if there is one that counts, or the old one. -/
def collapsed (rows : Rows) : Rows := rows.collapse.replacement.getD rows

theorem collapse_ne_vanished {rows : Rows} (h : rows.cleared.isSome = true) :
    rows.collapse ≠ ⟨none, true⟩ := by
  intro vanished
  have broken : rows.hasBroken = true := by rw [← collapse_applied, vanished]
  have nothing_left : rows.cleared = none := by rw [← collapse_tree_of_hasBroken broken, vanished]
  rw [nothing_left] at h
  cases h

/-- What is left of a row source, if anything, is the row source after the rewrite. -/
theorem cleared_eq_some_collapsed {rows : Rows} (h : rows.cleared.isSome = true) :
    rows.cleared = some rows.collapsed := by
  rw [collapsed, Outcome.replacement, collapse_applied]
  cases hb : rows.hasBroken with
  | true =>
    obtain ⟨tree, htree⟩ := Option.isSome_iff_exists.mp h
    rw [if_pos rfl, collapse_tree_of_hasBroken hb, htree]
    rfl
  | false =>
    rw [cleared_of_not_hasBroken hb]
    rfl

/-- **Half joins may be cleared from a part first.**  Let the rewrite apply to a row source and make
a tree of it, and let operators that it looks through stand around them.  Then neither of the two
vanishes with what stands around it, and the rewrite makes the same of both, apart from what joins
say beside their operands. -/
theorem collapse_is_compositional (frames : List Frame) (rows tree : Rows)
    (h : rows.collapse = ⟨some tree, true⟩) :
    (surround frames rows).collapse ≠ ⟨none, true⟩ ∧
    (surround frames tree).collapse ≠ ⟨none, true⟩ ∧
    (surround frames rows).collapsed.bare = (surround frames tree).collapsed.bare := by
  have broken : rows.hasBroken = true := by rw [← collapse_applied, h]
  have clear : tree.Clear := clear_collapse (by rw [h]) tree (by rw [h]; rfl)
  -- the tree is what is left of the row source, and it is all that is left of itself
  have rows_left : rows.cleared = some tree := by rw [← collapse_tree_of_hasBroken broken, h]
  have tree_left : tree.cleared = some tree := cleared_of_not_hasBroken clear.sound
  have rows_not_empty := not_emptyJoin_of_hasBroken broken
  have rows_survive := isSome_cleared_surround frames rows_not_empty (by rw [rows_left]; rfl)
  have tree_survives := isSome_cleared_surround frames clear.not_empty (by rw [tree_left]; rfl)
  refine ⟨collapse_ne_vanished rows_survive, collapse_ne_vanished tree_survives, ?_⟩
  apply Option.some.inj
  calc some (surround frames rows).collapsed.bare
      = bareOperand (surround frames rows).cleared := by
        rw [cleared_eq_some_collapsed rows_survive, bareOperand]
    _ = bareOperand (surround frames tree).cleared := by
        rw [bareOperand_cleared_surround frames rows_not_empty, rows_left,
          bareOperand_cleared_surround frames clear.not_empty, tree_left]
    _ = some (surround frames tree).collapsed.bare := by
        rw [cleared_eq_some_collapsed tree_survives, bareOperand]

/-- A left join with `b`, itself joined to the right of an empty join. -/
def leftJoinBesideEmpty : List Frame :=
  [.rightOf { kind := .inner } (some (join {} none none)),
    .leftOf { kind := .left } (some (plainScan "b"))]

/-- A half join on `a` is cleared on its own or together with what stands around it.  In the second
case the left join has something broken below it, and loses its kind. -/
theorem collapse_is_compositional_halfJoin :
    let halfJoin := join {} none (some (plainScan "a"))
    halfJoin.collapse = ⟨some (plainScan "a"), true⟩ ∧
    (surround leftJoinBesideEmpty halfJoin).collapsed =
      joined {} (plainScan "a") (plainScan "b") ∧
    (surround leftJoinBesideEmpty (plainScan "a")).collapsed =
      joined { kind := .left } (plainScan "a") (plainScan "b") ∧
    (surround leftJoinBesideEmpty halfJoin).collapse ≠ ⟨none, true⟩ ∧
    (surround leftJoinBesideEmpty (plainScan "a")).collapse ≠ ⟨none, true⟩ ∧
    (surround leftJoinBesideEmpty halfJoin).collapsed.bare =
      (surround leftJoinBesideEmpty (plainScan "a")).collapsed.bare := by
  intro halfJoin
  exact ⟨rfl, rfl, rfl,
    collapse_is_compositional leftJoinBesideEmpty halfJoin (plainScan "a") rfl⟩

end SqlPlan.Plan.Rows
