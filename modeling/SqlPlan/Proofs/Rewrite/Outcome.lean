import SqlPlan.Proofs.Rewrite.Region
import SqlPlan.Rewrite.Prune

/-!
# The outcomes of collapsing half joins

An outcome is a tree or none, and a flag.  All four combinations occur, and each is recognised by
the row source alone (`Rows.collapse_outcomes`).

* The flag is set if there is a broken join in the region.
* With the flag set there is no tree if nothing stands in the row source but joins, and at least
  two of them: every operand of every join is void in the end, and the root vanishes with them.
* With the flag not set there is a tree if the row source is a join of two operands.  It is the
  join built anew, without its kind and its filter, and whoever asks for the outcome must know not
  to use it.
* With the flag not set there is no tree in all other cases.
-/

namespace SqlPlan.Plan.Rows

/-! ### Trees of joins only -/

/-- A join, whatever its operands. -/
def isJoin : Rows → Bool
  | join _ _ _ => true
  | _ => false

mutual

/-- All nodes of a tree, also those that the rewrite does not see. -/
def nodes : Rows → List Rows
  | scan table => [scan table]
  | select filter input => select filter input :: input.nodes
  | project cols input => project cols input :: input.nodes
  | join spec left right => join spec left right :: (operandNodes left ++ operandNodes right)
  | limit count input => limit count input :: input.nodes
  | offset count input => offset count input :: input.nodes
  | distinct input => distinct input :: input.nodes
  | values rows => [values rows]

/-- All nodes of a join operand. -/
def operandNodes : Option Rows → List Rows
  | none => []
  | some rows => rows.nodes

end

/-- Whether nothing stands in a tree but joins. -/
def onlyJoins (rows : Rows) : Bool := rows.nodes.all isJoin

/-- Whether nothing stands in a join operand but joins. -/
def operandOnlyJoins (operand : Option Rows) : Bool := (operandNodes operand).all isJoin

theorem onlyJoins_leaf {rows : Rows} (h : rows.isLeaf = true) : rows.onlyJoins = false := by
  cases rows with
  | scan | offset | distinct | values => rfl
  | select | project | join | limit => cases h

theorem onlyJoins_over (w : Wrapper) (input : Rows) : (w.over input).onlyJoins = false := by
  cases w <;> rfl

theorem onlyJoins_join (spec : JoinSpec) (left right : Option Rows) :
    (join spec left right).onlyJoins = (operandOnlyJoins left && operandOnlyJoins right) := by
  rw [onlyJoins, nodes, List.all_cons, List.all_append]
  rfl

theorem onlyJoins_emptyJoin {rows : Rows} (h : rows.isEmptyJoin = true) :
    rows.onlyJoins = true := by
  obtain ⟨spec, rfl⟩ := isEmptyJoin_iff.mp h
  rfl

theorem isJoin_of_onlyJoins {rows : Rows} (h : rows.onlyJoins = true) : rows.isJoin = true := by
  cases rows with
  | join => rfl
  | scan | offset | distinct | values | select | project | limit => cases h

/-! ### The root vanishes -/

theorem rejoin_eq_vanished_iff {left right : Outcome Rows} :
    rejoin left right = ⟨none, true⟩ ↔ left.tree = none ∧ right.tree = none := by
  obtain ⟨_ | l, _⟩ := left <;> obtain ⟨_ | r, _⟩ := right <;> simp [rejoin]

/-- An operand is lost exactly if it holds nothing but joins. -/
theorem collapseOperand_tree_eq_none_iff {operand : Option Rows}
    (ih : ∀ rows ∈ operand, rows.isEmptyJoin = false →
      (rows.collapse = ⟨none, true⟩ ↔ rows.onlyJoins = true)) :
    (collapseOperand operand).tree = none ↔ operandOnlyJoins operand = true := by
  cases operand with
  | none => exact ⟨fun _ => rfl, fun _ => rfl⟩
  | some rows =>
    show _ ↔ rows.onlyJoins = true
    rcases collapseOperand_cases rows with ⟨he, h⟩ | ⟨he, ha, h⟩ | ⟨he, ha, h⟩
    · rw [h, onlyJoins_emptyJoin he]
      exact ⟨fun _ => rfl, fun _ => rfl⟩
    · rw [h, ← ih rows rfl he]
      constructor
      · intro htree
        rw [← htree, ← ha]
      · intro hvanished
        rw [hvanished]
    · rw [h, ← ih rows rfl he]
      constructor
      · intro htree
        cases htree
      · intro hvanished
        rw [hvanished] at ha
        cases ha

/-- A row source other than an empty join vanishes exactly if it holds nothing but joins. -/
theorem collapse_eq_vanished_iff {rows : Rows} (h : rows.isEmptyJoin = false) :
    rows.collapse = ⟨none, true⟩ ↔ rows.onlyJoins = true := by
  induction rows using shape_induct with
  | leaf rows hleaf => simp [collapse_leaf hleaf, onlyJoins_leaf hleaf, Outcome.untouched]
  | wrapper w input _ => simp [collapse_over, rewrap_ne_vanished, onlyJoins_over]
  | join spec left right ihl ihr =>
    rw [collapse_join h, rejoin_eq_vanished_iff, collapseOperand_tree_eq_none_iff ihl,
      collapseOperand_tree_eq_none_iff ihr, onlyJoins_join, Bool.and_eq_true]

/-! ### Nothing is broken -/

/-- The tree that is handed back when nothing is broken. -/
def stripped : Rows → Option Rows
  | join _ (some left) (some right) => some (joined {} left right)
  | _ => none

theorem exists_of_not_isVoid {operand : Option Rows} (h : isVoid operand = false) :
    ∃ rows, operand = some rows ∧ rows.isEmptyJoin = false := by
  cases operand with
  | none => cases h
  | some rows => exact ⟨rows, rfl, h⟩

/-- A join that is not empty and in which nothing is broken has two operands like that. -/
theorem operands_of_not_hasBroken {spec : JoinSpec} {left right : Option Rows}
    (he : (join spec left right).isEmptyJoin = false)
    (h : (join spec left right).hasBroken = false) :
    ∃ l r, left = some l ∧ right = some r ∧ l.isEmptyJoin = false ∧ r.isEmptyJoin = false ∧
      l.hasBroken = false ∧ r.hasBroken = false := by
  rw [hasBroken_join, isBroken, he, Bool.or_eq_false_iff, Bool.or_eq_false_iff] at h
  obtain ⟨hvoid, hl, hr⟩ := h
  obtain ⟨hvl, hvr⟩ := Bool.or_eq_false_iff.mp hvoid
  obtain ⟨l, rfl, hle⟩ := exists_of_not_isVoid hvl
  obtain ⟨r, rfl, hre⟩ := exists_of_not_isVoid hvr
  exact ⟨l, r, rfl, rfl, hle, hre, hl, hr⟩

theorem collapse_of_not_hasBroken {rows : Rows} (h : rows.hasBroken = false) :
    rows.collapse = ⟨rows.stripped, false⟩ := by
  induction rows using shape_induct with
  | leaf rows hleaf =>
    rw [collapse_leaf hleaf]
    cases rows with
    | scan | offset | distinct | values => rfl
    | select | project | join | limit => cases hleaf
  | wrapper w input _ =>
    rw [hasBroken_over, ← collapse_applied] at h
    rw [collapse_over, rewrap_of_not_applied _ h]
    cases w <;> rfl
  | join spec left right =>
    cases he : (join spec left right).isEmptyJoin with
    | true =>
      obtain ⟨_, hspec⟩ := isEmptyJoin_iff.mp he
      rw [hspec]
      rfl
    | false =>
      -- neither operand is void, so both are kept as they are
      obtain ⟨l, r, rfl, rfl, hle, hre, hl, hr⟩ := operands_of_not_hasBroken he h
      have left_kept := collapseOperand_of_not_applied hle ((collapse_applied l).trans hl)
      have right_kept := collapseOperand_of_not_applied hre ((collapse_applied r).trans hr)
      rw [collapse_join he, left_kept, right_kept]
      rfl

theorem stripped_eq_some_iff {rows tree : Rows} : rows.stripped = some tree ↔
    ∃ spec left right, rows = joined spec left right ∧ tree = joined {} left right := by
  constructor
  · intro h
    unfold stripped at h
    split at h
    · next spec left right => exact ⟨spec, left, right, rfl, (Option.some.inj h).symm⟩
    · cases h
  · rintro ⟨spec, left, right, rfl, rfl⟩
    rfl

/-! ### All outcomes -/

/-- **The outcome of the collapse can be read off the row source.**  The flag is set exactly if a
join in the region is broken; the root vanishes exactly if it is a join, not empty, in a tree of
joins only; a tree without the flag is exactly what a join of two operands gives in which nothing is
broken, and then it is that join with nothing said beside its operands; and there is neither tree
nor flag otherwise. -/
theorem collapse_outcomes (rows : Rows) :
    (rows.collapse.applied = true ↔ ∃ node ∈ rows.region, node.isBroken = true) ∧
    (rows.collapse = ⟨none, true⟩ ↔
      rows.isJoin = true ∧ rows.isEmptyJoin = false ∧ ∀ node ∈ rows.nodes, node.isJoin = true) ∧
    ((∃ tree, rows.collapse = ⟨some tree, false⟩) ↔
      (∃ spec left right, rows = joined spec left right) ∧
        ∀ node ∈ rows.region, node.isBroken = false) ∧
    (∀ spec left right tree, rows = joined spec left right → rows.collapse = ⟨some tree, false⟩ →
      tree = joined { kind := .unspecified, natural := false, filter := none } left right) ∧
    ((∀ node ∈ rows.region, node.isBroken = false) →
      (∀ spec left right, rows ≠ joined spec left right) → rows.collapse = ⟨none, false⟩) := by
  have tree_of_eq : ∀ {tree}, rows.collapse = ⟨some tree, false⟩ →
      rows.hasBroken = false ∧ rows.stripped = some tree := by
    intro tree h
    have sound : rows.hasBroken = false := by rw [← collapse_applied, h]
    rw [collapse_of_not_hasBroken sound] at h
    exact ⟨sound, congrArg Outcome.tree h⟩
  refine ⟨?_, ?_, ⟨?_, ?_⟩, ?_, ?_⟩
  · rw [collapse_applied, hasBroken_eq_true_iff]
  · -- an empty join is a tree of joins only, too, but it does not vanish
    cases he : rows.isEmptyJoin with
    | true => simp [collapse_emptyJoin he, Outcome.untouched]
    | false =>
      rw [collapse_eq_vanished_iff he]
      constructor
      · intro h
        exact ⟨isJoin_of_onlyJoins h, rfl, List.all_eq_true.mp h⟩
      · rintro ⟨-, -, h⟩
        exact List.all_eq_true.mpr h
  · rintro ⟨tree, h⟩
    obtain ⟨sound, htree⟩ := tree_of_eq h
    obtain ⟨spec, left, right, hrows, -⟩ := stripped_eq_some_iff.mp htree
    exact ⟨⟨spec, left, right, hrows⟩, hasBroken_eq_false_iff.mp sound⟩
  · rintro ⟨⟨spec, left, right, rfl⟩, sound⟩
    exact ⟨_, collapse_of_not_hasBroken (hasBroken_eq_false_iff.mpr sound)⟩
  · rintro spec left right tree rfl h
    exact (Option.some.inj (tree_of_eq h).2).symm
  · intro sound not_joined
    rw [collapse_of_not_hasBroken (hasBroken_eq_false_iff.mpr sound)]
    cases htree : rows.stripped with
    | none => rfl
    | some tree =>
      obtain ⟨spec, left, right, hrows, -⟩ := stripped_eq_some_iff.mp htree
      exact absurd hrows (not_joined spec left right)

/-- A left join of two tables is handed back as a plain join, and an empty join below a selection is
left alone. -/
theorem collapse_outcomes_sound :
    (∃ tree, (joined { kind := .left } (plainScan "a") (plainScan "b")).collapse =
      ⟨some tree, false⟩ ∧ tree = joined {} (plainScan "a") (plainScan "b")) ∧
    (select none (join {} none none)).collapse = ⟨none, false⟩ := by
  have left_join := collapse_outcomes (joined { kind := .left } (plainScan "a") (plainScan "b"))
  have empty_join := collapse_outcomes (select none (join {} none none))
  obtain ⟨tree, h⟩ := left_join.2.2.1.mpr ⟨⟨_, _, _, rfl⟩, hasBroken_eq_false_iff.mp rfl⟩
  refine ⟨⟨tree, h, left_join.2.2.2.1 _ _ _ tree rfl h⟩, ?_⟩
  exact empty_join.2.2.2.2 (hasBroken_eq_false_iff.mp rfl) nofun

end SqlPlan.Plan.Rows
