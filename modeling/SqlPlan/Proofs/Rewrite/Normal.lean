import Mathlib.Data.Nat.Notation
import SqlPlan.Proofs.Rewrite.Region
import SqlPlan.Rewrite.Prune

/-!
# Normal form

Each rule has its turn once, so the collapse of half joins has to be done after a single pass.  It
is: what the rewrite puts in place of a row source has no broken join in its region, so a second
pass finds nothing to do (`Rows.collapse_reaches_normal_form`).

What carries the proof is that the new tree is never an empty join itself.  A join that is built
anew has operands of this kind only, hence it is not broken, and a survivor that moves up to become
the operand of a join further above does not break that one either.  Empty joins are left in one
place alone, right below a wrapper, where nothing asks for their rows to be paired with others.
-/

namespace SqlPlan.Plan.Rows

/-! ### The invariant -/

/-- A tree in which nothing is broken and that breaks no join of which it is an operand. -/
structure Clear (rows : Rows) : Prop where
  not_empty : rows.isEmptyJoin = false
  sound : rows.hasBroken = false

theorem Clear.over (w : Wrapper) {input : Rows} (h : input.hasBroken = false) :
    (w.over input).Clear where
  not_empty := by cases w <;> rfl
  sound := by rw [hasBroken_over, h]

theorem Clear.joined {left right : Rows} (hl : left.Clear) (hr : right.Clear) :
    (joined {} left right).Clear where
  not_empty := rfl
  sound := by
    have not_broken : (Rows.joined {} left right).isBroken = false := by
      show (isVoid (some left) || isVoid (some right)) = false
      exact Bool.or_eq_false_iff.mpr ⟨hl.not_empty, hr.not_empty⟩
    have operands_sound := Bool.or_eq_false_iff.mpr ⟨hl.sound, hr.sound⟩
    exact (hasBroken_join ..).trans (Bool.or_eq_false_iff.mpr ⟨not_broken, operands_sound⟩)

theorem clear_remains {left right : Option Rows} (hl : ∀ l ∈ left, l.Clear)
    (hr : ∀ r ∈ right, r.Clear) : ∀ rows ∈ remains left right, rows.Clear := by
  match left, right with
  | none, none => exact nofun
  | some l, none =>
    rintro _ ⟨⟩
    exact hl l rfl
  | none, some r =>
    rintro _ ⟨⟩
    exact hr r rfl
  | some l, some r =>
    rintro _ ⟨⟩
    exact (hl l rfl).joined (hr r rfl)

/-- What remains of an operand is clear, whether or not the rewrite applied to it. -/
theorem clear_collapseOperand {operand : Option Rows}
    (ih : ∀ rows ∈ operand, rows.collapse.applied = true → ∀ t ∈ rows.collapse.tree, t.Clear) :
    ∀ t ∈ (collapseOperand operand).tree, t.Clear := by
  intro t ht
  cases operand with
  | none => cases ht
  | some rows =>
    rcases collapseOperand_cases rows with ⟨he, h⟩ | ⟨he, ha, h⟩ | ⟨he, ha, h⟩
    · rw [h] at ht
      cases ht
    · rw [h] at ht
      exact ih rows rfl ha t ht
    · rw [h] at ht
      obtain rfl : rows = t := Option.some.inj ht
      exact ⟨he, (collapse_applied rows).symm.trans ha⟩

theorem clear_collapse {rows : Rows} (h : rows.collapse.applied = true) :
    ∀ t ∈ rows.collapse.tree, t.Clear := by
  induction rows using shape_induct with
  | leaf rows hleaf =>
    rw [collapse_leaf hleaf] at h
    cases h
  | wrapper w input ih =>
    rw [collapse_over, rewrap_applied] at h
    rw [collapse_over, rewrap_of_applied _ h]
    intro t ht
    cases ht
    -- the input is clear if it is still there, and otherwise it is a source without rows
    cases hi : input.collapse.tree with
    | none => exact .over w rfl
    | some t => exact .over w (ih h t hi).sound
  | join spec left right ihl ihr =>
    rw [collapse_applied] at h
    rw [collapse_join (not_emptyJoin_of_hasBroken h), rejoin_tree]
    exact clear_remains (clear_collapseOperand ihl) (clear_collapseOperand ihr)

/-! ### Where empty joins are left -/

/-- A join with at most one operand. -/
def lacksOperand : Rows → Bool
  | join _ left right => left.isNone || right.isNone
  | _ => false

theorem isEmptyJoin_of_lacksOperand {rows : Rows} (h : rows.lacksOperand = true)
    (sound : rows.isBroken = false) : rows.isEmptyJoin = true := by
  cases rows with
  | join spec left right =>
    cases left <;> cases right <;> simp_all [lacksOperand, isBroken, isEmptyJoin, isVoid]
  | scan | select | project | limit | offset | distinct | values => cases h

/-- An empty join breaks the join of which it is an operand. -/
theorem isBroken_of_mem_children {spec : JoinSpec} {left right : Option Rows} {node : Rows}
    (h : node ∈ (join spec left right).children) (he : node.isEmptyJoin = true) :
    (join spec left right).isBroken = true := by
  have void : isVoid (some node) = true := he
  rcases List.mem_append.mp h with hl | hr
  · rw [Option.mem_toList.mp hl, isBroken, void, Bool.true_or, Bool.and_true]
    rfl
  · rw [Option.mem_toList.mp hr, isBroken, void, Bool.or_true, Bool.and_true]
    cases left <;> rfl

/-- A node that stands below wrappers in the region of a tree, and nowhere else. -/
def StandsBelowWrappers (tree node : Rows) : Prop :=
  (∃ w : Wrapper, w.over node ∈ tree.region) ∧
    ∀ parent ∈ tree.region, node ∈ parent.children → ∃ w : Wrapper, parent = w.over node

theorem Clear.standsBelowWrappers {tree node : Rows} (h : tree.Clear) (hnode : node ∈ tree.region)
    (he : node.isEmptyJoin = true) : tree.StandsBelowWrappers node := by
  have parent_wraps : ∀ parent ∈ tree.region, node ∈ parent.children →
      ∃ w : Wrapper, parent = w.over node := by
    intro parent hparent hchild
    induction parent using shape_induct with
    | leaf parent hleaf =>
      rw [children_leaf hleaf] at hchild
      cases hchild
    | wrapper w input =>
      rw [children_over, List.mem_singleton] at hchild
      exact ⟨w, by rw [hchild]⟩
    | join spec left right =>
      have broken := isBroken_of_mem_children hchild he
      rw [hasBroken_eq_false_iff.mp h.sound _ hparent] at broken
      cases broken
  refine ⟨?_, parent_wraps⟩
  -- the node is not the root, so it has a parent
  rcases (Relation.ReflTransGen.cases_tail_iff _ _ _).mp (mem_region_iff.mp hnode) with
    rfl | ⟨parent, reach, hchild⟩
  · rw [h.not_empty] at he
    cases he
  · have hparent := mem_region_iff.mpr reach
    obtain ⟨w, rfl⟩ := parent_wraps parent hparent hchild
    exact ⟨w, hparent⟩

end SqlPlan.Plan.Rows

/-! ### One pass is enough -/

namespace SqlPlan.Rule

open Plan (Rows Command)

theorem step_halfJoinElimination_step (c : Command) :
    halfJoinElimination.step (halfJoinElimination.step c) = halfJoinElimination.step c := by
  cases c with
  | query rows =>
    rw [step_halfJoinElimination_query rows]
    rcases hc : rows.collapse with ⟨_ | t, _ | _⟩
    case some.true =>
      have clear : t.Clear := Rows.clear_collapse (by rw [hc]) t (by rw [hc]; rfl)
      show halfJoinElimination.step (.query t) = .query t
      rw [step_halfJoinElimination_query, Outcome.replacement, Rows.collapse_applied, clear.sound]
      rfl
    -- in all other cases the rows were kept, and the second turn is the first one again
    all_goals
      show halfJoinElimination.step (.query rows) = .query rows
      rw [step_halfJoinElimination_query, hc]
      rfl
  | explain | insert | update | delete | drop => rfl

/-- The rule may have any number of further turns. -/
theorem runAll_replicate_succ_halfJoinElimination (c : Command) (n : ℕ) :
    runAll (List.replicate (n + 1) halfJoinElimination) c = halfJoinElimination.step c := by
  have rest := runAll_replicate_append (step_halfJoinElimination_step c) n []
  rw [List.append_nil] at rest
  exact rest

end SqlPlan.Rule

namespace SqlPlan.Plan.Rows

/-- **Collapsing half joins is done after one pass.**  The tree it leaves is not an empty join, has
no broken join in its region, and holds joins that lack an operand only as empty ones right below
wrappers; the rewrite does not apply to it again.  For every command, any number of turns of the
rule, but at least one, come to the same as a single turn, and a query whose root would vanish is
kept through all of them. -/
theorem collapse_reaches_normal_form :
    (∀ rows t : Rows, rows.collapse = ⟨some t, true⟩ →
      t.isEmptyJoin = false ∧
      (∀ node ∈ t.region, node.isBroken = false) ∧
      (∀ node ∈ t.region, node.lacksOperand = true →
        node.isEmptyJoin = true ∧ t.StandsBelowWrappers node) ∧
      t.collapse.applied = false) ∧
    (∀ (c : Command) (n : ℕ), 1 ≤ n →
      Rule.runAll (List.replicate n .halfJoinElimination) c =
        Rule.runAll [.halfJoinElimination] c) ∧
    ∀ (rows : Rows) (n : ℕ), rows.collapse = ⟨none, true⟩ →
      Rule.runAll (List.replicate n .halfJoinElimination) (.query rows) = .query rows := by
  refine ⟨?_, ?_, ?_⟩
  · intro rows t h
    have clear : t.Clear := clear_collapse (by rw [h]) t (by rw [h]; rfl)
    have not_broken := hasBroken_eq_false_iff.mp clear.sound
    refine ⟨clear.not_empty, not_broken, ?_, (collapse_applied t).trans clear.sound⟩
    intro node hnode lacking
    have empty := isEmptyJoin_of_lacksOperand lacking (not_broken node hnode)
    exact ⟨empty, clear.standsBelowWrappers hnode empty⟩
  · intro c n hn
    obtain ⟨m, rfl⟩ := Nat.exists_eq_add_of_le' hn
    rw [Rule.runAll_replicate_succ_halfJoinElimination]
    rfl
  · intro rows n h
    have kept : Rule.halfJoinElimination.step (.query rows) = .query rows := by
      rw [Rule.step_halfJoinElimination_query, h]
      rfl
    have turns := Rule.runAll_replicate_append kept n []
    rw [List.append_nil] at turns
    exact turns

/-- A join of a half join and of a limit above an empty join. -/
def damaged : Rows :=
  select none (join { kind := .left } (some (join {} none (some (plainScan "a"))))
    (some (limit (.literal "1") (join {} none none))))

/-- The join of what is left of the two; the empty join stays, since it stands below the limit. -/
def repaired : Rows :=
  select none (joined {} (plainScan "a") (limit (.literal "1") (join {} none none)))

theorem collapse_reaches_normal_form_damaged :
    (damaged.collapse = ⟨some repaired, true⟩ ∧ repaired.collapse.applied = false) ∧
    (join {} none none ∈ repaired.region ∧ repaired.StandsBelowWrappers (join {} none none)) ∧
    (1 ≤ 3 ∧ Rule.runAll (List.replicate 3 .halfJoinElimination) (.query damaged) =
      Rule.runAll [.halfJoinElimination] (.query damaged) ∧
      Rule.runAll [.halfJoinElimination] (.query damaged) = .query repaired) ∧
    (join {} (some (join {} none none)) none).collapse = ⟨none, true⟩ ∧
    Rule.runAll (List.replicate 2 .halfJoinElimination)
      (.query (join {} (some (join {} none none)) none)) =
      .query (join {} (some (join {} none none)) none) := by
  have normal := collapse_reaches_normal_form.1 damaged repaired rfl
  have kept : join {} none none ∈ repaired.region := by
    simp [repaired, joined, region, operandRegion]
  refine ⟨⟨rfl, normal.2.2.2⟩, ⟨kept, (normal.2.2.1 _ kept rfl).2⟩, ⟨by decide, ?_, rfl⟩, rfl, ?_⟩
  · exact collapse_reaches_normal_form.2.1 _ 3 (by decide)
  · exact collapse_reaches_normal_form.2.2 _ 2 rfl

end SqlPlan.Plan.Rows
