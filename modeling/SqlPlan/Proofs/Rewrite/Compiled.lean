import SqlPlan.Compiler
import SqlPlan.Proofs.Lowering.Image
import SqlPlan.Proofs.Rewrite.Collapse
import SqlPlan.Rewrite.Prune

/-!
# Compiled plans have no half joins

Clearing half joins does nothing to a plan fresh from lowering: it hands back no tree and does not
count as applied.  In a tree of joins that have both their operands there is nothing to clear, and
above such a tree a query always has a projection, which passes on no tree either.

So the rule may stand any number of times at the head of a compiler's rules without making a
difference, and since a configuration can ask for no other rule, no configuration makes a
difference to what is compiled (`Compiler.compile_ignores_halfJoinElimination`).
-/

namespace SqlPlan

namespace Plan

/-! ### Lowered plans are left alone -/

namespace Rows

/-- In a tree of joins with both their operands no join is half and none is empty.  The rewrite
still hands back a tree for a join, but one that does not count. -/
theorem JoinTree.not_applied {rows : Rows} (h : rows.JoinTree) :
    rows.isEmptyJoin = false ∧ rows.collapse.applied = false := by
  induction h with
  | scan _ => exact ⟨rfl, rfl⟩
  | join _ _ _ ihl ihr =>
    refine ⟨rfl, ?_⟩
    -- both operands stay, so the join is built anew and only the flag tells that nothing happened
    rw [collapse_join rfl, collapseOperand_of_not_applied ihl.1 ihl.2,
      collapseOperand_of_not_applied ihr.1 ihr.2]
    rfl

theorem ClauseSource.not_applied {rows : Rows} (h : rows.ClauseSource) :
    rows.collapse.applied = false := by
  cases h with
  | joinTree hrows => exact hrows.not_applied.2
  | singleRow => rfl

theorem ClauseInput.not_applied {rows : Rows} (h : rows.ClauseInput) :
    rows.collapse.applied = false := by
  cases h with
  | unfiltered hrows => exact hrows.not_applied
  | filtered _ hrows => rw [collapse, rewrap_applied, hrows.not_applied]

theorem CorePlan.collapse_eq {rows : Rows} (h : rows.CorePlan) : rows.collapse = .untouched := by
  cases h with
  | values _ _ => rfl
  | project _ hinput => rw [collapse, rewrap_of_not_applied _ hinput.not_applied]
  | distinct _ _ => rfl

theorem SelectPlan.collapse_eq {rows : Rows} (h : rows.SelectPlan) :
    rows.collapse = .untouched := by
  cases h with
  | core hcore => exact hcore.collapse_eq
  | limit _ hcore => rw [collapse, hcore.collapse_eq]; rfl
  | limitOffset _ _ _ => rfl

end Rows

theorem Command.Lowered.collapse_eq {c : Command} (h : c.Lowered) : c.collapse = .untouched := by
  cases h with
  | query plan => rw [collapse, plan.collapse_eq]; rfl
  | insert _ _ => rfl
  | update _ _ _ => rfl
  | delete _ _ => rfl
  | drop _ _ => rfl

end Plan

/-! ### The rule among others -/

/-- A configuration is a number of copies of the one rule it can ask for. -/
theorem Options.rules_eq_replicate (o : Options) :
    o.rules.map BuiltinRule.rule = List.replicate o.rules.length Rule.halfJoinElimination := by
  refine List.eq_replicate_iff.mpr ⟨List.length_map _, ?_⟩
  intro rule hrule
  obtain ⟨kind, -, rfl⟩ := List.mem_map.mp hrule
  cases kind
  rfl

namespace Compiler

open Plan (Command Rows)
open Sql (Select Statement StatementKind)

theorem compile_replicate_halfJoinElimination (s : Statement) (n : ℕ) (rules : List Rule) :
    (Compiler.mk (List.replicate n .halfJoinElimination ++ rules)).compile s =
      (Compiler.mk rules).compile s := by
  unfold compile
  cases h : s.kind.lower with
  | error d => rfl
  | ok c =>
    have untouched := (StatementKind.lowered_of_lower h).collapse_eq
    have kept := Rule.step_halfJoinElimination_of_untouched untouched
    show Except.ok _ = Except.ok _
    rw [Rule.runAll_replicate_append kept]

theorem compile_ofOptions (o : Options) (s : Statement) :
    (ofOptions o).compile s = (Compiler.mk []).compile s := by
  have rules_eq : ofOptions o = ⟨List.replicate o.rules.length .halfJoinElimination ++ []⟩ := by
    rw [List.append_nil, ← o.rules_eq_replicate]
    rfl
  rw [rules_eq, compile_replicate_halfJoinElimination]

/-- **Clearing half joins makes no difference to a compiled statement.**  It leaves every lowered
command alone, any number of times in front of any other rules; so no configuration matters to what
is compiled. -/
theorem compile_ignores_halfJoinElimination :
    (∀ (k : StatementKind) (c : Command), k.lower = .ok c → c.collapse = ⟨none, false⟩) ∧
    (∀ (s : Statement) (n : ℕ) (rules : List Rule),
      (Compiler.mk (List.replicate n .halfJoinElimination ++ rules)).compile s =
        (Compiler.mk rules).compile s) ∧
    ∀ (s : Statement) (o o' : Options), (ofOptions o).compile s = (ofOptions o').compile s := by
  refine ⟨?_, compile_replicate_halfJoinElimination, ?_⟩
  · intro k c h
    exact (StatementKind.lowered_of_lower h).collapse_eq
  · intro s o o'
    rw [compile_ofOptions, compile_ofOptions]

/-- `SELECT * FROM a LEFT JOIN b ON c` -/
def leftJoinQuery : Select := .ofClause {
  columns := [.star]
  source := some (.join (.table (.ofName "a"))
    [⟨.join false (some .left), .table (.ofName "b"), some (.condition (.literal "c"))⟩]) }

/-- The rows of `SELECT * FROM a LEFT JOIN b ON c`. -/
def leftJoinPlan : Rows :=
  .project [{ value := .literal "*" }]
    (.joined { kind := .left, filter := some (.literal "c") } (.plainScan "a") (.plainScan "b"))

/-- A left join keeps its kind and its condition, both of which clearing it would drop. -/
theorem compile_ignores_halfJoinElimination_leftJoin :
    (StatementKind.select leftJoinQuery).lower = .ok (.query leftJoinPlan) ∧
    (Command.query leftJoinPlan).collapse = ⟨none, false⟩ :=
  ⟨rfl, compile_ignores_halfJoinElimination.1 (.select leftJoinQuery) _ rfl⟩

end Compiler

end SqlPlan
