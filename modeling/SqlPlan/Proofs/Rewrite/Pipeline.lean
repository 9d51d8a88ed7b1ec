import Mathlib.Data.List.Induction
import SqlPlan.Compiler
import SqlPlan.Rewrite.Prune

/-!
# The pipeline of rules

Rules are arbitrary functions, and which of the four outcomes a rule has may depend on the command
that it is given, hence on all rules before it.  What a run does is told by its *turns*, each of
which is a rule with the command that is given to it (`Rule.turns`).

A turn replaces the command or leaves it as it is, and those that replace it make up the run.
Without the other rules the result is the same (`Rule.runAll_replacing`), and it is the tree of the
last turn that has one to give (`Rule.runAll_eq_getLastD`).  The command that a turn leaves is all
that the next one knows of the turns before it, so a run over two lists of rules is a run over the
first and then one over the second (`Rule.runAll_append`).

Whatever the steps that built it, a compiler runs the rules of its steps in the order of the steps.
They are given the lowered command, and an explanation is put around what they leave
(`Compiler.compile_runs_rules_in_order`).
-/

namespace SqlPlan

open Plan (Command)
open Sql (Statement StatementKind)

namespace Rule

/-! ### Turns -/

/-- A rule that has its turn, with the command that it is given. -/
structure Turn where
  rule : Rule
  given : Command

/-- The tree that replaces the command.  There is none unless the rule both applied and left one. -/
def Turn.tree? (turn : Turn) : Option Command :=
  match turn.rule.rewrite turn.given with
  | ⟨some tree, true⟩ => some tree
  | ⟨some _, false⟩ => none
  | ⟨none, true⟩ => none
  | ⟨none, false⟩ => none

/-- Whether the command is replaced. -/
def Turn.replaces (turn : Turn) : Bool := turn.tree?.isSome

/-- The turns of some rules, the first of which is given the command. -/
def turns : List Rule → Command → List Turn
  | [], _ => []
  | rule :: rules, c => ⟨rule, c⟩ :: turns rules (rule.step c)

/-- The command after a turn is the tree of that turn, if it has one. -/
theorem step_eq (rule : Rule) (c : Command) : rule.step c = (Turn.tree? ⟨rule, c⟩).getD c := by
  rw [step, Turn.tree?]
  rcases rule.rewrite c with ⟨_ | tree, _ | _⟩ <;> rfl

theorem step_of_tree? {rule : Rule} {c tree : Command} (h : Turn.tree? ⟨rule, c⟩ = some tree) :
    rule.step c = tree := by
  rw [step_eq, h, Option.getD_some]

theorem step_of_tree?_eq_none {rule : Rule} {c : Command} (h : Turn.tree? ⟨rule, c⟩ = none) :
    rule.step c = c := by
  rw [step_eq, h, Option.getD_none]

theorem runAll_cons (rule : Rule) (rules : List Rule) (c : Command) :
    runAll (rule :: rules) c = runAll rules (rule.step c) := rfl

theorem runAll_append (rules rules' : List Rule) (c : Command) :
    runAll (rules ++ rules') c = runAll rules' (runAll rules c) :=
  List.foldl_append

/-- Each rule has one turn, and is given what the rules before it leave. -/
theorem getElem?_turns (rules : List Rule) (c : Command) (i : Nat) :
    (turns rules c)[i]? = rules[i]?.map fun rule => ⟨rule, runAll (rules.take i) c⟩ := by
  induction rules generalizing c i with
  | nil => rfl
  | cons rule rules ih =>
    cases i with
    | zero => rfl
    | succ i => exact ih (rule.step c) i

theorem map_rule_turns (rules : List Rule) (c : Command) :
    (turns rules c).map Turn.rule = rules := by
  induction rules generalizing c with
  | nil => rfl
  | cons rule rules ih => rw [turns, List.map_cons, ih]

/-! ### The result of a run -/

theorem runAll_replacing (rules : List Rule) (c : Command) :
    runAll (((turns rules c).filter Turn.replaces).map Turn.rule) c = runAll rules c := by
  induction rules generalizing c with
  | nil => rfl
  | cons rule rules ih =>
    rw [turns, List.filter_cons, Turn.replaces, runAll_cons]
    cases h : Turn.tree? ⟨rule, c⟩ with
    | some tree => exact ih (rule.step c)
    | none =>
      -- the rule left the command alone, so the next one is given the same command without it
      rw [step_of_tree?_eq_none h]
      exact ih c

theorem runAll_eq_getLastD (rules : List Rule) (c : Command) :
    runAll rules c = ((turns rules c).filterMap Turn.tree?).getLastD c := by
  induction rules generalizing c with
  | nil => rfl
  | cons rule rules ih =>
    rw [turns, List.filterMap_cons, runAll_cons, ih]
    cases h : Turn.tree? ⟨rule, c⟩ with
    | some tree => rw [step_of_tree? h, List.getLastD_cons]
    | none => rw [step_of_tree?_eq_none h]

/-- The events of a run are those of its turns. -/
theorem runEvents_eq_flatMap_turns (rules : List Rule) (c : Command) :
    runEvents rules c = (turns rules c).flatMap fun turn => turn.rule.stepEvents turn.given := by
  induction rules generalizing c with
  | nil => rfl
  | cons rule rules ih => rw [runEvents, ih, turns, List.flatMap_cons]

end Rule

namespace Compiler

open Rule (runAll turns Turn)

/-! ### Building a compiler -/

/-- The rules that a step brings. -/
def BuildStep.rules : BuildStep → List Rule
  | rule r => [r]
  | options o => o.rules.map BuiltinRule.rule

theorem rules_ofSteps_concat (steps : List BuildStep) (step : BuildStep) :
    (ofSteps (steps ++ [step])).rules = (ofSteps steps).rules ++ step.rules := by
  rw [ofSteps, List.foldl_append]
  cases step <;> rfl

theorem rules_ofSteps (steps : List BuildStep) :
    (ofSteps steps).rules = steps.flatMap BuildStep.rules := by
  -- each step adds its rules at the end
  induction steps using List.reverseRecOn with
  | nil => rfl
  | append_singleton steps step ih =>
    rw [rules_ofSteps_concat, ih, List.flatMap_append, List.flatMap_singleton]

/-! ### Compiling with rules -/

theorem compile_eq (c : Compiler) (s : Statement) :
    c.compile s = s.kind.lower.map fun lowered =>
      if s.explain.isSome then .explain (runAll c.rules lowered) else runAll c.rules lowered := by
  rw [compile]
  cases s.kind.lower with
  | error d => rfl
  | ok lowered => cases s.explain <;> rfl

theorem events_of_lower {s : Statement} {lowered : Command} (h : s.kind.lower = .ok lowered)
    (c : Compiler) :
    c.events s = s.kind.events ++ Rule.runEvents c.rules lowered ++
      [.compiled (if s.explain.isSome then .explain (runAll c.rules lowered)
        else runAll c.rules lowered)] := by
  rw [events, h, List.append_assoc]
  cases s.explain <;> rfl

/-- **A compiler runs the rules of its steps in order, and explains what they leave.**

The rules of two lists are run one list after the other.  A rule is given what the rules before it
leave; without the rules that do not replace the command at their turn the result is the same; and
the result is the tree of the last rule that has one to give at its turn, or the command itself if
there is no such rule.  A compiler gives the lowered command to the rules of its steps, and puts one
explanation around the result exactly if the statement is marked so.  The mark has no part in the
turns of the rules, nor in what is logged of them. -/
theorem compile_runs_rules_in_order :
    (∀ (rules rules' : List Rule) (c : Command),
      runAll (rules ++ rules') c = runAll rules' (runAll rules c)) ∧
    (∀ (rules : List Rule) (c : Command),
      (∀ i : Nat, (turns rules c)[i]? =
        rules[i]?.map fun rule => ⟨rule, runAll (rules.take i) c⟩) ∧
      runAll (((turns rules c).filter Turn.replaces).map Turn.rule) c = runAll rules c ∧
      runAll rules c = ((turns rules c).filterMap Turn.tree?).getLastD c) ∧
    ∀ (steps : List BuildStep) (k : StatementKind) (mark : Option Sql.Explain),
      let rules := steps.flatMap BuildStep.rules
      let explained := fun tree : Command => if mark.isSome then .explain tree else tree
      (ofSteps steps).compile ⟨mark, k⟩ = k.lower.map (fun c => explained (runAll rules c)) ∧
      ∀ c, k.lower = .ok c →
        (ofSteps steps).events ⟨mark, k⟩ =
          k.events ++ ((turns rules c).flatMap fun turn => turn.rule.stepEvents turn.given) ++
            [.compiled (explained (runAll rules c))] := by
  refine ⟨Rule.runAll_append, fun rules c => ?_, fun steps k mark => ?_⟩
  · exact ⟨Rule.getElem?_turns rules c, Rule.runAll_replacing rules c,
      Rule.runAll_eq_getLastD rules c⟩
  · intro rules explained
    have rules_eq : (ofSteps steps).rules = rules := rules_ofSteps steps
    refine ⟨?_, fun c hc => ?_⟩
    · rw [compile_eq, rules_eq]
    · rw [events_of_lower hc, rules_eq, Rule.runEvents_eq_flatMap_turns]

/-- The rule that takes `b` out of a query, one that hands back a tree although it did not apply,
the rules of a configuration, and one that leaves nothing. -/
def mixedSteps : List BuildStep :=
  [.rule (.prune "b"), .rule (.fixed "idle" none ⟨some (.query .noRows), false⟩),
    .options { rules := [.halfJoinElimination] }, .rule (.fixed "eraser" none ⟨none, true⟩)]

/-- `SELECT * FROM a, b` -/
def crossQuery : StatementKind := .select (.ofClause {
  columns := [.star]
  source := some (.tables [.table (.ofName "a"), .table (.ofName "b")]) })

/-- The column of `SELECT *`. -/
def starColumn : Plan.Column := { value := .literal "*" }

theorem compile_runs_rules_in_order_mixed :
    let lowered : Command := .query (.project [starColumn]
      (.joined { kind := .cross } (.plainScan "a") (.plainScan "b")))
    let pruned : Command := .query (.project [starColumn]
      (.join { kind := .cross } (some (.plainScan "a")) none))
    let final : Command := .query (.project [starColumn] (.plainScan "a"))
    crossQuery.lower = .ok lowered ∧
    (ofSteps mixedSteps).compile ⟨some {}, crossQuery⟩ = .ok (.explain final) ∧
    (ofSteps mixedSteps).events ⟨some {}, crossQuery⟩ =
      [.ruleApplied "prune-b", .before lowered, .after pruned, .notApplicable "idle",
        .halfJoinReplaced (.plainScan "a"), .ruleApplied "half-join-elimination", .before pruned,
        .after final, .treeRemoved "eraser", .compiled (.explain final)] := by
  intro lowered pruned final
  obtain ⟨compile_eq, events_eq⟩ := compile_runs_rules_in_order.2.2 mixedSteps crossQuery (some {})
  exact ⟨rfl, compile_eq, events_eq lowered rfl⟩

end Compiler

end SqlPlan
