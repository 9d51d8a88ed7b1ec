import SqlPlan.Event

/-!
# Rules

A rule rewrites a whole command.  Rules are arbitrary functions: nothing is asked of them, and the
pipeline below makes sense of every outcome.

An outcome is a tree together with a flag that says whether the rule applied, and all four
combinations occur.  Only an applied rule with a tree replaces the command.  A rule that did not
apply is passed over even if it hands back a tree, and one that applied but left no tree is passed
over with a warning, since a command cannot vanish.
-/

namespace SqlPlan

open Plan (Command)

/-- What comes of rewriting a tree. -/
structure Outcome (α : Type) where
  tree : Option α
  applied : Bool
deriving DecidableEq

namespace Outcome

/-- There was nothing to do. -/
def untouched : Outcome α := ⟨none, false⟩

/-- The outcome for a tree that holds the rewritten one. -/
def map (f : α → β) (o : Outcome α) : Outcome β := ⟨o.tree.map f, o.applied⟩

/-- The tree that takes the place of the old one. -/
def replacement (o : Outcome α) : Option α := if o.applied then o.tree else none

/-- The outcome itself if the rewrite applied, and otherwise the old tree as it was. -/
def orKeep (o : Outcome α) (old : α) : Outcome α := if o.applied then o else ⟨some old, false⟩

end Outcome

/-- A named rewrite of commands.  A rule that keeps a log says so in `events`. -/
structure Rule where
  name : String
  rewrite : Command → Outcome Command
  events : Command → List Event := fun _ => []

namespace Rule

/-! ### One rule -/

/-- The command after a rule had its turn. -/
def step (rule : Rule) (c : Command) : Command := (rule.rewrite c).replacement.getD c

/-- What the pipeline logs about a rule's outcome. -/
def outcomeEvents (rule : Rule) (c : Command) : List Event :=
  match rule.rewrite c with
  | ⟨some c', true⟩ => [.ruleApplied rule.name, .before c, .after c']
  | ⟨none, true⟩ => [.treeRemoved rule.name]
  | ⟨_, false⟩ => [.notApplicable rule.name]

/-- The events of one rule's turn: its own, then those about its outcome. -/
def stepEvents (rule : Rule) (c : Command) : List Event := rule.events c ++ rule.outcomeEvents c

/-- A rule by its name, which stands in quotes. -/
def description (rule : Rule) : String :=
  "Optimization \x7b name: \"" ++ .ofList (rule.name.toList.flatMap escape) ++ "\" \x7d"
where
  /-- A quote or backslash inside quotes. -/
  escape (c : Char) : List Char := if c = '"' || c = '\\' then ['\\', c] else [c]

/-! ### The pipeline -/

/-- The command after every rule had its turn, once and in order. -/
def runAll (rules : List Rule) (c : Command) : Command := rules.foldl (fun c rule => rule.step c) c

/-- The events of running all rules. -/
def runEvents : List Rule → Command → List Event
  | [], _ => []
  | rule :: rules, c => rule.stepEvents c ++ runEvents rules (rule.step c)

/-! ### Simple rules -/

/-- The rule with a fixed outcome, for every command or for one command only. -/
def fixed (name : String) (only : Option Command) (outcome : Outcome Command) : Rule where
  name := name
  rewrite c := if only.all (· = c) then outcome else .untouched

end Rule

end SqlPlan
