import SqlPlan.Lowering.Statement
import SqlPlan.Options

/-!
# The compiler

A compiler is its list of rules.  It lowers a statement, runs the rules over the command, and wraps
the result if the statement is to be explained, so that rules never see an explanation.
-/

namespace SqlPlan

open Plan (Command)
open Sql (Statement)

/-- A compiler, by the rules that it runs. -/
structure Compiler where
  rules : List Rule := []

namespace Compiler

/-! ### Building a compiler -/

/-- The compiler with one more rule at its end. -/
def withRule (c : Compiler) (rule : Rule) : Compiler := ⟨c.rules ++ [rule]⟩

/-- The compiler with the rules of a configuration at its end. -/
def withOptions (c : Compiler) (o : Options) : Compiler := ⟨c.rules ++ o.rules.map BuiltinRule.rule⟩

/-- The compiler of a configuration. -/
def ofOptions (o : Options) : Compiler := withOptions {} o

/-- A step of building a compiler. -/
inductive BuildStep where
  | rule (rule : Rule)
  | options (options : Options)

/-- The compiler that some steps build, in order. -/
def ofSteps (steps : List BuildStep) : Compiler :=
  steps.foldl (fun c step => match step with
    | .rule r => c.withRule r
    | .options o => c.withOptions o) {}

/-! ### Compiling -/

/-- The command under an explanation, if one is asked for. -/
def explainIf : Option Sql.Explain → Command → Command
  | some _, command => .explain command
  | none, command => command

/-- The command that a statement compiles to. -/
def compile (c : Compiler) (s : Statement) : Except Diagnostic Command := do
  return explainIf s.explain (Rule.runAll c.rules (← s.kind.lower))

/-- The events of compiling a statement. -/
def events (c : Compiler) (s : Statement) : List Event :=
  s.kind.events ++
  match s.kind.lower with
  | .ok command => Rule.runEvents c.rules command ++
    [.compiled (explainIf s.explain (Rule.runAll c.rules command))]
  | .error _ => []

/-! ### Batches -/

/-- What a batch has come to: the commands so far, and the report of what was refused. -/
structure Batch where
  commands : List Command := []
  report : Report := {}

/-- The batch after one more statement, whatever became of those before it. -/
def Batch.add (c : Compiler) (b : Batch) (s : Statement) : Batch :=
  match c.compile s with
  | .ok command => { b with commands := b.commands ++ [command] }
  | .error d => { b with report := b.report.push d }

/-- The commands of all statements, or the diagnostics of all that are refused. -/
def compileAll (c : Compiler) (statements : List Statement) : Except Report (List Command) :=
  let batch := statements.foldl (Batch.add c) {}
  batch.report.toExcept.map fun _ => batch.commands

/-- The events of compiling all statements. -/
def eventsAll (c : Compiler) (statements : List Statement) : List Event :=
  statements.flatMap c.events

end Compiler

end SqlPlan
