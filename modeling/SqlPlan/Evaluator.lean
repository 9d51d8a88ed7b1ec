import SqlPlan.Compiler

/-!
# Running statements

An evaluator takes commands one at a time.  What it remembers between them is its state, and nothing
else is known of it.  A statement is run by compiling it and, if that succeeds, handing the command
to the evaluator; a statement that is refused never reaches it.
-/

namespace SqlPlan

open Plan (Command)
open Sql (Statement)

/-- An evaluator with state `σ`, which fails with `ε` or gives an output of type `α`. -/
structure Evaluator (σ ε α : Type) where
  evaluate : σ → Command → σ × Except ε α

/-- Why a statement could not be run. -/
inductive ExecutionError (ε : Type) where
  | compile (diagnostic : Diagnostic)
  | evaluate (error : ε)
deriving DecidableEq

namespace ExecutionError

/-- Whether the statement was refused before it reached the evaluator. -/
def isCompileError : ExecutionError ε → Bool
  | compile _ => true
  | evaluate _ => false

/-- The text of the error, given that of the evaluator's own errors. -/
def text (evaluationText : ε → String) : ExecutionError ε → String
  | compile d => "compile error: " ++ d.text
  | evaluate e => "evaluation error: " ++ evaluationText e

end ExecutionError

namespace Compiler

/-- Runs one statement. -/
def execute (c : Compiler) (e : Evaluator σ ε α) (state : σ) (s : Statement) :
    σ × Except (ExecutionError ε) α :=
  match c.compile s with
  | .error d => (state, .error (.compile d))
  | .ok command =>
    let (state, result) := e.evaluate state command
    (state, result.mapError .evaluate)

/-- Runs some statements one after the other, whatever becomes of each. -/
def executeAll (c : Compiler) (e : Evaluator σ ε α) (state : σ) :
    List Statement → σ × List (Except (ExecutionError ε) α)
  | [] => (state, [])
  | s :: statements =>
    let (state, result) := c.execute e state s
    let (state, results) := c.executeAll e state statements
    (state, result :: results)

end Compiler

/-! ### An evaluator of queries -/

/-- The evaluator that counts the scans of a query and refuses every other command.  It remembers
the text of all commands that it was given. -/
def Evaluator.scanCounter : Evaluator (List String) String Nat where
  evaluate seen command :=
    (seen ++ [command.render],
      match command with
      | .query rows => .ok rows.scanCount
      | _ => .error ("cannot evaluate " ++ command.render))

end SqlPlan
