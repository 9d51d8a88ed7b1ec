import Mathlib.Data.List.Basic
import SqlPlan.Evaluator

/-!
# Running a script

A script is a list of statements.  It may be *run*, statement by statement, or *compiled as a
batch*.  A run goes on whatever becomes of a statement, and a batch goes on to collect all
diagnostics; the two agree on what each statement compiles to
(`Compiler.executeAll_agrees_with_compileAll`).

What an evaluator is given during a run is seen by recording it.  An evaluator that keeps a record
runs every script as it would without (`Compiler.executeAll_recording`), so the record shows what
the evaluator itself was given: the commands of the statements that compile, each once and in order.

The steps of a run are those of its statements, each from the state that the statements before it
leave behind (`Compiler.executeAll_step`).
-/

namespace SqlPlan

open Plan (Command)
open Sql (Statement)

variable {σ ε α : Type}

/-- The evaluator that also keeps a record of the commands it is given. -/
def Evaluator.recording (e : Evaluator σ ε α) : Evaluator (σ × List Command) ε α where
  evaluate state command :=
    let (inner, result) := e.evaluate state.1 command
    ((inner, state.2 ++ [command]), result)

theorem Report.toExcept_eq (ds : List Diagnostic) :
    toExcept ⟨ds⟩ = if ds = [] then .ok () else .error ⟨ds⟩ := by
  cases ds <;> rfl

namespace Compiler

/-- The diagnostic for which a statement is refused. -/
def refusal? (c : Compiler) (s : Statement) : Option Diagnostic :=
  match c.compile s with
  | .ok _ => none
  | .error d => some d

/-- The diagnostic for which a step of a run was refused before it reached the evaluator. -/
def stepRefusal? : Except (ExecutionError ε) α → Option Diagnostic
  | .error (.compile d) => some d
  | _ => none

/-! ### One statement -/

section Step

variable {c : Compiler} {s : Statement}

theorem execute_of_error {d : Diagnostic} (h : c.compile s = .error d) (e : Evaluator σ ε α)
    (state : σ) : c.execute e state s = (state, .error (.compile d)) := by
  rw [execute, h]

theorem execute_of_ok {command : Command} (h : c.compile s = .ok command) (e : Evaluator σ ε α)
    (state : σ) : c.execute e state s =
      ((e.evaluate state command).1, (e.evaluate state command).2.mapError .evaluate) := by
  rw [execute, h]

/-- An evaluator never reports a refusal of its own: its errors are marked as such. -/
theorem mapError_evaluate_ne (result : Except ε α) (d : Diagnostic) :
    result.mapError ExecutionError.evaluate ≠ .error (.compile d) := by
  cases result with
  | ok a => exact nofun
  | error err =>
    show Except.error (ExecutionError.evaluate err) ≠ _
    exact nofun

theorem execute_eq_refused_iff (e : Evaluator σ ε α) (state : σ) (d : Diagnostic) :
    (c.execute e state s).2 = .error (.compile d) ↔ c.compile s = .error d := by
  cases h : c.compile s with
  | error d' => simp [execute_of_error h]
  | ok command => simp [execute_of_ok h, mapError_evaluate_ne]

theorem stepRefusal?_execute (e : Evaluator σ ε α) (state : σ) :
    stepRefusal? (c.execute e state s).2 = c.refusal? s := by
  unfold refusal?
  cases h : c.compile s with
  | error d => rw [execute_of_error h, stepRefusal?]
  | ok command =>
    rw [execute_of_ok h]
    cases (e.evaluate state command).2 <;> rfl

/-- A statement adds its command to the record, and to nothing else does the record matter. -/
theorem execute_recording (e : Evaluator σ ε α) (state : σ) (record : List Command) :
    c.execute e.recording (state, record) s =
      (((c.execute e state s).1, record ++ (c.compile s).toOption.toList),
        (c.execute e state s).2) := by
  cases h : c.compile s with
  | error d =>
    rw [execute_of_error h, execute_of_error h]
    simp [Except.toOption]
  | ok command =>
    rw [execute_of_ok h, execute_of_ok h]
    rfl

end Step

/-! ### A whole run -/

theorem executeAll_cons (c : Compiler) (e : Evaluator σ ε α) (state : σ) (s : Statement)
    (statements : List Statement) :
    c.executeAll e state (s :: statements) =
      ((c.executeAll e (c.execute e state s).1 statements).1,
        (c.execute e state s).2 :: (c.executeAll e (c.execute e state s).1 statements).2) :=
  rfl

theorem length_executeAll (c : Compiler) (e : Evaluator σ ε α) (state : σ)
    (statements : List Statement) :
    (c.executeAll e state statements).2.length = statements.length := by
  induction statements generalizing state with
  | nil => rfl
  | cons s statements ih => rw [executeAll_cons, List.length_cons, ih, List.length_cons]

/-- Each step of a run is that of its statement, from the state left behind by the statements before
it to the state that the next one finds. -/
theorem executeAll_step (c : Compiler) (e : Evaluator σ ε α) {statements : List Statement} {i : ℕ}
    {s : Statement} (h : statements[i]? = some s) (state : σ) :
    (c.executeAll e state (statements.take (i + 1))).1 =
        (c.execute e (c.executeAll e state (statements.take i)).1 s).1 ∧
      (c.executeAll e state statements).2[i]? =
        some (c.execute e (c.executeAll e state (statements.take i)).1 s).2 := by
  induction statements generalizing i state with
  | nil => cases h
  | cons s' statements ih =>
    cases i with
    | zero =>
      obtain rfl : s' = s := Option.some.inj h
      exact ⟨rfl, rfl⟩
    | succ i =>
      have step := ih h (c.execute e state s').1
      rw [List.take_succ_cons, List.take_succ_cons, executeAll_cons, executeAll_cons,
        executeAll_cons, List.getElem?_cons_succ]
      exact step

/-- A record takes no part in a run, and grows by the commands of the statements that compile. -/
theorem executeAll_recording (c : Compiler) (e : Evaluator σ ε α) (state : σ)
    (record : List Command) (statements : List Statement) :
    c.executeAll e.recording (state, record) statements =
      (((c.executeAll e state statements).1,
          record ++ statements.filterMap fun s => (c.compile s).toOption),
        (c.executeAll e state statements).2) := by
  induction statements generalizing state record with
  | nil => simp [executeAll]
  | cons s statements ih =>
    rw [executeAll_cons, executeAll_cons, execute_recording, ih, List.append_assoc,
      List.filterMap_cons]
    cases (c.compile s).toOption <;> rfl

theorem filterMap_stepRefusal?_executeAll (c : Compiler) (e : Evaluator σ ε α) (state : σ)
    (statements : List Statement) :
    (c.executeAll e state statements).2.filterMap stepRefusal? =
      statements.filterMap c.refusal? := by
  induction statements generalizing state with
  | nil => rfl
  | cons s statements ih =>
    rw [executeAll_cons, List.filterMap_cons, List.filterMap_cons, stepRefusal?_execute, ih]

/-- No step of a run was refused exactly if no refusal is found among the steps. -/
theorem filterMap_stepRefusal?_eq_nil_iff {results : List (Except (ExecutionError ε) α)} :
    results.filterMap stepRefusal? = [] ↔
      ∀ result ∈ results, ∀ d, result ≠ .error (.compile d) := by
  rw [List.filterMap_eq_nil_iff]
  refine forall₂_congr fun result _ => ?_
  rcases result with (d | err) | a <;> simp [stepRefusal?]

/-! ### A batch -/

/-- A statement adds its command to a batch, or its diagnostic. -/
theorem Batch.add_eq (c : Compiler) (b : Batch) (s : Statement) :
    Batch.add c b s = ⟨b.commands ++ (c.compile s).toOption.toList,
      ⟨b.report.diagnostics ++ (c.refusal? s).toList⟩⟩ := by
  unfold add refusal?
  cases c.compile s with
  | ok command => simp [Except.toOption]
  | error d => simp [Except.toOption, Report.push]

theorem Batch.foldl_add (c : Compiler) (b : Batch) (statements : List Statement) :
    statements.foldl (Batch.add c) b =
      ⟨b.commands ++ statements.filterMap fun s => (c.compile s).toOption,
        ⟨b.report.diagnostics ++ statements.filterMap c.refusal?⟩⟩ := by
  induction statements generalizing b with
  | nil => simp
  | cons s statements ih =>
    rw [List.foldl_cons, ih, Batch.add_eq, List.filterMap_cons, List.filterMap_cons]
    cases (c.compile s).toOption <;> cases c.refusal? s <;> simp

/-- A batch succeeds with the commands of its statements unless some are refused, and fails with the
diagnostics of all that are. -/
theorem compileAll_eq (c : Compiler) (statements : List Statement) :
    c.compileAll statements =
      if statements.filterMap c.refusal? = [] then
        .ok (statements.filterMap fun s => (c.compile s).toOption)
      else .error ⟨statements.filterMap c.refusal?⟩ := by
  unfold compileAll
  rw [Batch.foldl_add]
  show (Report.toExcept ⟨statements.filterMap c.refusal?⟩).map _ = _
  rw [Report.toExcept_eq]
  split <;> rfl

/-- **Running a script and compiling it as a batch agree**, for any rules, any evaluator and any
script.

The evaluator is given the commands of the statements that compile, in order and one at a time.  A
step is refused exactly if its statement is, and then leaves the state alone; any other step is what
the evaluator makes of the command in the state it finds.  A batch of the same statements yields the
commands that were given to the evaluator if no step was refused, and otherwise the diagnostics of
all steps that were. -/
theorem executeAll_agrees_with_compileAll (c : Compiler) (e : Evaluator σ ε α) (start : σ)
    (statements : List Statement) :
    let results := (c.executeAll e start statements).2
    let stateAt := fun i => (c.executeAll e start (statements.take i)).1
    let given := (c.executeAll e.recording (start, []) statements).1.2
    (c.executeAll e.recording (start, []) statements =
        (((c.executeAll e start statements).1, given), results) ∧
      given = statements.filterMap fun s => (c.compile s).toOption) ∧
    results.length = statements.length ∧
    (∀ (i : ℕ) (s : Statement), statements[i]? = some s →
      (∀ d, results[i]? = some (.error (.compile d)) ↔ c.compile s = .error d) ∧
      (∀ d, c.compile s = .error d → stateAt (i + 1) = stateAt i) ∧
      ∀ command, c.compile s = .ok command →
        stateAt (i + 1) = (e.evaluate (stateAt i) command).1 ∧
        (∀ a, (e.evaluate (stateAt i) command).2 = .ok a → results[i]? = some (.ok a)) ∧
        ∀ err, (e.evaluate (stateAt i) command).2 = .error err →
          results[i]? = some (.error (.evaluate err)) ∧
          (ExecutionError.evaluate err).isCompileError = false) ∧
    (∀ commands, c.compileAll statements = .ok commands ↔
      (∀ result ∈ results, ∀ d, result ≠ .error (.compile d)) ∧ commands = given) ∧
    ∀ report, c.compileAll statements = .error report ↔
      (∃ result ∈ results, ∃ d, result = .error (.compile d)) ∧
        report.diagnostics = results.filterMap stepRefusal? := by
  intro results stateAt given
  have run : c.executeAll e.recording (start, []) statements =
      (((c.executeAll e start statements).1,
        statements.filterMap fun s => (c.compile s).toOption), results) :=
    c.executeAll_recording e start [] statements
  have given_eq : given = statements.filterMap fun s => (c.compile s).toOption := by
    show (c.executeAll e.recording (start, []) statements).1.2 = _
    rw [run]
  have batch := c.compileAll_eq statements
  rw [← c.filterMap_stepRefusal?_executeAll e start statements, ← given_eq] at batch
  refine ⟨⟨by rw [given_eq, run], given_eq⟩, c.length_executeAll e start statements, ?_, ?_, ?_⟩
  · intro i s hs
    obtain ⟨state_eq, result_eq⟩ := c.executeAll_step e hs start
    refine ⟨?_, ?_, ?_⟩
    · intro d
      rw [result_eq, Option.some_inj, execute_eq_refused_iff]
    · intro d hd
      rw [execute_of_error hd] at state_eq
      exact state_eq
    · intro command hcommand
      rw [execute_of_ok hcommand] at state_eq result_eq
      refine ⟨state_eq, ?_, ?_⟩
      · intro a ha
        rw [ha] at result_eq
        exact result_eq
      · intro err herr
        rw [herr] at result_eq
        exact ⟨result_eq, rfl⟩
  · intro commands
    rw [batch, ← filterMap_stepRefusal?_eq_nil_iff]
    by_cases h : results.filterMap stepRefusal? = []
    · simp [results, h, eq_comm]
    · simp [results, h]
  · intro report
    have refused_iff : (∃ result ∈ results, ∃ d, result = .error (.compile d)) ↔
        results.filterMap stepRefusal? ≠ [] := by
      rw [ne_eq, filterMap_stepRefusal?_eq_nil_iff]
      push Not
      rfl
    rw [batch, refused_iff]
    obtain ⟨diagnostics⟩ := report
    by_cases h : results.filterMap stepRefusal? = []
    · simp [results, h]
    · simp [results, h, eq_comm]

/-- `VALUES (1)`, `PRAGMA p` and `DROP TABLE t` -/
def mixedScript : List Statement :=
  [.ofKind (.select (.ofCore (.values [[.literal "1"]]))), .ofKind (.pragma { name := "p" }),
    .ofKind (.drop { kind := .table, name := { name := "t" } })]

/-- A run goes on after a refused statement, and the evaluator's own error is told from it; the
batch fails for the one statement that was refused. -/
theorem executeAll_agrees_with_compileAll_mixed :
    let results := (executeAll {} Evaluator.scanCounter [] mixedScript).2
    let drop : Command := .drop .table ⟨false, none, "t"⟩
    (mixedScript[1]? = some (.ofKind (.pragma { name := "p" })) ∧
      results[1]? = some (.error (.compile (.unsupported "pragma")))) ∧
    (compile {} (.ofKind (.drop { kind := .table, name := { name := "t" } })) = .ok drop ∧
      results[2]? = some (.error (.evaluate ("cannot evaluate " ++ drop.render)))) ∧
    compileAll {} mixedScript = .error ⟨[.unsupported "pragma"]⟩ := by
  intro results drop
  obtain ⟨-, -, steps, -, batch⟩ :=
    executeAll_agrees_with_compileAll {} Evaluator.scanCounter [] mixedScript
  refine ⟨⟨rfl, ((steps 1 _ rfl).1 _).mpr rfl⟩, ⟨rfl, ?_⟩, (batch _).mpr ?_⟩
  · exact (((steps 2 _ rfl).2.2 drop rfl).2.2 _ rfl).1
  · exact ⟨⟨_, List.mem_of_getElem? (i := 1) rfl, _, rfl⟩, rfl⟩

end Compiler

end SqlPlan
