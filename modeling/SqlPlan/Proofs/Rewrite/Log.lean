import Mathlib.Data.List.Basic
import SqlPlan.Proofs.Rewrite.Pipeline

/-!
# The log of a compilation

What the pipeline logs lets a reader follow a command through the rules.  Each turn leaves one entry
in the log, of one of three kinds, and the entry of a rule that replaced the command shows it before
and after.  These entries are linked: the first one starts from the lowered command, each other one
from where the one before it ended, and the last one ends at the result
(`Compiler.log_links_rewrites`).

The proof keeps log and state of the run in step (`Rule.linked_entries`): the command that a turn is
given is the one at which the entries so far end, since a turn without a tree neither moves the
command nor links anything.

The lines of the lowering stand in front of all that.  They are about joins only, and none of them
could be taken for a line of the pipeline (`Sql.StatementKind.initial_of_mem_log`).
-/

namespace SqlPlan

open Plan (Command)
open Sql (Statement StatementKind)

/-! ### Lines -/

/-- A line of the log. -/
structure LogLine where
  level : Level
  text : String
deriving DecidableEq

/-- The line of an event. -/
def Event.line (e : Event) : LogLine := ⟨e.level, e.message⟩

/-- The log of lowering a statement. -/
def Sql.StatementKind.log (k : StatementKind) : List LogLine := k.events.map Event.line

/-- The log of compiling a statement. -/
def Compiler.log (c : Compiler) (s : Statement) : List LogLine := (c.events s).map Event.line

/-- The letter that a line begins with. -/
def LogLine.initial (line : LogLine) : Option Char := line.text.toList.head?

theorem LogLine.initial_append {level : Level} {text : String} {c : Char}
    (h : initial ⟨level, text⟩ = some c) (rest : String) :
    initial ⟨level, text ++ rest⟩ = some c := by
  have head_eq : text.toList.head? = some c := h
  rw [initial, String.toList_append, List.head?_append, head_eq]
  rfl

/-! ### Entries -/

namespace Rule

/-- What is logged of one turn.  Commands are given by their text. -/
inductive Entry where
  /-- The rule replaced the command. -/
  | applied (rule before after : String)
  /-- The rule applied, but left no tree. -/
  | removed (rule : String)
  /-- The rule did not apply. -/
  | notApplicable (rule : String)

namespace Entry

/-- The name of the rule. -/
def rule : Entry → String
  | applied rule _ _ => rule
  | removed rule => rule
  | notApplicable rule => rule

/-- The lines of an entry. -/
def lines : Entry → List LogLine
  | applied rule before after =>
    [⟨.debug, "Optimization '" ++ rule ++ "' applied"⟩, ⟨.trace, "before: " ++ before⟩,
      ⟨.trace, "after: " ++ after⟩]
  | removed rule =>
    [⟨.warn, "Optimization '" ++ rule ++ "' removed the whole tree, keeping the previous one"⟩]
  | notApplicable rule => [⟨.trace, "Optimization '" ++ rule ++ "' not applicable"⟩]

/-- The texts of the command before and after, if it was replaced. -/
def rewrite? : Entry → Option (String × String)
  | applied _ before after => some (before, after)
  | removed _ => none
  | notApplicable _ => none

theorem initial_of_mem_lines {entry : Entry} {line : LogLine} (h : line ∈ entry.lines) :
    line.initial = some 'O' ∨ line.initial = some 'b' ∨ line.initial = some 'a' := by
  cases entry with
  | applied rule before after =>
    simp only [lines, List.mem_cons, List.not_mem_nil, or_false] at h
    rcases h with rfl | rfl | rfl
    · exact .inl (LogLine.initial_append (LogLine.initial_append rfl _) _)
    · exact .inr (.inl (LogLine.initial_append rfl _))
    · exact .inr (.inr (LogLine.initial_append rfl _))
  | removed rule =>
    rw [List.mem_singleton.mp h]
    exact .inl (LogLine.initial_append (LogLine.initial_append rfl _) _)
  | notApplicable rule =>
    rw [List.mem_singleton.mp h]
    exact .inl (LogLine.initial_append (LogLine.initial_append rfl _) _)

end Entry

/-- The entry of a turn. -/
def Turn.entry (turn : Turn) : Entry :=
  match turn.rule.rewrite turn.given with
  | ⟨some tree, true⟩ => .applied turn.rule.name turn.given.render tree.render
  | ⟨none, true⟩ => .removed turn.rule.name
  | ⟨_, false⟩ => .notApplicable turn.rule.name

/-- The entries of a run. -/
def entries (rules : List Rule) (c : Command) : List Entry := (turns rules c).map Turn.entry

theorem map_line_outcomeEvents (rule : Rule) (c : Command) :
    (rule.outcomeEvents c).map Event.line = (Turn.entry ⟨rule, c⟩).lines := by
  rw [outcomeEvents, Turn.entry]
  rcases rule.rewrite c with ⟨_ | tree, _ | _⟩ <;> rfl

theorem Turn.rule_entry (turn : Turn) : turn.entry.rule = turn.rule.name := by
  rw [Turn.entry]
  split <;> rfl

/-- The rules have one entry each, in order. -/
theorem map_rule_entries (rules : List Rule) (c : Command) :
    (entries rules c).map Entry.rule = rules.map name := by
  have rule_entry : Entry.rule ∘ Turn.entry = name ∘ Turn.rule := funext Turn.rule_entry
  rw [entries, List.map_map, rule_entry, ← List.map_map, map_rule_turns]

/-- Rules that keep no log of their own leave their entries in the log, and nothing else. -/
theorem map_line_runEvents {rules : List Rule} (quiet : ∀ rule ∈ rules, ∀ c, rule.events c = [])
    (c : Command) :
    (runEvents rules c).map Event.line = (entries rules c).flatMap Entry.lines := by
  have step_lines : ∀ turn ∈ turns rules c,
      (turn.rule.stepEvents turn.given).map Event.line = turn.entry.lines := by
    intro turn hturn
    have rule_mem : turn.rule ∈ rules := by
      rw [← map_rule_turns rules c]
      exact List.mem_map_of_mem hturn
    rw [stepEvents, quiet turn.rule rule_mem, List.nil_append, map_line_outcomeEvents]
  rw [runEvents_eq_flatMap_turns, List.map_flatMap, List.flatMap_congr step_lines, entries,
    List.flatMap_map]

/-! ### Links -/

/-- Rewrites that lead from one text to another: each starts where the one before it ended. -/
def Linked : String → List (String × String) → String → Prop
  | start, [], stop => start = stop
  | start, (before, after) :: rewrites, stop => before = start ∧ Linked after rewrites stop

/-- The rewrite that a turn logs goes from the command it is given to the tree it has to give. -/
theorem Turn.rewrite?_entry (turn : Turn) :
    turn.entry.rewrite? = turn.tree?.map fun tree => (turn.given.render, tree.render) := by
  rw [Turn.entry, Turn.tree?]
  rcases turn.rule.rewrite turn.given with ⟨_ | tree, _ | _⟩ <;> rfl

theorem linked_entries (rules : List Rule) (c : Command) :
    Linked c.render ((entries rules c).filterMap Entry.rewrite?) (runAll rules c).render := by
  induction rules generalizing c with
  | nil => rfl
  | cons rule rules ih =>
    rw [entries, turns, List.map_cons, List.filterMap_cons, Turn.rewrite?_entry, runAll_cons]
    cases h : Turn.tree? ⟨rule, c⟩ with
    | some tree =>
      rw [step_of_tree? h]
      exact ⟨rfl, ih tree⟩
    | none =>
      -- nothing is linked, and the next turn starts from the same command
      rw [step_of_tree?_eq_none h]
      exact ih c

end Rule

/-! ### The log of lowering -/

/-- An event of joining a source. -/
def Event.isJoining : Event → Bool
  | joining _ _ => true
  | _ => false

theorem Event.initial_line_of_isJoining {e : Event} (h : e.isJoining = true) :
    e.line.initial = some 'j' := by
  cases e with
  | joining kind natural =>
    have start_initial : LogLine.initial ⟨.trace, "joining "⟩ = some 'j' := rfl
    exact LogLine.initial_append (LogLine.initial_append (LogLine.initial_append
      (LogLine.initial_append start_initial _) _) _) _
  | _ => cases h

namespace Sql

mutual

theorem From.isJoining_of_mem_events : ∀ {clause : From} {e : Event},
    e ∈ clause.events → e.isJoining = true
  | .tables _, _, h => by
    rw [From.events] at h
    exact Source.isJoining_of_mem_eventsAll h
  | .join _ _, _, h => by
    rw [From.events] at h
    rcases List.mem_append.mp h with h | h
    · exact Source.isJoining_of_mem_events h
    · split at h
      · exact JoinPart.isJoining_of_mem_eventsAll h
      · cases h

theorem Source.isJoining_of_mem_events : ∀ {source : Source} {e : Event},
    e ∈ source.events → e.isJoining = true
  | .nested _, _, h => by
    rw [Source.events] at h
    exact From.isJoining_of_mem_events h

theorem Source.isJoining_of_mem_eventsAll : ∀ {sources : List Source} {e : Event},
    e ∈ Source.eventsAll sources → e.isJoining = true
  | _ :: _, _, h => by
    rw [Source.eventsAll] at h
    rcases List.mem_append.mp h with h | h
    · exact Source.isJoining_of_mem_events h
    · split at h
      · exact Source.isJoining_of_mem_eventsAll h
      · cases h

theorem JoinPart.isJoining_of_mem_eventsAll : ∀ {parts : List JoinPart} {e : Event},
    e ∈ JoinPart.eventsAll parts → e.isJoining = true
  | ⟨_, _, _⟩ :: _, _, h => by
    rw [JoinPart.eventsAll] at h
    split at h
    · cases h
    · rcases List.mem_append.mp h with h | h
      · exact Source.isJoining_of_mem_events h
      · split at h
        · rcases List.mem_cons.mp h with rfl | h
          · rfl
          · exact JoinPart.isJoining_of_mem_eventsAll h
        · cases h

end

theorem mem_of_mem_eventsAfter {step : Except Diagnostic α} {events : List Event} {e : Event}
    (h : e ∈ eventsAfter step events) : e ∈ events := by
  cases step with
  | ok a => exact h
  | error d => cases h

theorem Clause.isJoining_of_mem_events {c : Clause} {e : Event} (h : e ∈ c.events) :
    e.isJoining = true := by
  have in_source := mem_of_mem_eventsAfter (mem_of_mem_eventsAfter h)
  rcases hsource : c.source with _ | source
  · rw [hsource] at in_source
    cases in_source
  · rw [hsource] at in_source
    exact From.isJoining_of_mem_events in_source

theorem Core.isJoining_of_mem_events {core : Core} {e : Event} (h : e ∈ core.events) :
    e.isJoining = true := by
  cases core with
  | select clause => exact Clause.isJoining_of_mem_events h
  | values rows => cases h

theorem Select.isJoining_of_mem_events {s : Select} {e : Event} (h : e ∈ s.events) :
    e.isJoining = true :=
  Core.isJoining_of_mem_events (mem_of_mem_eventsAfter (mem_of_mem_eventsAfter h))

theorem InsertSource.isJoining_of_mem_events {source : InsertSource} {e : Event}
    (h : e ∈ source.events) : e.isJoining = true := by
  cases source with
  | query select => exact Select.isJoining_of_mem_events h
  | values rows => cases h
  | defaults => cases h

theorem StatementKind.isJoining_of_mem_events {k : StatementKind} {e : Event} (h : e ∈ k.events) :
    e.isJoining = true := by
  cases k with
  | select query => exact Select.isJoining_of_mem_events h
  | insert write =>
    exact InsertSource.isJoining_of_mem_events (mem_of_mem_eventsAfter (mem_of_mem_eventsAfter h))
  | update | delete | drop => cases h
  | create | alterTable | transaction | vacuum | analyze | pragma => cases h

theorem StatementKind.initial_of_mem_log {k : StatementKind} {line : LogLine} (h : line ∈ k.log) :
    line.initial = some 'j' := by
  obtain ⟨e, he, rfl⟩ := List.mem_map.mp h
  exact Event.initial_line_of_isJoining (isJoining_of_mem_events he)

end Sql

/-! ### The whole log -/

namespace Compiler

open Rule (Entry Linked Turn turns entries runAll)

theorem log_of_lower {s : Statement} {lowered : Command} (h : s.kind.lower = .ok lowered)
    {c : Compiler} (quiet : ∀ rule ∈ c.rules, ∀ command, rule.events command = []) :
    c.log s = s.kind.log ++ (entries c.rules lowered).flatMap Entry.lines ++
      [⟨.debug, "Compiled statement: " ++
        (if s.explain.isSome then .explain (runAll c.rules lowered)
          else runAll c.rules lowered : Command).render⟩] := by
  rw [log, events_of_lower h, List.map_append, List.map_append, Rule.map_line_runEvents quiet]
  rfl

/-- **The log follows the command through the rules.**

For a statement that is lowered, the log of compiling it holds the lines of the lowering, then one
entry for each rule in order, and last the line of the result.  An entry is of the kind that the
outcome of the rule at its turn calls for.  The rewrites that the entries show are linked, from the
lowered command to the result without its explanation.  For a statement that is refused, the log
holds the lines of the lowering alone.  None of these is a line of an entry or that of a result. -/
theorem log_links_rewrites (c : Compiler)
    (quiet : ∀ rule ∈ c.rules, ∀ command, rule.events command = []) (s : Statement) :
    (∀ lowered, s.kind.lower = .ok lowered →
      ∃ (tree result : Command) (entries : List Entry),
        result = (if s.explain.isSome then .explain tree else tree) ∧
        c.compile s = .ok result ∧
        c.log s = s.kind.log ++ entries.flatMap Entry.lines ++
          [⟨.debug, "Compiled statement: " ++ result.render⟩] ∧
        entries.map Entry.rule = c.rules.map Rule.name ∧
        entries = (turns c.rules lowered).map Turn.entry ∧
        Linked lowered.render (entries.filterMap Entry.rewrite?) tree.render) ∧
    (∀ d, s.kind.lower = .error d → c.log s = s.kind.log) ∧
    ∀ line ∈ s.kind.log, (∀ entry : Entry, line ∉ entry.lines) ∧
      ∀ text, line ≠ ⟨.debug, "Compiled statement: " ++ text⟩ := by
  refine ⟨fun lowered h => ?_, fun d h => ?_, fun line hline => ⟨fun entry hentry => ?_, ?_⟩⟩
  · refine ⟨runAll c.rules lowered, _, entries c.rules lowered, rfl, ?_, log_of_lower h quiet,
      Rule.map_rule_entries c.rules lowered, rfl, Rule.linked_entries c.rules lowered⟩
    rw [compile_eq, h]
    rfl
  · rw [log, events, h, List.append_nil, StatementKind.log]
  · -- a line of the lowering begins with a letter that no line of an entry begins with
    have initial_eq := StatementKind.initial_of_mem_log hline
    rcases Entry.initial_of_mem_lines hentry with h | h | h <;> rw [h] at initial_eq <;>
      exact absurd initial_eq (by decide)
  · rintro text rfl
    have initial_eq := StatementKind.initial_of_mem_log hline
    rw [LogLine.initial_append rfl text] at initial_eq
    exact absurd initial_eq (by decide)

/-- The compiler that takes `b` and then `a` out of a query, with rules in between and after that
leave the command as it is. -/
def prunes : Compiler where
  rules := [.prune "b", .fixed "eraser" none ⟨none, true⟩, .prune "a",
    .fixed "idle" none ⟨some (.query .noRows), false⟩]

/-- `SELECT * FROM a JOIN b`, with a `WHERE` behind it or not -/
def starOfJoin (filter : Option Sql.Expr) : StatementKind := .select (.ofClause {
  columns := [.star]
  source := some (.join (.table (.ofName "a")) [⟨.join false none, .table (.ofName "b"), none⟩])
  filter })

/-- All columns of a join of two operands, each of which may have been taken out. -/
def starJoin (left right : Option Plan.Rows) : Command :=
  .query (.project [starColumn] (.join { kind := .inner } left right))

/-- The two rules that apply are linked past the one between them.  A statement that is refused for
its `WHERE` has only the join in its log. -/
theorem log_links_rewrites_prunes :
    let explained : Statement := ⟨some {}, starOfJoin none⟩
    let refused : Statement := .ofKind (starOfJoin (some (.parameter "?")))
    let lowered := starJoin (some (.plainScan "a")) (some (.plainScan "b"))
    let half := starJoin (some (.plainScan "a")) none
    let empty := starJoin none none
    let joining : LogLine := ⟨.trace, "joining Inner (natural=false) onto accumulated input"⟩
    (∀ rule ∈ prunes.rules, ∀ command, rule.events command = []) ∧
    (explained.kind.lower = .ok lowered ∧
      prunes.compile explained = .ok (.explain empty) ∧
      prunes.log explained =
        [joining, ⟨.debug, "Optimization 'prune-b' applied"⟩,
          ⟨.trace, "before: " ++ lowered.render⟩, ⟨.trace, "after: " ++ half.render⟩,
          ⟨.warn, "Optimization 'eraser' removed the whole tree, keeping the previous one"⟩,
          ⟨.debug, "Optimization 'prune-a' applied"⟩,
          ⟨.trace, "before: " ++ half.render⟩, ⟨.trace, "after: " ++ empty.render⟩,
          ⟨.trace, "Optimization 'idle' not applicable"⟩,
          ⟨.debug, "Compiled statement: " ++ (Command.explain empty).render⟩] ∧
      Linked lowered.render [(lowered.render, half.render), (half.render, empty.render)]
        empty.render) ∧
    refused.kind.lower = .error (.ofConstruct .parameter) ∧ prunes.log refused = [joining] := by
  intro explained refused lowered half empty joining
  have quiet : ∀ rule ∈ prunes.rules, ∀ command, rule.events command = [] := by
    simp [prunes, Rule.prune, Rule.fixed]
  obtain ⟨tree, result, entries, result_eq, compile_eq, log_eq, -, rfl, linked⟩ :=
    (log_links_rewrites prunes quiet explained).1 lowered rfl
  obtain rfl : Command.explain empty = result := Except.ok.inj compile_eq
  obtain rfl : empty = tree := Command.explain.inj result_eq
  have refused_log := (log_links_rewrites prunes quiet refused).2.1 _ rfl
  exact ⟨quiet, ⟨rfl, compile_eq, log_eq, linked⟩, rfl, refused_log⟩

end Compiler

end SqlPlan
