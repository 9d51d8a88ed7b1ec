import SqlPlan.Plan.Render

/-!
# The log

What compilation reports while it works.  An event is a value: every function that would write to
a log has a companion that gives its events in order, so that what is logged can be read off the
input and nothing has to be written along the way.
-/

namespace SqlPlan

/-- The level of a log line. -/
inductive Level where
  | warn
  | debug
  | trace
deriving DecidableEq

/-- The name of a level. -/
def Level.name : Level → String
  | warn => "WARN"
  | debug => "DEBUG"
  | trace => "TRACE"

/-- Something worth a line in the log. -/
inductive Event where
  /-- A source was joined to the rows accumulated so far. -/
  | joining (kind : Plan.JoinKind) (natural : Bool)
  /-- A half join gave way to the operand that it had left. -/
  | halfJoinReplaced (survivor : Plan.Rows)
  /-- A join vanished with both its operands. -/
  | joinVanished
  /-- A rule replaced the command. -/
  | ruleApplied (rule : String)
  /-- The command before a rule replaced it. -/
  | before (command : Plan.Command)
  /-- The command that a rule put in its place. -/
  | after (command : Plan.Command)
  /-- A rule left nothing of the command, which is kept. -/
  | treeRemoved (rule : String)
  /-- A rule did not apply. -/
  | notApplicable (rule : String)
  /-- A statement was compiled. -/
  | compiled (command : Plan.Command)
deriving DecidableEq

namespace Event

/-- The level of an event. -/
def level : Event → Level
  | joining _ _ => .trace
  | halfJoinReplaced _ => .trace
  | joinVanished => .trace
  | ruleApplied _ => .debug
  | before _ => .trace
  | after _ => .trace
  | treeRemoved _ => .warn
  | notApplicable _ => .trace
  | compiled _ => .debug

/-- The line that an event leaves in the log. -/
def message : Event → String
  | joining kind natural =>
    "joining " ++ kind.name ++ " (natural=" ++ Text.truth natural ++ ") onto accumulated input"
  | halfJoinReplaced survivor => "replacing half join with " ++ survivor.render
  | joinVanished => "join lost both operands"
  | ruleApplied rule => "Optimization '" ++ rule ++ "' applied"
  | before command => "before: " ++ command.render
  | after command => "after: " ++ command.render
  | treeRemoved rule =>
    "Optimization '" ++ rule ++ "' removed the whole tree, keeping the previous one"
  | notApplicable rule => "Optimization '" ++ rule ++ "' not applicable"
  | compiled command => "Compiled statement: " ++ command.render

end Event

end SqlPlan
