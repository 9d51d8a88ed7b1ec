import SqlPlan.Json.Shape
import SqlPlan.Rewrite.HalfJoin

/-!
# Options

The rules that a configuration may ask for by name, and the configuration itself with its JSON form.
-/

namespace SqlPlan

/-- A rule that a configuration may ask for. -/
inductive BuiltinRule where
  | halfJoinElimination
deriving DecidableEq

/-- No such rule: the name that was asked for. -/
structure UnknownRule where
  name : String
deriving DecidableEq

/-- The text of the error. -/
def UnknownRule.text (e : UnknownRule) : String := "unknown optimization: " ++ e.name

namespace BuiltinRule

/-- All rules that a configuration may ask for. -/
def all : List BuiltinRule := [halfJoinElimination]

/-- The name of the rule in a configuration. -/
def name : BuiltinRule → String
  | halfJoinElimination => "half-join-elimination"

/-- The rule itself. -/
def rule : BuiltinRule → Rule
  | halfJoinElimination => .halfJoinElimination

/-- The rule of a name, which must be spelled exactly. -/
def ofName (name : String) : Except UnknownRule BuiltinRule :=
  match all.find? (·.name == name) with
  | some kind => .ok kind
  | none => .error ⟨name⟩

/-- The JSON form of a choice of rule. -/
def toJson (r : BuiltinRule) : Json := .str r.name

/-- The choice of rule that a tree is the JSON form of. -/
def ofJson? (j : Json) : Option BuiltinRule := j.unit? all name

end BuiltinRule

/-- The configuration of a compiler: the rules to run, in order. -/
structure Options where
  rules : List BuiltinRule := []
deriving DecidableEq

namespace Options

/-- The configuration with one more rule at its end. -/
def withRule (o : Options) (r : BuiltinRule) : Options := ⟨o.rules ++ [r]⟩

/-- The JSON form of a configuration. -/
def toJson (o : Options) : Json := .obj [("optimizations", .arr (o.rules.map BuiltinRule.toJson))]

/-- The list of rules that a tree is the JSON form of. -/
def rulesOfJson? (j : Json) : Option (List BuiltinRule) :=
  j.listOf? fun p => BuiltinRule.ofJson? p.1

/-- The configuration that a tree is the JSON form of.  The list of rules may be missing, even from
an array. -/
def ofJson? : Json → Option Options
  | .arr [] => some {}
  | j =>
    match j.record? ["optimizations"] with
    | some [some ⟨rules, _⟩] => (rulesOfJson? rules).map (⟨·⟩)
    | some [none] => some {}
    | _ => none

end Options

end SqlPlan
