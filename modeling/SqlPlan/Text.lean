/-!
# Pieces of text

The few ways in which names and lists are put into text, by statements and plans alike.
-/

namespace SqlPlan.Text

/-- A name behind its qualifier and a dot, if it has one. -/
def dotted (qualifier : Option String) (name : String) : String :=
  match qualifier with
  | some q => q ++ "." ++ name
  | none => name

/-- A text followed by its label, if it has one. -/
def labelled (text : String) (label : Option String) : String :=
  match label with
  | some a => text ++ " AS " ++ a
  | none => text

/-- Texts with a comma between each two. -/
def commaSeparated (texts : List String) : String := ",".intercalate texts

/-- A text between parentheses. -/
def parenthesized (text : String) : String := "(" ++ text ++ ")"

/-- The spelling of a truth value. -/
def truth : Bool → String
  | true => "true"
  | false => "false"

end SqlPlan.Text
