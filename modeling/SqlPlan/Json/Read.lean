import SqlPlan.Json.Token

/-!
# Reading JSON

The second half of reading JSON: a list of tokens becomes a tree.  The parser is an automaton with
a stack of open arrays and objects, so it is total by recursion on the tokens, whatever the depth
of the tree.  A text is accepted exactly when it holds one value, with blanks around it at most.
-/

namespace SqlPlan.Json

/-- The fields of an object that were read so far, latest first.  There are none once a key had no
text. -/
abbrev Fields := Option (List (String × Json))

/-- The fields with one more. -/
def Fields.add (fields : Fields) (key : Option String) (j : Json) : Fields := do
  return (← key, j) :: (← fields)

/-- An array or object that is still open, with what it already holds, latest first.  An open
object also has the key whose value is being read. -/
inductive Frame where
  | arr (items : List Json)
  | obj (fields : Fields) (key : Option String)

/-- What the parser expects next. -/
inductive Parser where
  /-- A value. -/
  | value (stack : List Frame)
  /-- The first item of an array, or its end. -/
  | firstItem (stack : List Frame)
  /-- The first key of an object, or its end. -/
  | firstKey (stack : List Frame)
  /-- A further key of an object. -/
  | nextKey (fields : Fields) (stack : List Frame)
  /-- The colon after a key. -/
  | colon (fields : Fields) (key : Option String) (stack : List Frame)
  /-- What may stand after a value: a comma, the end of the open frame, or the end of the text. -/
  | after (value : Json) (stack : List Frame)

namespace Parser

/-- One token where a value has to begin. -/
def beginValue (stack : List Frame) : Token → Option Parser
  | .word j => some (.after j stack)
  | .str text => some (.after (.ofText text) stack)
  | .openArr => some (.firstItem stack)
  | .openObj => some (.firstKey stack)
  | _ => none

/-- One token after a value. -/
def continueFrame (j : Json) : List Frame → Token → Option Parser
  | .arr items :: stack, .comma => some (.value (.arr (j :: items) :: stack))
  | .arr items :: stack, .closeArr => some (.after (.arr (j :: items).reverse) stack)
  | .obj fields key :: stack, .comma => some (.nextKey (fields.add key j) stack)
  | .obj fields key :: stack, .closeObj =>
    some (.after (.ofFields ((fields.add key j).map List.reverse)) stack)
  | _, _ => none

/-- One token. -/
def step : Parser → Token → Option Parser
  | .value stack, t => beginValue stack t
  | .firstItem stack, .closeArr => some (.after (.arr []) stack)
  | .firstItem stack, t => beginValue (.arr [] :: stack) t
  | .firstKey stack, .closeObj => some (.after (.obj []) stack)
  | .firstKey stack, .str key => some (.colon (some []) key stack)
  | .firstKey _, _ => none
  | .nextKey fields stack, .str key => some (.colon fields key stack)
  | .nextKey _ _, _ => none
  | .colon fields key stack, .colon => some (.value (.obj fields key :: stack))
  | .colon _ _ _, _ => none
  | .after j stack, t => continueFrame j stack t

/-- The tree at the end of the tokens: a value was read and nothing is open. -/
def finish : Parser → Option Json
  | .after j [] => some j
  | _ => none

end Parser

/-- The tree of a list of tokens. -/
def ofTokens? (ts : List Token) : Option Json := do
  (← ts.foldlM Parser.step (.value [])).finish

/-- The tree that a text is the JSON form of. -/
def read? (s : String) : Option Json := do
  ofTokens? (← tokens? s.toList)

end SqlPlan.Json
