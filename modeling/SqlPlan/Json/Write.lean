import SqlPlan.Json.Basic

/-!
# JSON text

The text of a JSON tree, without any blank.  Inside a string the quote, the backslash and the
control characters below U+0020 are escaped, five of the latter by a letter and the others by their
code; every other character stands for itself.  The tree `unpaired` is written as the shortest
string of its kind.
-/

namespace SqlPlan.Json

/-- The digit of a value below sixteen, in lower case. -/
def hexDigit (n : Nat) : Char :=
  if n < 10 then Char.ofNat ('0'.toNat + n) else Char.ofNat ('a'.toNat + (n - 10))

/-- A character as it stands inside a string. -/
def escapeChar (c : Char) : List Char :=
  if c = '"' then ['\\', '"']
  else if c = '\\' then ['\\', '\\']
  else if c = '\x08' then ['\\', 'b']
  else if c = '\x0c' then ['\\', 'f']
  else if c = '\n' then ['\\', 'n']
  else if c = '\r' then ['\\', 'r']
  else if c = '\t' then ['\\', 't']
  else if c.toNat < 0x20 then
    ['\\', 'u', '0', '0', hexDigit (c.toNat / 16), hexDigit (c.toNat % 16)]
  else [c]

/-! ### Trees

Each writer is given the text that comes after, and puts its own in front of it: no part of the
text is copied, however deep it stands in the tree.
-/

/-- A string between its quotes, in front of `rest`. -/
def quote (s : String) (rest : List Char) : List Char :=
  '"' :: (s.toList.flatMap escapeChar ++ '"' :: rest)

mutual

/-- The characters of a tree, in front of `rest`. -/
def write : Json → List Char → List Char
  | null, rest => "null".toList ++ rest
  | bool true, rest => "true".toList ++ rest
  | bool false, rest => "false".toList ++ rest
  | int n, rest => n.repr.toList ++ rest
  | numeral text, rest => text.toList ++ rest
  | str s, rest => quote s rest
  | unpaired, rest => "\"\\ud800\"".toList ++ rest
  | arr [], rest => '[' :: ']' :: rest
  | arr (j :: js), rest => '[' :: write j (writeItems js rest)
  | obj [], rest => '{' :: '}' :: rest
  | obj ((key, j) :: fields), rest => '{' :: quote key (':' :: write j (writeFields fields rest))

/-- The items after the first one with the closing bracket, in front of `rest`. -/
def writeItems : List Json → List Char → List Char
  | [], rest => ']' :: rest
  | j :: js, rest => ',' :: write j (writeItems js rest)

/-- The fields after the first one with the closing brace, in front of `rest`. -/
def writeFields : List (String × Json) → List Char → List Char
  | [], rest => '}' :: rest
  | (key, j) :: fields, rest => ',' :: quote key (':' :: write j (writeFields fields rest))

end

/-- The text of a tree. -/
def text (j : Json) : String := .ofList (j.write [])

end SqlPlan.Json
