import SqlPlan.Json.Basic

/-!
# JSON tokens

The first half of reading JSON: a text becomes a list of tokens.  The lexer is an automaton that
takes one character at a time, so it is total by recursion on the text and needs no look-ahead.
Between tokens it skips blanks; inside a string it follows the escapes; any other run of
characters, up to the next blank, quote or mark, is a word, and a word is `null`, `true`, `false` or
a number.

The grammar is the strict one.  A number has no leading zero and no plus sign, and digits stand on
both sides of its point.  A string holds no control character and no unknown escape.  It may hold
the escape of half a surrogate pair, but then it has no text.
-/

namespace SqlPlan.Json

/-- A token: one of the six marks, a string with its text, or a literal or number. -/
inductive Token where
  | openArr
  | closeArr
  | openObj
  | closeObj
  | colon
  | comma
  | str (text : Option String)
  | word (value : Json)

/-! ### Words -/

/-- The exponent of a number, after its `e`. -/
def isExponent : List Char → Bool
  | '+' :: cs => !cs.isEmpty && cs.all Char.isDigit
  | '-' :: cs => !cs.isEmpty && cs.all Char.isDigit
  | cs => !cs.isEmpty && cs.all Char.isDigit

/-- What may follow the fraction of a number: nothing, or an exponent. -/
def isExponentPart : List Char → Bool
  | [] => true
  | c :: cs => (c = 'e' || c = 'E') && isExponent cs

/-- What may follow the integer part of a number: a fraction, an exponent, or both. -/
def isFractionPart : List Char → Bool
  | '.' :: cs => (cs.head?.any Char.isDigit) && isExponentPart (cs.dropWhile Char.isDigit)
  | cs => isExponentPart cs

/-- The digits of an integer part: at least one, and no zero in front of another digit. -/
def isIntegerPart : List Char → Bool
  | [] => false
  | ['0'] => true
  | c :: _ => c ≠ '0'

/-- The number with sign `negative` whose text after the sign is `body`. -/
def number? (negative : Bool) (body : List Char) : Option Json :=
  let digits := body.takeWhile Char.isDigit
  let rest := body.dropWhile Char.isDigit
  let value := Nat.ofDigitChars 10 digits 0
  if !isIntegerPart digits || !isFractionPart rest then none
  else if !rest.isEmpty || (negative && value = 0) then
    some (.numeral (.ofList (if negative then '-' :: body else body)))
  else some (.int (if negative then -value else value))

/-- The literal or number that a word is. -/
def word? (cs : List Char) : Option Json :=
  if cs = "null".toList then some .null
  else if cs = "true".toList then some (.bool true)
  else if cs = "false".toList then some (.bool false)
  else match cs with
    | '-' :: body => number? true body
    | body => number? false body

/-! ### Escapes -/

/-- The value of a hexadecimal digit of either case. -/
def hexValue? (c : Char) : Option Nat :=
  if '0' ≤ c ∧ c ≤ '9' then some (c.toNat - '0'.toNat)
  else if 'a' ≤ c ∧ c ≤ 'f' then some (c.toNat - 'a'.toNat + 10)
  else if 'A' ≤ c ∧ c ≤ 'F' then some (c.toNat - 'A'.toNat + 10)
  else none

/-- The character that a one-letter escape stands for. -/
def escaped? : Char → Option Char
  | '"' => some '"'
  | '\\' => some '\\'
  | '/' => some '/'
  | 'b' => some '\x08'
  | 'f' => some '\x0c'
  | 'n' => some '\n'
  | 'r' => some '\r'
  | 't' => some '\t'
  | _ => none

/-- How far the reading of an escape has come. -/
inductive Escape where
  /-- No escape is open. -/
  | closed
  /-- After a backslash. -/
  | backslash
  /-- Inside four hexadecimal digits, of which `missing` are still to come. -/
  | digits (missing : Nat) (value : Nat)

/-! ### Surrogates -/

/-- The first half of a surrogate pair. -/
def isHighSurrogate (unit : Nat) : Bool := 0xd800 ≤ unit && unit < 0xdc00

/-- The second half of a surrogate pair. -/
def isLowSurrogate (unit : Nat) : Bool := 0xdc00 ≤ unit && unit < 0xe000

/-- A piece of a string: a character, or half a surrogate pair. -/
inductive Piece where
  | char (value : Char)
  | half (unit : Nat)

namespace Piece

/-- The piece that an escaped unit is by itself. -/
def ofUnit (unit : Nat) : Piece :=
  if isHighSurrogate unit || isLowSurrogate unit then half unit else char (Char.ofNat unit)

/-- The character of a surrogate pair. -/
def ofPair (high low : Nat) : Piece :=
  char (Char.ofNat (0x10000 + (high - 0xd800) * 0x400 + (low - 0xdc00)))

/-- Adds an escaped unit to the pieces of a string, latest first.  A second half right after a first
one completes the pair. -/
def addUnit (unit : Nat) : List Piece → List Piece
  | half high :: read =>
    if isHighSurrogate high && isLowSurrogate unit then ofPair high unit :: read
    else ofUnit unit :: half high :: read
  | read => ofUnit unit :: read

/-- The character that the piece is. -/
def char? : Piece → Option Char
  | char c => some c
  | half _ => none

/-- The text of the pieces of a string, latest first; a half without its other half has none. -/
def text? (read : List Piece) : Option String :=
  (read.mapM char?).map fun cs => .ofList cs.reverse

end Piece

/-! ### The automaton -/

/-- Where the lexer is: between tokens, inside a word, or inside a string.  What was read of the word
or the string stands latest first. -/
inductive Mode where
  | between
  | word (read : List Char)
  | string (read : List Piece) (escape : Escape)

/-- The lexer: its mode, and the tokens found so far, latest first. -/
structure Lexer where
  mode : Mode := .between
  found : List Token := []

namespace Lexer

/-- Adds a token, after which the lexer is between tokens. -/
def emit (l : Lexer) (t : Token) : Lexer := ⟨.between, t :: l.found⟩

/-- The blanks that may stand between tokens. -/
def isBlank (c : Char) : Bool := c = ' ' || c = '\t' || c = '\n' || c = '\r'

/-- The tokens of one character. -/
def mark? : Char → Option Token
  | '[' => some .openArr
  | ']' => some .closeArr
  | '{' => some .openObj
  | '}' => some .closeObj
  | ':' => some .colon
  | ',' => some .comma
  | _ => none

/-- A character that a word may hold. -/
def isWordChar (c : Char) : Bool := !isBlank c && c ≠ '"' && (mark? c).isNone

/-- One character between tokens. -/
def start (l : Lexer) (c : Char) : Lexer :=
  if isBlank c then { l with mode := .between }
  else if c = '"' then { l with mode := .string [] .closed }
  else match mark? c with
    | some t => l.emit t
    | none => { l with mode := .word [c] }

/-- The end of a word. -/
def endWord (l : Lexer) (read : List Char) : Option Lexer :=
  (word? read.reverse).map fun j => l.emit (.word j)

/-- One character inside a string. -/
def stepString (l : Lexer) (read : List Piece) (c : Char) : Escape → Option Lexer
  | .closed =>
    if c = '"' then some (l.emit (.str (Piece.text? read)))
    else if c = '\\' then some { l with mode := .string read .backslash }
    else if c.toNat < 0x20 then none
    else some { l with mode := .string (.char c :: read) .closed }
  | .backslash =>
    if c = 'u' then some { l with mode := .string read (.digits 4 0) }
    else (escaped? c).map fun d => { l with mode := .string (.char d :: read) .closed }
  | .digits missing value =>
    (hexValue? c).map fun d =>
      let value := value * 16 + d
      if missing ≤ 1 then { l with mode := .string (Piece.addUnit value read) .closed }
      else { l with mode := .string read (.digits (missing - 1) value) }

/-- One character. -/
def step (l : Lexer) (c : Char) : Option Lexer :=
  match l.mode with
  | .between => some (l.start c)
  | .word read =>
    if isWordChar c then some { l with mode := .word (c :: read) }
    else (l.endWord read).map (·.start c)
  | .string read escape => l.stepString read c escape

/-- The tokens at the end of the text, in order; a string may not be open. -/
def finish (l : Lexer) : Option (List Token) :=
  match l.mode with
  | .between => some l.found.reverse
  | .word read => (l.endWord read).map (·.found.reverse)
  | .string _ _ => none

end Lexer

/-- The tokens of a text. -/
def tokens? (cs : List Char) : Option (List Token) := do
  (← cs.foldlM Lexer.step {}).finish

end SqlPlan.Json
