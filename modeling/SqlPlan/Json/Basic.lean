/-!
# JSON trees

A JSON document as a tree.  The fields of an object keep their order and may repeat a key; what a
repeated key means is for the reader of the tree to decide.

Numbers come in two kinds.  A numeral without fraction and exponent is its integer.  Any other one
is kept as it was written, and so is `-0`, which no integer is.

The grammar of strings allows one thing that no text holds: the escape of half a surrogate pair.  A
string with such a half, or an object with such a string as a key, has its place in a document, but
nothing can be made of it.  It is the tree `unpaired`, and what else it held is not kept.
-/

namespace SqlPlan

/-- A JSON document. -/
inductive Json where
  | null
  | bool (value : Bool)
  | int (value : Int)
  | numeral (text : String)
  | str (value : String)
  | unpaired
  | arr (items : List Json)
  | obj (fields : List (String × Json))

namespace Json

/-! ### The basic values -/

/-- The Boolean that the tree is. -/
def bool? : Json → Option Bool
  | bool b => some b
  | _ => none

/-- The string that the tree is. -/
def str? : Json → Option String
  | str s => some s
  | _ => none

/-- The integer of 64 bits that the tree is; an integer out of range is none. -/
def int64? : Json → Option Int64
  | int n => if Int64.minValue.toInt ≤ n ∧ n ≤ Int64.maxValue.toInt then some (.ofInt n) else none
  | _ => none

/-- The string of a text, or of half a surrogate pair, which has none. -/
def ofText : Option String → Json
  | some s => str s
  | none => unpaired

/-- The object of some fields, of which there are none if a key has no text. -/
def ofFields : Option (List (String × Json)) → Json
  | some fields => obj fields
  | none => unpaired

/-- The tree of a value, or null for its absence. -/
def ofOption (encode : α → Json) : Option α → Json
  | none => null
  | some a => encode a

end Json

end SqlPlan
