import SqlPlan.Json.Basic

/-!
# Records and variants in JSON

How a JSON tree holds a record or a variant.

A *record* with declared field names is written as an object or as an array.  In an object the
fields come in any order, keys that are not declared are skipped, and a declared key that occurs
twice makes the tree no record at all; a declared key may be missing, which only an optional field
tolerates.  An array has exactly the declared fields, in the declared order.

A *variant* is written as its name alone, or as an object whose one key is the name and whose value
is the payload.

The values that come out of a tree are `Part`s of it: they carry the fact that they are smaller, so
that a recursive reader of trees is seen to end.
-/

namespace SqlPlan.Json

/-- A tree that stands inside `j`. -/
abbrev Part (j : Json) : Type := { p : Json // sizeOf p < sizeOf j }

/-- The items of an array. -/
def items? : (j : Json) → Option (List (Part j))
  | arr items => some <| items.attach.map fun ⟨p, h⟩ =>
    ⟨p, by have := List.sizeOf_lt_of_mem h; simp only [arr.sizeOf_spec]; omega⟩
  | _ => none

/-- The entries of an object, in order. -/
def entries? : (j : Json) → Option (List (String × Part j))
  | obj fields => some <| fields.attach.map fun ⟨(key, p), h⟩ =>
    (key, ⟨p, by
      have := List.sizeOf_lt_of_mem h
      simp only [Prod.mk.sizeOf_spec] at this
      simp only [obj.sizeOf_spec]; omega⟩)
  | _ => none

/-! ### Records -/

/-- The value at a key: `some none` if the key is missing, and `none` if it is repeated. -/
def field? (entries : List (String × α)) (key : String) : Option (Option α) :=
  match entries.filter (·.1 == key) with
  | [] => some none
  | [(_, a)] => some (some a)
  | _ => none

/-- The fields of a record, in the declared order; an object may lack some of them. -/
def record? (names : List String) (j : Json) : Option (List (Option (Part j))) :=
  match j.items? with
  | some items => if items.length = names.length then some (items.map some) else none
  | none =>
    match j.entries? with
    | some entries => names.mapM (field? entries)
    | none => none

/-- An optional field: missing and null both say that the value is absent. -/
def optional (decode : Part j → Option α) : Option (Part j) → Option (Option α)
  | none => some none
  | some ⟨null, _⟩ => some none
  | some p => (decode p).map some

/-- A list is an array of its elements. -/
def listOf? (j : Json) (decode : Part j → Option α) : Option (List α) := do
  (← j.items?).mapM decode

/-! ### Variants -/

/-- The name of a variant, with its payload if it has one. -/
def variant? : (j : Json) → Option (String × Option (Part j))
  | str name => some (name, none)
  | obj [(name, p)] => some (name, some ⟨p, by
      simp only [obj.sizeOf_spec, List.cons.sizeOf_spec, Prod.mk.sizeOf_spec]; omega⟩)
  | _ => none

/-- A variant without payload, one of `all`.  Its name may also carry null as payload. -/
def unit? (all : List α) (name : α → String) (j : Json) : Option α :=
  match j.variant? with
  | some (key, none) => all.find? (name · == key)
  | some (key, some ⟨null, _⟩) => all.find? (name · == key)
  | _ => none

/-- A variant with its payload. -/
def variant (name : String) (payload : Json) : Json := obj [(name, payload)]

end SqlPlan.Json
