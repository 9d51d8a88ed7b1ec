import SqlPlan.Plan.Vocabulary

/-!
# Scalar expressions

The expressions of a plan: what a filter tests, a column shows, a row holds and a limit counts by.
A column reference is a literal here, holding the dotted name as text; numbers and truth values of
their own come from callers that build plans, and from the filter of a write that has none.
-/

namespace SqlPlan.Plan

/-- A scalar expression. -/
inductive Scalar where
  /-- A token of the statement, kept as text. -/
  | literal (text : String)
  /-- A number of 64 bits. -/
  | numeric (value : Int64)
  /-- A truth value. -/
  | boolean (value : Bool)
  | unary (op : UnaryOp) (value : Scalar)
  | binary (left : Scalar) (op : BinaryOp) (right : Scalar)
  /-- A function call, over the distinct values of its argument if so marked. -/
  | call (name : String) (distinct : Bool) (args : List Scalar)
  /-- Equality, or inequality if `invert`. -/
  | equality (left right : Scalar) (invert : Bool)
  /-- Whether `needle` lies from `lo` to `hi`, or does not if `invert`. -/
  | range (needle lo hi : Scalar) (invert : Bool)

namespace Scalar

/-! ### Equality -/

mutual

/-- Whether two scalars are the same tree. -/
def beq : Scalar → Scalar → Bool
  | literal s, literal t => s == t
  | numeric m, numeric n => m == n
  | boolean a, boolean b => a == b
  | unary o x, unary p y => o == p && beq x y
  | binary x o x', binary y p y' => o == p && beq x y && beq x' y'
  | call f d xs, call g e ys => f == g && d == e && beqAll xs ys
  | equality x x' i, equality y y' j => i == j && beq x y && beq x' y'
  | range x a b i, range y c d j => i == j && beq x y && beq a c && beq b d
  | _, _ => false

/-- Whether two lists of scalars agree entry by entry. -/
def beqAll : List Scalar → List Scalar → Bool
  | [], [] => true
  | x :: xs, y :: ys => beq x y && beqAll xs ys
  | _, _ => false

end

mutual

theorem eq_of_beq : ∀ {x y : Scalar}, beq x y = true → x = y
  | literal _, y, h => by cases y <;> simp_all [beq]
  | numeric _, y, h => by cases y <;> simp_all [beq]
  | boolean _, y, h => by cases y <;> simp_all [beq]
  | unary _ x, y, h => by
    cases y <;> simp only [beq, Bool.and_eq_true, beq_iff_eq, Bool.false_eq_true] at h
    rw [h.1, eq_of_beq h.2]
  | binary x _ x', y, h => by
    cases y <;> simp only [beq, Bool.and_eq_true, beq_iff_eq, Bool.false_eq_true] at h
    rw [h.1.1, eq_of_beq h.1.2, eq_of_beq h.2]
  | call _ _ xs, y, h => by
    cases y <;> simp only [beq, Bool.and_eq_true, beq_iff_eq, Bool.false_eq_true] at h
    rw [h.1.1, h.1.2, eq_of_beqAll h.2]
  | equality x x' _, y, h => by
    cases y <;> simp only [beq, Bool.and_eq_true, beq_iff_eq, Bool.false_eq_true] at h
    rw [h.1.1, eq_of_beq h.1.2, eq_of_beq h.2]
  | range x a b _, y, h => by
    cases y <;> simp only [beq, Bool.and_eq_true, beq_iff_eq, Bool.false_eq_true] at h
    rw [h.1.1.1, eq_of_beq h.1.1.2, eq_of_beq h.1.2, eq_of_beq h.2]

theorem eq_of_beqAll : ∀ {xs ys : List Scalar}, beqAll xs ys = true → xs = ys
  | [], ys, h => by cases ys <;> simp_all [beqAll]
  | x :: xs, ys, h => by
    cases ys <;> simp only [beqAll, Bool.and_eq_true, Bool.false_eq_true] at h
    rw [eq_of_beq h.1, eq_of_beqAll h.2]

end

mutual

theorem beq_self : ∀ x : Scalar, beq x x = true
  | literal _ => by simp [beq]
  | numeric _ => by simp [beq]
  | boolean _ => by simp [beq]
  | unary _ x => by simp [beq, beq_self x]
  | binary x _ y => by simp [beq, beq_self x, beq_self y]
  | call _ _ xs => by simp [beq, beqAll_self xs]
  | equality x y _ => by simp [beq, beq_self x, beq_self y]
  | range x a b _ => by simp [beq, beq_self x, beq_self a, beq_self b]

theorem beqAll_self : ∀ xs : List Scalar, beqAll xs xs = true
  | [] => by simp [beqAll]
  | x :: xs => by simp [beqAll, beq_self x, beqAll_self xs]

end

instance : DecidableEq Scalar := fun x y =>
  decidable_of_iff (beq x y = true) ⟨eq_of_beq, fun h => h ▸ beq_self x⟩

end Scalar

/-- One output column of a projection. -/
structure Column where
  /-- The table whose columns a star stands for. -/
  table : Option String := none
  value : Scalar
  label : Option String := none
deriving DecidableEq

end SqlPlan.Plan
