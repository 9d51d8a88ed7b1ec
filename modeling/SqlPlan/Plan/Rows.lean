import SqlPlan.Plan.Scalar
import SqlPlan.Plan.Table

/-!
# Relational operators

A plan's row sources.  Every operator but a scan and a list of values works on the rows of other
operators.

A join may lack an operand.  Lowering never builds such a join, but a rewrite that finds an operand
to be void takes it away, and what it leaves behind is a *half join*, or an *empty* join when both
operands are gone.
-/

namespace SqlPlan.Plan

/-- The kind of a join. -/
inductive JoinKind where
  | unspecified
  | left
  | leftOuter
  | inner
  | cross
deriving DecidableEq

namespace JoinKind

/-- All kinds of join. -/
def all : List JoinKind := [unspecified, left, leftOuter, inner, cross]

/-- The tag of the kind in JSON and in the log. -/
def name : JoinKind → String
  | unspecified => "Unspecified"
  | left => "Left"
  | leftOuter => "LeftOuter"
  | inner => "Inner"
  | cross => "Cross"

end JoinKind

/-- All that a join says beside its operands. -/
structure JoinSpec where
  kind : JoinKind := .unspecified
  natural : Bool := false
  filter : Option Scalar := none
deriving DecidableEq

/-- A source of rows. -/
inductive Rows where
  /-- The rows of a table. -/
  | scan (table : Table)
  /-- The rows that pass the filter, or all of them if there is none. -/
  | select (filter : Option Scalar) (input : Rows)
  /-- The given columns of each row. -/
  | project (cols : List Column) (input : Rows)
  /-- The matching pairs of rows of two operands. -/
  | join (spec : JoinSpec) (left right : Option Rows)
  /-- The first rows. -/
  | limit (count : Scalar) (input : Rows)
  /-- The rows after the first ones. -/
  | offset (count : Scalar) (input : Rows)
  /-- Each row once. -/
  | distinct (input : Rows)
  /-- The rows written out. -/
  | values (rows : List (List Scalar))

namespace Rows

/-- No row at all. -/
def noRows : Rows := values []

/-- One row without columns, over which a projection without tables runs. -/
def singleRow : Rows := values [[]]

/-- A join with both operands. -/
def joined (spec : JoinSpec) (left right : Rows) : Rows := join spec (some left) (some right)

/-- A join with neither operand. -/
def isEmptyJoin : Rows → Bool
  | join _ none none => true
  | _ => false

mutual

/-- The number of scans in a tree. -/
def scanCount : Rows → Nat
  | scan _ => 1
  | select _ input => input.scanCount
  | project _ input => input.scanCount
  | join _ left right => operandScanCount left + operandScanCount right
  | limit _ input => input.scanCount
  | offset _ input => input.scanCount
  | distinct input => input.scanCount
  | values _ => 0

/-- The number of scans in a join operand. -/
def operandScanCount : Option Rows → Nat
  | none => 0
  | some rows => rows.scanCount

end

/-! ### Induction -/

/-- Induction on row sources: for a join, the operands that are present may be assumed. -/
@[elab_as_elim]
theorem induct {motive : Rows → Prop}
    (scan : ∀ table, motive (.scan table))
    (select : ∀ filter input, motive input → motive (.select filter input))
    (project : ∀ cols input, motive input → motive (.project cols input))
    (join : ∀ spec left right, (∀ l ∈ left, motive l) → (∀ r ∈ right, motive r) →
      motive (.join spec left right))
    (limit : ∀ count input, motive input → motive (.limit count input))
    (offset : ∀ count input, motive input → motive (.offset count input))
    (distinct : ∀ input, motive input → motive (.distinct input))
    (values : ∀ rows, motive (.values rows)) : ∀ rows, motive rows :=
  @Rows.rec motive (fun operand => ∀ r ∈ operand, motive r)
    scan select project join limit offset distinct values
    (fun _ h => nomatch h) (fun _ ih _ h => Option.some.inj h ▸ ih)

/-! ### Equality -/

mutual

/-- Whether two row sources are the same tree. -/
def beq : Rows → Rows → Bool
  | scan s, scan t => s == t
  | select f x, select g y => f == g && beq x y
  | project c x, project d y => c == d && beq x y
  | join s l r, join t l' r' => s == t && beqOperand l l' && beqOperand r r'
  | limit m x, limit n y => m == n && beq x y
  | offset m x, offset n y => m == n && beq x y
  | distinct x, distinct y => beq x y
  | values r, values s => r == s
  | _, _ => false

/-- Whether two join operands are the same, or both absent. -/
def beqOperand : Option Rows → Option Rows → Bool
  | none, none => true
  | some x, some y => beq x y
  | _, _ => false

end

theorem eq_of_beqOperand {l l' : Option Rows} (ih : ∀ x ∈ l, ∀ {y}, beq x y = true → x = y)
    (h : beqOperand l l' = true) : l = l' := by
  cases l <;> cases l' <;> simp only [beqOperand, Bool.false_eq_true] at h ⊢
  rw [ih _ rfl h]

theorem eq_of_beq {x : Rows} : ∀ {y : Rows}, beq x y = true → x = y := by
  induction x using induct with
  | scan t => intro y h; cases y <;> simp_all [beq]
  | select f x ih =>
    intro y h
    cases y <;> simp only [beq, Bool.and_eq_true, beq_iff_eq, Bool.false_eq_true] at h
    rw [h.1, ih h.2]
  | project c x ih =>
    intro y h
    cases y <;> simp only [beq, Bool.and_eq_true, beq_iff_eq, Bool.false_eq_true] at h
    rw [h.1, ih h.2]
  | join s l r ihl ihr =>
    intro y h
    cases y <;> simp only [beq, Bool.and_eq_true, beq_iff_eq, Bool.false_eq_true] at h
    rw [h.1.1, eq_of_beqOperand ihl h.1.2, eq_of_beqOperand ihr h.2]
  | limit m x ih =>
    intro y h
    cases y <;> simp only [beq, Bool.and_eq_true, beq_iff_eq, Bool.false_eq_true] at h
    rw [h.1, ih h.2]
  | offset m x ih =>
    intro y h
    cases y <;> simp only [beq, Bool.and_eq_true, beq_iff_eq, Bool.false_eq_true] at h
    rw [h.1, ih h.2]
  | distinct x ih =>
    intro y h
    cases y <;> simp only [beq, Bool.false_eq_true] at h
    rw [ih h]
  | values r => intro y h; cases y <;> simp_all [beq]

theorem beq_self (x : Rows) : beq x x = true := by
  induction x using induct with
  | join s l r ihl ihr => cases l <;> cases r <;> simp_all [beq, beqOperand]
  | _ => simp_all [beq]

instance : DecidableEq Rows := fun x y =>
  decidable_of_iff (beq x y = true) ⟨eq_of_beq, fun h => h ▸ beq_self x⟩

end Rows

end SqlPlan.Plan
