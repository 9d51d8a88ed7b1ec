import SqlPlan.Proofs.Lowering.Congruence
import SqlPlan.Proofs.Lowering.Inversion

/-!
# What lowering forgets of an expression

Expressions that differ in spelling may have the same lowering.  The *normal form* of an expression
spells it in one way: parentheses around one expression are left out, a column reference is the
literal of its dotted text, `==` is `=` and `<>` is `!=`.  An expression and its normal form are
lowered alike, whether to a scalar or to a refusal (`Expr.lower_norm`).

Nothing else is forgotten.  From the scalar that an expression becomes its normal form can be read
back (`Scalar.expr?`, `Expr.expr?_of_lower`), so two expressions that are lowered at all have the
same scalar exactly if they have the same normal form (`Expr.lower_eq_iff_norm_eq`).  The reading
spares a comparison of the two expressions case by case: one induction over one expression is
enough.  It tells all operators apart but for the spellings of equality and of inequality
(`BinaryOp.expr?_lower`).
-/

namespace SqlPlan

namespace Sql

/-! ### Normal forms -/

/-- One spelling for equality, and one for inequality; all other operators have only one. -/
def BinaryOp.norm : BinaryOp → BinaryOp
  | doubleEquals => equals
  | lessGreater => notEquals
  | op => op

mutual

/-- The normal form of an expression.  Constructs that are refused whatever they hold stay as they
are, inside and out. -/
def Expr.norm : Expr → Expr
  | .literal text => .literal text
  | .column ref => .literal ref.dotted
  | .parameter name => .parameter name
  | .unary op operand => .unary op operand.norm
  | .binary op left right => .binary op.norm left.norm right.norm
  | .between negated operand low high => .between negated operand.norm low.norm high.norm
  | .call name distinct args filter window => .call name distinct args.norm filter window
  -- parentheses around one expression only group, others make a row
  | .row [item] => item.norm
  | .row items => .row items
  | .cast operand type => .cast operand type
  | .caseWhen operand branches otherwise => .caseWhen operand branches otherwise
  | .inList negated operand items => .inList negated operand items
  | .existsIn query => .existsIn query
  | .subquery query => .subquery query

/-- The arguments of a call in normal form. -/
def Args.norm : Args → Args
  | .star => .star
  | .list items => .list (Expr.normAll items)

/-- Expressions in normal form. -/
def Expr.normAll : List Expr → List Expr
  | [] => []
  | e :: es => e.norm :: Expr.normAll es

end

/-! ### Lowering does not see the spelling -/

theorem BinaryOp.lower_norm (op : BinaryOp) : op.norm.lower = op.lower := by
  cases op <;> rfl

mutual

/-- An expression is lowered like its normal form. -/
theorem Expr.lower_norm : ∀ e : Expr, e.norm.lower = e.lower
  | .literal _ => rfl
  | .column ref => by
    rw [Expr.norm, Expr.lower_column]
  | .parameter _ => rfl
  | .unary op operand => by
    rw [Expr.norm, Expr.lower, Expr.lower, Expr.lower_norm operand]
  | .binary op left right => by
    rw [Expr.norm, Expr.lower, Expr.lower, Expr.lower_norm left, Expr.lower_norm right,
      op.lower_norm]
  | .between _ operand low high => by
    rw [Expr.norm, Expr.lower, Expr.lower, Expr.lower_norm operand, Expr.lower_norm low,
      Expr.lower_norm high]
  | .call _ _ args _ _ => by
    rw [Expr.norm, Expr.lower, Expr.lower, Args.lower_norm args]
  | .row [] => rfl
  | .row [item] => by
    rw [Expr.norm, Expr.lower_group, Expr.lower_norm item]
  | .row (_ :: _ :: _) => rfl
  | .cast _ _ => rfl
  | .caseWhen _ _ _ => rfl
  | .inList _ _ _ => rfl
  | .existsIn _ => rfl
  | .subquery _ => rfl

theorem Args.lower_norm : ∀ args : Args, args.norm.lower = args.lower
  | .star => rfl
  | .list items => by
    rw [Args.norm, Args.lower_list_congr (Expr.forall₂_lower_norm items)]

theorem Expr.forall₂_lower_norm : ∀ es : List Expr,
    List.Forall₂ (fun e e' : Expr => e.lower = e'.lower) (Expr.normAll es) es
  | [] => .nil
  | e :: es => .cons (Expr.lower_norm e) (Expr.forall₂_lower_norm es)

end

end Sql

/-! ### Reading an expression back -/

namespace Plan

open Sql (Expr)

mutual

/-- The expression in normal form that is lowered to a scalar.  There is none for numbers and truth
values, which no expression becomes. -/
def Scalar.expr? : Scalar → Option Expr
  | .literal text => some (.literal text)
  | .numeric _ => none
  | .boolean _ => none
  | .unary op x => do return .unary op.spelled (← x.expr?)
  | .binary x op y => do return .binary op.spelled (← x.expr?) (← y.expr?)
  | .call name distinct args => do
    return .call name distinct (.list (← Scalar.exprs? args)) none none
  | .equality x y invert => do
    return .binary (if invert then .notEquals else .equals) (← x.expr?) (← y.expr?)
  | .range x lo hi invert => do return .between invert (← x.expr?) (← lo.expr?) (← hi.expr?)

/-- The expressions in normal form that are lowered to some scalars. -/
def Scalar.exprs? : List Scalar → Option (List Expr)
  | [] => some []
  | x :: xs => do return (← x.expr?) :: (← Scalar.exprs? xs)

end

end Plan

namespace Sql

open Plan (Scalar)

/-- The spelling of an operator of a plan is a normal one. -/
theorem BinaryOp.norm_spelled (op : Plan.BinaryOp) : op.spelled.norm = op.spelled := by
  cases op <;> rfl

/-- No two operators are mistaken for each other, unless they are spellings of one. -/
theorem BinaryOp.expr?_lower (op : BinaryOp) {x y : Scalar} {e e' : Expr} (hx : x.expr? = some e)
    (hy : y.expr? = some e') : (op.lower x y).expr? = some (.binary op.norm e e') := by
  rcases op.lower_cases with ⟨o, rfl, lower_eq⟩ | ⟨rfl | rfl, lower_eq⟩ | ⟨rfl | rfl, lower_eq⟩
  · rw [lower_eq, Scalar.expr?, hx, hy, norm_spelled]
    rfl
  all_goals
    rw [lower_eq, Scalar.expr?, hx, hy]
    rfl

mutual

/-- The normal form of an expression can be read off the scalar that it becomes. -/
theorem Expr.expr?_of_lower : ∀ {e : Expr} {x : Scalar}, e.lower = .ok x → x.expr? = some e.norm
  | .literal _, _, h => by
    cases h
    rfl
  | .column ref, _, h => by
    cases h
    rw [Scalar.expr?, Expr.norm, ref.dotted_eq_text]
  | .unary op operand, _, h => by
    obtain ⟨x, hx, rfl⟩ := Expr.lower_unary_iff.mp h
    rw [Scalar.expr?, Expr.expr?_of_lower hx, op.spelled_lower]
    rfl
  | .binary op left right, _, h => by
    obtain ⟨x, hx, y, hy, rfl⟩ := Expr.lower_binary_iff.mp h
    exact op.expr?_lower (Expr.expr?_of_lower hx) (Expr.expr?_of_lower hy)
  | .between negated operand low high, _, h => by
    obtain ⟨x, hx, lo, hlo, hi, hhi, rfl⟩ := Expr.lower_between_iff.mp h
    rw [Scalar.expr?, Expr.expr?_of_lower hx, Expr.expr?_of_lower hlo, Expr.expr?_of_lower hhi]
    rfl
  | .call name distinct (.list items) _ _, _, h => by
    -- a call that is lowered has no filter and no window, so nothing of it is missing in the scalar
    obtain ⟨rfl, rfl, xs, hxs, rfl⟩ := Expr.lower_call_iff.mp h
    rw [Scalar.expr?, Expr.exprs?_of_lowerAll (Args.lower_list_iff.mp hxs).2]
    rfl
  | .call _ _ .star _ _, _, h => by
    obtain ⟨-, -, _, hxs, -⟩ := Expr.lower_call_iff.mp h
    cases hxs
  | .row [item], _, h => by
    rw [Expr.lower_group] at h
    rw [Expr.norm, Expr.expr?_of_lower h]

theorem Expr.exprs?_of_lowerAll : ∀ {es : List Expr} {xs : List Scalar},
    Expr.lowerAll es = .ok xs → Scalar.exprs? xs = some (Expr.normAll es)
  | [], _, h => by
    cases h
    rfl
  | e :: es, _, h => by
    obtain ⟨x, xs, hx, hxs, rfl⟩ := List.forall₂_cons_left_iff.mp (Expr.lowerAll_iff.mp h)
    rw [Scalar.exprs?, Expr.expr?_of_lower hx,
      Expr.exprs?_of_lowerAll (Expr.lowerAll_iff.mpr hxs)]
    rfl

end

/-- **Lowering forgets the spelling of an expression and nothing else.**  Every expression is
lowered like its normal form, and refused for the same reason if it is refused.  Two expressions
that are both lowered to a scalar have the same one if and only if their normal forms are the
same. -/
theorem Expr.lower_eq_iff_norm_eq :
    (∀ e : Expr, e.lower = e.norm.lower) ∧
    ∀ (e e' : Expr) (x x' : Scalar), e.lower = .ok x → e'.lower = .ok x' →
      (e.lower = e'.lower ↔ e.norm = e'.norm) := by
  refine ⟨fun e => e.lower_norm.symm, fun e e' x x' he he' => ⟨fun same => ?_, fun same => ?_⟩⟩
  · -- one scalar, and from it one normal form
    obtain rfl : x = x' := Except.ok.inj (he.symm.trans (same.trans he'))
    exact Option.some.inj ((Expr.expr?_of_lower he).symm.trans (Expr.expr?_of_lower he'))
  · calc e.lower = e.norm.lower := e.lower_norm.symm
      _ = e'.norm.lower := by rw [same]
      _ = e'.lower := e'.lower_norm

namespace Expr

/-- `NOT left = count(right)`, with `=` as the operator spells it -/
def notCount (op : BinaryOp) (left right : Expr) (distinct : Bool) : Expr :=
  .unary .not (.binary op left (.call "count" distinct (.list [right]) none none))

/-- `NOT (main.t.x) == count(DISTINCT y)` -/
def spelledOut : Expr :=
  notCount .doubleEquals
    (.row [.column { schema := some "main", table := some "t", column := "x" }])
    (.column { column := "y" }) true

theorem norm_spelledOut :
    spelledOut.norm = notCount .equals (.literal "main.t.x") (.literal "y") true := by
  unfold spelledOut notCount
  simp only [norm, Args.norm, normAll, BinaryOp.norm, ColumnRef.dotted_eq_text]
  rfl

/-- Two literals may stand for the column references, but the call must stay one over distinct
values. -/
theorem lower_eq_iff_norm_eq_spelledOut :
    spelledOut.lower = (notCount .equals (.literal "main.t.x") (.literal "y") true).lower ∧
      spelledOut.lower ≠ (notCount .equals (.literal "main.t.x") (.literal "y") false).lower := by
  constructor
  · exact (lower_eq_iff_norm_eq.2 _ _ _ _ rfl rfl).mpr norm_spelledOut
  · intro same
    have norm_eq := (lower_eq_iff_norm_eq.2 _ _ _ _ rfl rfl).mp same
    rw [norm_spelledOut] at norm_eq
    cases norm_eq

end Expr

end Sql

end SqlPlan
