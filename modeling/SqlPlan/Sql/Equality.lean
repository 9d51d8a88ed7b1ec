import SqlPlan.Sql.Statement

/-!
# Equality of statements

Two statements are equal if they are the same tree.  The types of a query contain each other through
lists and options, so the test walks both trees side by side, with one function for each type and
one for each kind of list.
-/

namespace SqlPlan.Sql

mutual

/-- Whether two expressions are the same tree. -/
def Expr.beq : Expr → Expr → Bool
  | .literal s, .literal t => s == t
  | .column c, .column d => c == d
  | .parameter m, .parameter n => m == n
  | .unary o x, .unary p y => o == p && x.beq y
  | .binary o x x', .binary p y y' => o == p && x.beq y && x'.beq y'
  | .between m x a b, .between n y c d => m == n && x.beq y && a.beq c && b.beq d
  | .call f d xs x o, .call g e ys y p =>
    f == g && d == e && xs.beq ys && Expr.beqOption x y && Over.beqOption o p
  | .row xs, .row ys => Expr.beqAll xs ys
  | .cast x s, .cast y t => x.beq y && s == t
  | .caseWhen x bs e, .caseWhen y cs f =>
    Expr.beqOption x y && Expr.beqBranches bs cs && Expr.beqOption e f
  | .inList m x xs, .inList n y ys => m == n && x.beq y && Expr.beqAll xs ys
  | .existsIn q, .existsIn r => q.beq r
  | .subquery q, .subquery r => q.beq r
  | _, _ => false
termination_by structural x => x

/-- Whether two optional expressions are the same, or both absent. -/
def Expr.beqOption : Option Expr → Option Expr → Bool
  | none, none => true
  | some x, some y => x.beq y
  | _, _ => false
termination_by structural x => x

/-- Whether two lists of expressions agree entry by entry. -/
def Expr.beqAll : List Expr → List Expr → Bool
  | [], [] => true
  | x :: xs, y :: ys => x.beq y && Expr.beqAll xs ys
  | _, _ => false
termination_by structural x => x

/-- Whether two lists of rows agree row by row. -/
def Expr.beqRows : List (List Expr) → List (List Expr) → Bool
  | [], [] => true
  | x :: xs, y :: ys => Expr.beqAll x y && Expr.beqRows xs ys
  | _, _ => false
termination_by structural x => x

/-- Whether two lists of branches agree branch by branch. -/
def Expr.beqBranches : List (Expr × Expr) → List (Expr × Expr) → Bool
  | [], [] => true
  | (x, x') :: xs, (y, y') :: ys => x.beq y && x'.beq y' && Expr.beqBranches xs ys
  | _, _ => false
termination_by structural x => x

/-- Whether two lists of arguments are the same. -/
def Args.beq : Args → Args → Bool
  | .star, .star => true
  | .list xs, .list ys => Expr.beqAll xs ys
  | _, _ => false
termination_by structural x => x

/-- Whether two uses of a window are the same. -/
def Over.beq : Over → Over → Bool
  | .window m, .window n => m == n
  | .definition v, .definition w => v.beq w
  | _, _ => false
termination_by structural x => x

/-- Whether two optional uses of a window are the same, or both absent. -/
def Over.beqOption : Option Over → Option Over → Bool
  | none, none => true
  | some x, some y => x.beq y
  | _, _ => false
termination_by structural x => x

/-- Whether two windows are the same. -/
def Window.beq : Window → Window → Bool
  | ⟨b, xs, os⟩, ⟨c, ys, ps⟩ => b == c && Expr.beqAll xs ys && OrderTerm.beqAll os ps
termination_by structural x => x

/-- Whether two orders agree term by term. -/
def OrderTerm.beqAll : List OrderTerm → List OrderTerm → Bool
  | [], [] => true
  | ⟨x, d⟩ :: xs, ⟨y, e⟩ :: ys => x.beq y && d == e && OrderTerm.beqAll xs ys
  | _, _ => false
termination_by structural x => x

/-- Whether two optional orders are the same, or both absent. -/
def OrderTerm.beqOption : Option (List OrderTerm) → Option (List OrderTerm) → Bool
  | none, none => true
  | some xs, some ys => OrderTerm.beqAll xs ys
  | _, _ => false
termination_by structural x => x

/-- Whether two queries are the same tree. -/
def Select.beq : Select → Select → Bool
  | ⟨w, c, cs, o, l⟩, ⟨w', c', cs', o', l'⟩ =>
    With.beqOption w w' && c.beq c' && Compound.beqAll cs cs' && OrderTerm.beqOption o o' &&
      Limit.beqOption l l'
termination_by structural x => x

/-- Whether two optional `WITH` clauses are the same, or both absent. -/
def With.beqOption : Option With → Option With → Bool
  | none, none => true
  | some ⟨r, ts⟩, some ⟨r', ts'⟩ => r == r' && Cte.beqAll ts ts'
  | _, _ => false
termination_by structural x => x

/-- Whether two lists of tables of a `WITH` agree table by table. -/
def Cte.beqAll : List Cte → List Cte → Bool
  | [], [] => true
  | ⟨n, c, q⟩ :: ts, ⟨n', c', q'⟩ :: ts' => n == n' && c == c' && q.beq q' && Cte.beqAll ts ts'
  | _, _ => false
termination_by structural x => x

/-- Whether two compounds agree part by part. -/
def Compound.beqAll : List Compound → List Compound → Bool
  | [], [] => true
  | ⟨o, c⟩ :: cs, ⟨o', c'⟩ :: cs' => o == o' && c.beq c' && Compound.beqAll cs cs'
  | _, _ => false
termination_by structural x => x

/-- Whether two optional limits are the same, or both absent. -/
def Limit.beqOption : Option Limit → Option Limit → Bool
  | none, none => true
  | some ⟨c, o⟩, some ⟨c', o'⟩ => c.beq c' && Expr.beqOption o o'
  | _, _ => false
termination_by structural x => x

/-- Whether two cores are the same tree. -/
def Core.beq : Core → Core → Bool
  | .select c, .select d => c.beq d
  | .values xs, .values ys => Expr.beqRows xs ys
  | _, _ => false
termination_by structural x => x

/-- Whether two select clauses are the same tree. -/
def Clause.beq : Clause → Clause → Bool
  | ⟨q, c, s, f, g, w⟩, ⟨q', c', s', f', g', w'⟩ =>
    q == q' && ResultColumn.beqAll c c' && From.beqOption s s' && Expr.beqOption f f' &&
      GroupBy.beqOption g g' && NamedWindow.beqOption w w'
termination_by structural x => x

/-- Whether two result columns are the same. -/
def ResultColumn.beq : ResultColumn → ResultColumn → Bool
  | .star, .star => true
  | .tableStar s, .tableStar t => s == t
  | .expr x a, .expr y b => x.beq y && a == b
  | _, _ => false
termination_by structural x => x

/-- Whether two lists of result columns agree column by column. -/
def ResultColumn.beqAll : List ResultColumn → List ResultColumn → Bool
  | [], [] => true
  | x :: xs, y :: ys => x.beq y && ResultColumn.beqAll xs ys
  | _, _ => false
termination_by structural x => x

/-- Whether two optional `GROUP BY` clauses are the same, or both absent. -/
def GroupBy.beqOption : Option GroupBy → Option GroupBy → Bool
  | none, none => true
  | some ⟨xs, h⟩, some ⟨ys, h'⟩ => Expr.beqAll xs ys && Expr.beqOption h h'
  | _, _ => false
termination_by structural x => x

/-- Whether two lists of windows agree window by window. -/
def NamedWindow.beqAll : List NamedWindow → List NamedWindow → Bool
  | [], [] => true
  | ⟨m, v⟩ :: vs, ⟨n, w⟩ :: ws => m == n && v.beq w && NamedWindow.beqAll vs ws
  | _, _ => false
termination_by structural x => x

/-- Whether two optional `WINDOW` clauses are the same, or both absent. -/
def NamedWindow.beqOption : Option (List NamedWindow) → Option (List NamedWindow) → Bool
  | none, none => true
  | some vs, some ws => NamedWindow.beqAll vs ws
  | _, _ => false
termination_by structural x => x

/-- Whether two `FROM` clauses are the same tree. -/
def From.beq : From → From → Bool
  | .tables xs, .tables ys => Source.beqAll xs ys
  | .join x ps, .join y qs => x.beq y && JoinPart.beqAll ps qs
  | _, _ => false
termination_by structural x => x

/-- Whether two optional `FROM` clauses are the same, or both absent. -/
def From.beqOption : Option From → Option From → Bool
  | none, none => true
  | some x, some y => x.beq y
  | _, _ => false
termination_by structural x => x

/-- Whether two sources are the same tree. -/
def Source.beq : Source → Source → Bool
  | .table m, .table n => m == n
  | .subquery q a, .subquery r b => q.beq r && a == b
  | .function m xs a, .function n ys b => m == n && Expr.beqAll xs ys && a == b
  | .nested x, .nested y => x.beq y
  | _, _ => false
termination_by structural x => x

/-- Whether two lists of sources agree source by source. -/
def Source.beqAll : List Source → List Source → Bool
  | [], [] => true
  | x :: xs, y :: ys => x.beq y && Source.beqAll xs ys
  | _, _ => false
termination_by structural x => x

/-- Whether two lists of join parts agree part by part. -/
def JoinPart.beqAll : List JoinPart → List JoinPart → Bool
  | [], [] => true
  | ⟨o, x, c⟩ :: ps, ⟨o', y, c'⟩ :: qs =>
    o == o' && x.beq y && JoinConstraint.beqOption c c' && JoinPart.beqAll ps qs
  | _, _ => false
termination_by structural x => x

/-- Whether two optional join conditions are the same, or both absent. -/
def JoinConstraint.beqOption : Option JoinConstraint → Option JoinConstraint → Bool
  | none, none => true
  | some (.condition x), some (.condition y) => x.beq y
  | some (.columns xs), some (.columns ys) => xs == ys
  | _, _ => false
termination_by structural x => x

end

/-! ### The test decides equality -/

mutual

theorem Expr.beq_iff : ∀ x y : Expr, x.beq y = true ↔ x = y
  | .literal _, y => by cases y <;> simp [Expr.beq]
  | .column _, y => by cases y <;> simp [Expr.beq]
  | .parameter _, y => by cases y <;> simp [Expr.beq]
  | .unary _ x, y => by cases y <;> simp [Expr.beq, Expr.beq_iff x]
  | .binary _ x x', y => by cases y <;> simp [Expr.beq, Expr.beq_iff x, Expr.beq_iff x', and_assoc]
  | .between _ x a b, y => by
    cases y <;> simp [Expr.beq, Expr.beq_iff x, Expr.beq_iff a, Expr.beq_iff b, and_assoc]
  | .call _ _ xs x o, y => by
    cases y <;> simp [Expr.beq, Args.beq_iff xs, Expr.beqOption_iff x, Over.beqOption_iff o,
      and_assoc]
  | .row xs, y => by cases y <;> simp [Expr.beq, Expr.beqAll_iff xs]
  | .cast x _, y => by cases y <;> simp [Expr.beq, Expr.beq_iff x]
  | .caseWhen x bs e, y => by
    cases y <;> simp [Expr.beq, Expr.beqOption_iff x, Expr.beqBranches_iff bs,
      Expr.beqOption_iff e, and_assoc]
  | .inList _ x xs, y => by
    cases y <;> simp [Expr.beq, Expr.beq_iff x, Expr.beqAll_iff xs, and_assoc]
  | .existsIn q, y => by cases y <;> simp [Expr.beq, Select.beq_iff q]
  | .subquery q, y => by cases y <;> simp [Expr.beq, Select.beq_iff q]
termination_by structural x => x

theorem Expr.beqOption_iff : ∀ x y : Option Expr, Expr.beqOption x y = true ↔ x = y
  | none, y => by cases y <;> simp [Expr.beqOption]
  | some x, y => by cases y <;> simp [Expr.beqOption, Expr.beq_iff x]
termination_by structural x => x

theorem Expr.beqAll_iff : ∀ xs ys : List Expr, Expr.beqAll xs ys = true ↔ xs = ys
  | [], ys => by cases ys <;> simp [Expr.beqAll]
  | x :: xs, ys => by cases ys <;> simp [Expr.beqAll, Expr.beq_iff x, Expr.beqAll_iff xs]
termination_by structural x => x

theorem Expr.beqRows_iff : ∀ xs ys : List (List Expr), Expr.beqRows xs ys = true ↔ xs = ys
  | [], ys => by cases ys <;> simp [Expr.beqRows]
  | x :: xs, ys => by cases ys <;> simp [Expr.beqRows, Expr.beqAll_iff x, Expr.beqRows_iff xs]
termination_by structural x => x

theorem Expr.beqBranches_iff : ∀ xs ys : List (Expr × Expr), Expr.beqBranches xs ys = true ↔ xs = ys
  | [], ys => by cases ys <;> simp [Expr.beqBranches]
  | (x, x') :: xs, ys => by
    cases ys <;> simp [Expr.beqBranches, Expr.beq_iff x, Expr.beq_iff x', Expr.beqBranches_iff xs,
      Prod.ext_iff]
termination_by structural x => x

theorem Args.beq_iff : ∀ x y : Args, x.beq y = true ↔ x = y
  | .star, y => by cases y <;> simp [Args.beq]
  | .list xs, y => by cases y <;> simp [Args.beq, Expr.beqAll_iff xs]
termination_by structural x => x

theorem Over.beq_iff : ∀ x y : Over, x.beq y = true ↔ x = y
  | .window _, y => by cases y <;> simp [Over.beq]
  | .definition w, y => by cases y <;> simp [Over.beq, Window.beq_iff w]
termination_by structural x => x

theorem Over.beqOption_iff : ∀ x y : Option Over, Over.beqOption x y = true ↔ x = y
  | none, y => by cases y <;> simp [Over.beqOption]
  | some x, y => by cases y <;> simp [Over.beqOption, Over.beq_iff x]
termination_by structural x => x

theorem Window.beq_iff : ∀ x y : Window, x.beq y = true ↔ x = y
  | ⟨_, xs, os⟩, y => by
    cases y; simp [Window.beq, Expr.beqAll_iff xs, OrderTerm.beqAll_iff os, and_assoc]
termination_by structural x => x

theorem OrderTerm.beqAll_iff : ∀ xs ys : List OrderTerm, OrderTerm.beqAll xs ys = true ↔ xs = ys
  | [], ys => by cases ys <;> simp [OrderTerm.beqAll]
  | ⟨x, _⟩ :: xs, ys => by
    rcases ys with _ | ⟨⟨_, _⟩, _⟩ <;>
      simp [OrderTerm.beqAll, Expr.beq_iff x, OrderTerm.beqAll_iff xs]
termination_by structural x => x

theorem OrderTerm.beqOption_iff :
    ∀ x y : Option (List OrderTerm), OrderTerm.beqOption x y = true ↔ x = y
  | none, y => by cases y <;> simp [OrderTerm.beqOption]
  | some x, y => by cases y <;> simp [OrderTerm.beqOption, OrderTerm.beqAll_iff x]
termination_by structural x => x

theorem Select.beq_iff : ∀ x y : Select, x.beq y = true ↔ x = y
  | ⟨w, c, cs, o, l⟩, y => by
    cases y
    simp [Select.beq, With.beqOption_iff w, Core.beq_iff c, Compound.beqAll_iff cs,
      OrderTerm.beqOption_iff o, Limit.beqOption_iff l, and_assoc]
termination_by structural x => x

theorem With.beqOption_iff : ∀ x y : Option With, With.beqOption x y = true ↔ x = y
  | none, y => by cases y <;> simp [With.beqOption]
  | some ⟨_, ts⟩, y => by
    rcases y with _ | ⟨_, _⟩ <;> simp [With.beqOption, Cte.beqAll_iff ts]
termination_by structural x => x

theorem Cte.beqAll_iff : ∀ xs ys : List Cte, Cte.beqAll xs ys = true ↔ xs = ys
  | [], ys => by cases ys <;> simp [Cte.beqAll]
  | ⟨_, _, q⟩ :: xs, ys => by
    rcases ys with _ | ⟨⟨_, _, _⟩, _⟩ <;>
      simp [Cte.beqAll, Select.beq_iff q, Cte.beqAll_iff xs, and_assoc]
termination_by structural x => x

theorem Compound.beqAll_iff : ∀ xs ys : List Compound, Compound.beqAll xs ys = true ↔ xs = ys
  | [], ys => by cases ys <;> simp [Compound.beqAll]
  | ⟨_, c⟩ :: xs, ys => by
    rcases ys with _ | ⟨⟨_, _⟩, _⟩ <;>
      simp [Compound.beqAll, Core.beq_iff c, Compound.beqAll_iff xs]
termination_by structural x => x

theorem Limit.beqOption_iff : ∀ x y : Option Limit, Limit.beqOption x y = true ↔ x = y
  | none, y => by cases y <;> simp [Limit.beqOption]
  | some ⟨c, o⟩, y => by
    rcases y with _ | ⟨_, _⟩ <;> simp [Limit.beqOption, Expr.beq_iff c, Expr.beqOption_iff o]
termination_by structural x => x

theorem Core.beq_iff : ∀ x y : Core, x.beq y = true ↔ x = y
  | .select c, y => by cases y <;> simp [Core.beq, Clause.beq_iff c]
  | .values xs, y => by cases y <;> simp [Core.beq, Expr.beqRows_iff xs]
termination_by structural x => x

theorem Clause.beq_iff : ∀ x y : Clause, x.beq y = true ↔ x = y
  | ⟨_, c, s, f, g, w⟩, y => by
    cases y
    simp [Clause.beq, ResultColumn.beqAll_iff c, From.beqOption_iff s, Expr.beqOption_iff f,
      GroupBy.beqOption_iff g, NamedWindow.beqOption_iff w, and_assoc]
termination_by structural x => x

theorem ResultColumn.beq_iff : ∀ x y : ResultColumn, x.beq y = true ↔ x = y
  | .star, y => by cases y <;> simp [ResultColumn.beq]
  | .tableStar _, y => by cases y <;> simp [ResultColumn.beq]
  | .expr x _, y => by cases y <;> simp [ResultColumn.beq, Expr.beq_iff x]
termination_by structural x => x

theorem ResultColumn.beqAll_iff :
    ∀ xs ys : List ResultColumn, ResultColumn.beqAll xs ys = true ↔ xs = ys
  | [], ys => by cases ys <;> simp [ResultColumn.beqAll]
  | x :: xs, ys => by
    cases ys <;> simp [ResultColumn.beqAll, ResultColumn.beq_iff x, ResultColumn.beqAll_iff xs]
termination_by structural x => x

theorem GroupBy.beqOption_iff : ∀ x y : Option GroupBy, GroupBy.beqOption x y = true ↔ x = y
  | none, y => by cases y <;> simp [GroupBy.beqOption]
  | some ⟨xs, h⟩, y => by
    rcases y with _ | ⟨_, _⟩ <;> simp [GroupBy.beqOption, Expr.beqAll_iff xs, Expr.beqOption_iff h]
termination_by structural x => x

theorem NamedWindow.beqAll_iff :
    ∀ xs ys : List NamedWindow, NamedWindow.beqAll xs ys = true ↔ xs = ys
  | [], ys => by cases ys <;> simp [NamedWindow.beqAll]
  | ⟨_, w⟩ :: xs, ys => by
    rcases ys with _ | ⟨⟨_, _⟩, _⟩ <;>
      simp [NamedWindow.beqAll, Window.beq_iff w, NamedWindow.beqAll_iff xs]
termination_by structural x => x

theorem NamedWindow.beqOption_iff :
    ∀ x y : Option (List NamedWindow), NamedWindow.beqOption x y = true ↔ x = y
  | none, y => by cases y <;> simp [NamedWindow.beqOption]
  | some x, y => by cases y <;> simp [NamedWindow.beqOption, NamedWindow.beqAll_iff x]
termination_by structural x => x

theorem From.beq_iff : ∀ x y : From, x.beq y = true ↔ x = y
  | .tables xs, y => by cases y <;> simp [From.beq, Source.beqAll_iff xs]
  | .join x ps, y => by cases y <;> simp [From.beq, Source.beq_iff x, JoinPart.beqAll_iff ps]
termination_by structural x => x

theorem From.beqOption_iff : ∀ x y : Option From, From.beqOption x y = true ↔ x = y
  | none, y => by cases y <;> simp [From.beqOption]
  | some x, y => by cases y <;> simp [From.beqOption, From.beq_iff x]
termination_by structural x => x

theorem Source.beq_iff : ∀ x y : Source, x.beq y = true ↔ x = y
  | .table _, y => by cases y <;> simp [Source.beq]
  | .subquery q _, y => by cases y <;> simp [Source.beq, Select.beq_iff q]
  | .function _ xs _, y => by cases y <;> simp [Source.beq, Expr.beqAll_iff xs, and_assoc]
  | .nested x, y => by cases y <;> simp [Source.beq, From.beq_iff x]
termination_by structural x => x

theorem Source.beqAll_iff : ∀ xs ys : List Source, Source.beqAll xs ys = true ↔ xs = ys
  | [], ys => by cases ys <;> simp [Source.beqAll]
  | x :: xs, ys => by cases ys <;> simp [Source.beqAll, Source.beq_iff x, Source.beqAll_iff xs]
termination_by structural x => x

theorem JoinPart.beqAll_iff : ∀ xs ys : List JoinPart, JoinPart.beqAll xs ys = true ↔ xs = ys
  | [], ys => by cases ys <;> simp [JoinPart.beqAll]
  | ⟨_, x, c⟩ :: xs, ys => by
    rcases ys with _ | ⟨⟨_, _, _⟩, _⟩ <;>
      simp [JoinPart.beqAll, Source.beq_iff x, JoinConstraint.beqOption_iff c,
        JoinPart.beqAll_iff xs, and_assoc]
termination_by structural x => x

theorem JoinConstraint.beqOption_iff :
    ∀ x y : Option JoinConstraint, JoinConstraint.beqOption x y = true ↔ x = y
  | none, y => by cases y <;> simp [JoinConstraint.beqOption]
  | some (.condition x), y => by
    rcases y with _ | ⟨_ | _⟩ <;> simp [JoinConstraint.beqOption, Expr.beq_iff x]
  | some (.columns _), y => by
    rcases y with _ | ⟨_ | _⟩ <;> simp [JoinConstraint.beqOption]
termination_by structural x => x

end

/-! ### Instances -/

instance : DecidableEq Expr := fun x y => decidable_of_iff _ (Expr.beq_iff x y)

instance : DecidableEq Select := fun x y => decidable_of_iff _ (Select.beq_iff x y)

instance : DecidableEq With := fun x y =>
  decidable_of_iff _ ((With.beqOption_iff (some x) (some y)).trans Option.some_inj)

deriving instance DecidableEq for Assignment
deriving instance DecidableEq for InsertSource
deriving instance DecidableEq for Upsert
deriving instance DecidableEq for Insert
deriving instance DecidableEq for Update
deriving instance DecidableEq for Delete
deriving instance DecidableEq for StatementKind
deriving instance DecidableEq for Statement

end SqlPlan.Sql
