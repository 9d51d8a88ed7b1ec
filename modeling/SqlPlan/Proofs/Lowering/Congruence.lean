import Mathlib.Data.List.Forall2
import SqlPlan.Compiler

/-!
# Expressions with the same lowering are interchangeable

Lowering never looks at an expression otherwise than by lowering it.  So wherever an expression
stands in a statement, at any depth and even where lowering does not reach, another expression with
the same lowering may take its place, and the statement compiles to the same command or is refused
for the same reason (`Compiler.compile_congr`).

A place in a statement is a *context*: a statement with one expression left out, as a function of
that expression.  Contexts are put together from *frames*, each of which leaves out one direct part
of one piece of syntax.  For each category of syntax it is said when lowering cannot tell two of its
trees apart (`Category.Agree`).  One frame keeps that (`Frame.agree`), hence so does a context.
-/

namespace SqlPlan.Sql

/-! ### Contexts -/

/-- A category of syntax in which expressions stand. -/
inductive Category where
  | expr
  | args
  | overClause
  | window
  | orderTerm
  /-- One `WHEN` of a `CASE` with its `THEN`. -/
  | branch
  | select
  | ctes
  | cte
  | compound
  | limit
  | core
  | clause
  | resultColumn
  | groupBy
  | namedWindow
  | fromClause
  | source
  | joinPart
  | joinConstraint
  | assignment
  | insertSource
  | upsert
  | insert
  | update
  | delete
  | kind
  | statement
  | list (k : Category)
  | option (k : Category)

/-- The trees of a category. -/
abbrev Category.Tree : Category → Type
  | expr => Expr
  | args => Args
  | overClause => Over
  | window => Window
  | orderTerm => OrderTerm
  | branch => Expr × Expr
  | select => Select
  | ctes => With
  | cte => Cte
  | compound => Compound
  | limit => Limit
  | core => Core
  | clause => Clause
  | resultColumn => ResultColumn
  | groupBy => GroupBy
  | namedWindow => NamedWindow
  | fromClause => From
  | source => Source
  | joinPart => JoinPart
  | joinConstraint => JoinConstraint
  | assignment => Assignment
  | insertSource => InsertSource
  | upsert => Upsert
  | insert => Insert
  | update => Update
  | delete => Delete
  | kind => StatementKind
  | statement => Statement
  | list k => List k.Tree
  | option k => Option k.Tree

/-- A tree of category `k'` with one direct part of category `k` left out.  There is a frame for
each part in which an expression may stand. -/
inductive Frame : (k k' : Category) → (k.Tree → k'.Tree) → Prop where
  | item {k} (before after : List k.Tree) : Frame k (.list k) fun x => before ++ x :: after
  | present {k} : Frame k (.option k) some
  -- expressions
  | unary (op) : Frame .expr .expr fun x => .unary op x
  | binaryLeft (op right) : Frame .expr .expr fun x => .binary op x right
  | binaryRight (op left) : Frame .expr .expr fun x => .binary op left x
  | betweenOperand (negated low high) : Frame .expr .expr fun x => .between negated x low high
  | betweenLow (negated operand high) : Frame .expr .expr fun x => .between negated operand x high
  | betweenHigh (negated operand low) : Frame .expr .expr fun x => .between negated operand low x
  | callArgs (name distinct filter window) :
    Frame .args .expr fun x => .call name distinct x filter window
  | callFilter (name distinct args window) :
    Frame (.option .expr) .expr fun x => .call name distinct args x window
  | callWindow (name distinct args filter) :
    Frame (.option .overClause) .expr fun x => .call name distinct args filter x
  | row : Frame (.list .expr) .expr fun x => .row x
  | cast (type) : Frame .expr .expr fun x => .cast x type
  | caseOperand (branches otherwise) :
    Frame (.option .expr) .expr fun x => .caseWhen x branches otherwise
  | caseBranches (operand otherwise) :
    Frame (.list .branch) .expr fun x => .caseWhen operand x otherwise
  | caseOtherwise (operand branches) :
    Frame (.option .expr) .expr fun x => .caseWhen operand branches x
  | branchWhen (result) : Frame .expr .branch fun x => (x, result)
  | branchThen (test) : Frame .expr .branch fun x => (test, x)
  | inOperand (negated items) : Frame .expr .expr fun x => .inList negated x items
  | inItems (negated operand) : Frame (.list .expr) .expr fun x => .inList negated operand x
  | existsIn : Frame .select .expr fun x => .existsIn x
  | subqueryValue : Frame .select .expr fun x => .subquery x
  | args : Frame (.list .expr) .args fun x => .list x
  | overDefinition : Frame .window .overClause fun x => .definition x
  | windowPartitionBy (w : Window) :
    Frame (.list .expr) .window fun x => { w with partitionBy := x }
  | windowOrderBy (w : Window) : Frame (.list .orderTerm) .window fun x => { w with orderBy := x }
  | orderTerm (t : OrderTerm) : Frame .expr .orderTerm fun x => { t with expr := x }
  -- queries
  | selectCtes (s : Select) : Frame (.option .ctes) .select fun x => { s with ctes := x }
  | selectCore (s : Select) : Frame .core .select fun x => { s with core := x }
  | selectCompound (s : Select) : Frame (.list .compound) .select fun x => { s with compound := x }
  | selectOrderBy (s : Select) :
    Frame (.option (.list .orderTerm)) .select fun x => { s with orderBy := x }
  | selectLimit (s : Select) : Frame (.option .limit) .select fun x => { s with limit := x }
  | ctes (w : With) : Frame (.list .cte) .ctes fun x => { w with tables := x }
  | cte (t : Cte) : Frame .select .cte fun x => { t with query := x }
  | compound (c : Compound) : Frame .core .compound fun x => { c with core := x }
  | limitCount (l : Limit) : Frame .expr .limit fun x => { l with count := x }
  | limitOffset (l : Limit) : Frame (.option .expr) .limit fun x => { l with offset := x }
  | coreSelect : Frame .clause .core fun x => .select x
  | coreValues : Frame (.list (.list .expr)) .core fun x => .values x
  | clauseColumns (c : Clause) :
    Frame (.list .resultColumn) .clause fun x => { c with columns := x }
  | clauseSource (c : Clause) :
    Frame (.option .fromClause) .clause fun x => { c with source := x }
  | clauseFilter (c : Clause) : Frame (.option .expr) .clause fun x => { c with filter := x }
  | clauseGroupBy (c : Clause) : Frame (.option .groupBy) .clause fun x => { c with groupBy := x }
  | clauseWindows (c : Clause) :
    Frame (.option (.list .namedWindow)) .clause fun x => { c with windows := x }
  | resultColumn (label) : Frame .expr .resultColumn fun x => .expr x label
  | groupByExprs (g : GroupBy) : Frame (.list .expr) .groupBy fun x => { g with exprs := x }
  | groupByHaving (g : GroupBy) : Frame (.option .expr) .groupBy fun x => { g with having := x }
  | namedWindow (w : NamedWindow) : Frame .window .namedWindow fun x => { w with definition := x }
  | fromTables : Frame (.list .source) .fromClause fun x => .tables x
  | fromFirst (parts) : Frame .source .fromClause fun x => .join x parts
  | fromParts (first) : Frame (.list .joinPart) .fromClause fun x => .join first x
  | sourceSubquery (label) : Frame .select .source fun x => .subquery x label
  | sourceArgs (name label) : Frame (.list .expr) .source fun x => .function name x label
  | sourceNested : Frame .fromClause .source fun x => .nested x
  | joinSource (p : JoinPart) : Frame .source .joinPart fun x => { p with source := x }
  | joinConstraint (p : JoinPart) :
    Frame (.option .joinConstraint) .joinPart fun x => { p with constraint := x }
  | joinCondition : Frame .expr .joinConstraint fun x => .condition x
  -- statements
  | assignment (a : Assignment) : Frame .expr .assignment fun x => { a with value := x }
  | insertValues : Frame (.list (.list .expr)) .insertSource fun x => .values x
  | insertQuery : Frame .select .insertSource fun x => .query x
  | upsert (u : Upsert) :
    Frame (.option (.list .assignment)) .upsert fun x => { u with doUpdate := x }
  | insertCtes (w : Insert) : Frame (.option .ctes) .insert fun x => { w with ctes := x }
  | insertSource (w : Insert) : Frame .insertSource .insert fun x => { w with source := x }
  | insertUpsert (w : Insert) : Frame (.option .upsert) .insert fun x => { w with upsert := x }
  | updateCtes (w : Update) : Frame (.option .ctes) .update fun x => { w with ctes := x }
  | updateAssignments (w : Update) :
    Frame (.list .assignment) .update fun x => { w with assignments := x }
  | updateFilter (w : Update) : Frame (.option .expr) .update fun x => { w with filter := x }
  | deleteCtes (w : Delete) : Frame (.option .ctes) .delete fun x => { w with ctes := x }
  | deleteFilter (w : Delete) : Frame (.option .expr) .delete fun x => { w with filter := x }
  | select : Frame .select .kind fun x => .select x
  | insert : Frame .insert .kind fun x => .insert x
  | update : Frame .update .kind fun x => .update x
  | delete : Frame .delete .kind fun x => .delete x
  | statement (s : Statement) : Frame .kind .statement fun x => { s with kind := x }

/-- A tree with one expression left out, at any depth. -/
inductive Context : (k : Category) → (Expr → k.Tree) → Prop where
  | hole : Context .expr fun e => e
  | frame {k k' f C} : Frame k k' f → Context k C → Context k' fun e => f (C e)

/-! ### Agreement -/

/-- Lowering cannot tell two trees of a category apart.  Parts that are refused without being looked
into agree whatever they hold. -/
def Category.Agree : (k : Category) → k.Tree → k.Tree → Prop
  | expr, e, e' => e.lower = e'.lower
  | args, as, as' => as.lower = as'.lower
  | select, s, s' => s.lower = s'.lower
  | limit, l, l' => ∀ input, applyLimit input (some l) = applyLimit input (some l')
  | core, c, c' => c.lower = c'.lower
  | clause, c, c' => c.lower = c'.lower
  | resultColumn, c, c' => c.lower = c'.lower
  | fromClause, f, f' => f.lower = f'.lower
  | source, s, s' => s.lower = s'.lower
  | joinPart, p, p' =>
    joinSpec p.op p.constraint = joinSpec p'.op p'.constraint ∧ p.source.lower = p'.source.lower
  | joinConstraint, c, c' => JoinConstraint.lower (some c) = JoinConstraint.lower (some c')
  | assignment, a, a' => a.lower = a'.lower
  | insertSource, s, s' => ∀ columns, s.lower columns = s'.lower columns
  | insert, w, w' => w.lower = w'.lower
  | update, w, w' => w.lower = w'.lower
  | delete, w, w' => w.lower = w'.lower
  | kind, k, k' => k.lower = k'.lower
  | statement, s, s' => s.explain = s'.explain ∧ s.kind.lower = s'.kind.lower
  | list k, xs, xs' => List.Forall₂ k.Agree xs xs'
  | option k, x, x' => Option.Rel k.Agree x x'
  | overClause, _, _ => True
  | window, _, _ => True
  | orderTerm, _, _ => True
  | branch, _, _ => True
  | ctes, _, _ => True
  | cte, _, _ => True
  | compound, _, _ => True
  | groupBy, _, _ => True
  | namedWindow, _, _ => True
  | upsert, _, _ => True

theorem Category.agree_refl (k : Category) (x : k.Tree) : k.Agree x x := by
  induction k with
  | list k ih => exact List.forall₂_same.mpr fun y _ => ih y
  | option k ih =>
    cases x with
    | none => exact .none
    | some y => exact .some (ih y)
  | joinPart | statement => exact ⟨rfl, rfl⟩
  | limit | insertSource => exact fun _ => rfl
  | overClause | window | orderTerm | branch | ctes | cte | compound | groupBy | namedWindow
  | upsert =>
    trivial
  | _ => rfl

/-! ### Lists and optional parts -/

theorem mapM_congr {f : α → Except ε β} {as as' : List α}
    (h : List.Forall₂ (fun a a' => f a = f a') as as') : as.mapM f = as'.mapM f := by
  induction h with
  | nil => rfl
  | cons head _ ih => rw [List.mapM_cons, List.mapM_cons, head, ih]

theorem isSome_congr {R : α → β → Prop} {x : Option α} {y : Option β} (h : Option.Rel R x y) :
    x.isSome = y.isSome := by
  cases h <;> rfl

theorem isEmpty_congr {R : α → β → Prop} {xs : List α} {ys : List β} (h : List.Forall₂ R xs ys) :
    xs.isEmpty = ys.isEmpty := by
  cases h <;> rfl

theorem Expr.lowerAll_congr {es es' : List Expr}
    (h : List.Forall₂ (fun e e' : Expr => e.lower = e'.lower) es es') :
    Expr.lowerAll es = Expr.lowerAll es' := by
  induction h with
  | nil => rfl
  | cons head _ ih => rw [Expr.lowerAll, Expr.lowerAll, head, ih]

/-- A row is a group if it has one entry, and both rows have equally many. -/
theorem Expr.lower_row_congr {es es' : List Expr}
    (h : List.Forall₂ (fun e e' : Expr => e.lower = e'.lower) es es') :
    (Expr.row es).lower = (Expr.row es').lower := by
  cases h with
  | nil => rfl
  | cons head tail =>
    cases tail with
    | nil => rw [Expr.lower, Expr.lower, head]
    | cons _ _ => rfl

theorem Args.lower_list_congr {es es' : List Expr}
    (h : List.Forall₂ (fun e e' : Expr => e.lower = e'.lower) es es') :
    (Args.list es).lower = (Args.list es').lower := by
  funext distinct
  rw [Args.lower, Args.lower, h.length_eq, Expr.lowerAll_congr h]

theorem sameWidth_congr {R : List α → List β → Prop} (hR : ∀ r r', R r r' → r.length = r'.length)
    {rows : List (List α)} {rows' : List (List β)} (h : List.Forall₂ R rows rows') :
    sameWidth rows = sameWidth rows' := by
  cases h with
  | nil => rfl
  | cons head tail =>
    rw [sameWidth, sameWidth, hR _ _ head]
    induction tail with
    | nil => rfl
    | cons next _ ih => rw [List.all_cons, List.all_cons, hR _ _ next, ih]

theorem lowerRows_congr {rows rows' : List (List Expr)}
    (h : List.Forall₂ (List.Forall₂ fun e e' : Expr => e.lower = e'.lower) rows rows') :
    lowerRows rows = lowerRows rows' := by
  have width := sameWidth_congr (fun _ _ hr => hr.length_eq) h
  have entries := mapM_congr (h.imp fun _ _ => Expr.lowerAll_congr)
  rw [lowerRows, lowerRows, width, entries]

/-! ### Sources -/

theorem Source.crossAll_congr {sources sources' : List Source}
    (h : List.Forall₂ (fun s s' : Source => s.lower = s'.lower) sources sources')
    (accumulated : Plan.Rows) :
    Source.crossAll accumulated sources = Source.crossAll accumulated sources' := by
  induction h generalizing accumulated with
  | nil => rfl
  | cons head _ ih => simp only [Source.crossAll, head, ih]

theorem From.lower_tables_congr {sources sources' : List Source}
    (h : List.Forall₂ (fun s s' : Source => s.lower = s'.lower) sources sources') :
    (From.tables sources).lower = (From.tables sources').lower := by
  cases h with
  | nil => rfl
  | cons head tail => simp only [From.lower, head, Source.crossAll_congr tail]

theorem JoinPart.joinAll_congr {parts parts' : List JoinPart}
    (h : List.Forall₂ (Category.Agree .joinPart) parts parts') (accumulated : Plan.Rows) :
    JoinPart.joinAll accumulated parts = JoinPart.joinAll accumulated parts' := by
  induction h generalizing accumulated with
  | nil => rfl
  | @cons part part' _ _ head _ ih =>
    obtain ⟨op, source, constraint⟩ := part
    obtain ⟨op', source', constraint'⟩ := part'
    obtain ⟨spec_eq, source_eq⟩ := head
    simp only [JoinPart.joinAll, spec_eq, source_eq, ih]

theorem JoinConstraint.lower_congr {c c' : Option JoinConstraint}
    (h : Option.Rel (Category.Agree .joinConstraint) c c') :
    JoinConstraint.lower c = JoinConstraint.lower c' := by
  cases h with
  | none => rfl
  | some h => exact h

/-! ### Clauses -/

theorem lowerSource_congr {f f' : Option From} (h : Option.Rel (Category.Agree .fromClause) f f') :
    lowerSource f = lowerSource f' := by
  cases h with
  | none => rfl
  | some h => exact h

section OptionalExpr

variable {e e' : Option Expr} (h : Option.Rel (Category.Agree .expr) e e')
include h

theorem applyFilter_congr (input : Plan.Rows) : applyFilter input e = applyFilter input e' := by
  cases h with
  | none => rfl
  | some h => rw [applyFilter, applyFilter, h]

theorem applyOffset_congr (input : Plan.Rows) : applyOffset input e = applyOffset input e' := by
  cases h with
  | none => rfl
  | some h => rw [applyOffset, applyOffset, h]

theorem lowerFilter_congr : lowerFilter e = lowerFilter e' := by
  cases h with
  | none => rfl
  | some h => exact h

end OptionalExpr

theorem applyLimit_congr {l l' : Option Limit} (h : Option.Rel (Category.Agree .limit) l l')
    (input : Plan.Rows) : applyLimit input l = applyLimit input l' := by
  cases h with
  | none => rfl
  | some h => exact h input

/-! ### One frame -/

/-- A frame keeps agreement: what lowering makes of a tree depends on what it makes of the parts. -/
theorem Frame.agree {k k' : Category} {f : k.Tree → k'.Tree} (hf : Frame k k' f) {x x' : k.Tree}
    (h : k.Agree x x') : k'.Agree (f x) (f x') := by
  cases hf with
  | item before after =>
    exact List.rel_append (List.forall₂_same.mpr fun y _ => k.agree_refl y)
      (.cons h (List.forall₂_same.mpr fun y _ => k.agree_refl y))
  | present => exact .some h
  -- operands that are lowered, by whose result alone the whole goes on
  | unary _ | binaryLeft _ _ | binaryRight _ _ | betweenOperand _ _ _ | betweenLow _ _ _
  | betweenHigh _ _ _ | callArgs _ _ _ _ =>
    simp_all only [Category.Agree, Expr.lower]
  | resultColumn _ => simp_all only [Category.Agree, ResultColumn.lower]
  | joinCondition => simp_all only [Category.Agree, JoinConstraint.lower]
  | assignment _ => simp_all only [Category.Agree, Assignment.lower]
  | row => exact Expr.lower_row_congr h
  | args => exact Args.lower_list_congr h
  -- clauses that are refused if present, and constructs that are refused whatever they hold
  | callFilter _ _ _ _ | callWindow _ _ _ _ =>
    simp only [Category.Agree, Expr.lower, isSome_congr h]
  | cast _ | caseOperand _ _ | caseBranches _ _ | caseOtherwise _ _ | inOperand _ _ | inItems _ _
  | existsIn | subqueryValue | sourceSubquery _ | sourceArgs _ _ => rfl
  | branchWhen _ | branchThen _ | overDefinition | windowPartitionBy _ | windowOrderBy _
  | orderTerm _ | ctes _ | cte _ | compound _ | groupByExprs _ | groupByHaving _ | namedWindow _
  | upsert _ => trivial
  -- queries
  | selectCtes _ | selectOrderBy _ => simp only [Category.Agree, Select.lower, isSome_congr h]
  | selectCompound _ => simp only [Category.Agree, Select.lower, isEmpty_congr h]
  | selectCore _ => simp_all only [Category.Agree, Select.lower]
  | selectLimit _ => simp only [Category.Agree, Select.lower, applyLimit_congr h]
  | limitCount _ =>
    intro input
    simp_all only [Category.Agree, applyLimit]
  | limitOffset _ =>
    intro input
    simp only [applyLimit, applyOffset_congr h]
  | coreSelect => exact h
  | coreValues => simp only [Category.Agree, Core.lower, lowerRows_congr h]
  | clauseColumns _ => simp only [Category.Agree, Clause.lower, mapM_congr h]
  | clauseSource _ => simp only [Category.Agree, Clause.lower, lowerSource_congr h]
  | clauseFilter _ => simp only [Category.Agree, Clause.lower, applyFilter_congr h]
  | clauseGroupBy _ | clauseWindows _ => simp only [Category.Agree, Clause.lower, isSome_congr h]
  | fromTables => exact From.lower_tables_congr h
  | fromFirst _ => simp_all only [Category.Agree, From.lower]
  | fromParts _ => simp only [Category.Agree, From.lower, JoinPart.joinAll_congr h]
  | sourceNested => simp_all only [Category.Agree, Source.lower]
  | joinSource _ => exact ⟨rfl, h⟩
  | joinConstraint _ =>
    refine ⟨?_, rfl⟩
    simp only [joinSpec, JoinConstraint.lower_congr h]
  -- statements
  | insertValues =>
    intro columns
    simp only [InsertSource.lower, lowerRows_congr h]
  | insertQuery =>
    intro columns
    simp_all only [Category.Agree, InsertSource.lower]
  | insertCtes _ | insertUpsert _ => simp only [Category.Agree, Insert.lower, isSome_congr h]
  | insertSource w => simp only [Category.Agree, Insert.lower, h w.columns]
  | updateCtes _ => simp only [Category.Agree, Update.lower, isSome_congr h]
  | updateAssignments _ => simp only [Category.Agree, Update.lower, mapM_congr h]
  | updateFilter _ => simp only [Category.Agree, Update.lower, lowerFilter_congr h]
  | deleteCtes _ => simp only [Category.Agree, Delete.lower, isSome_congr h]
  | deleteFilter _ => simp only [Category.Agree, Delete.lower, lowerFilter_congr h]
  | select | insert | update | delete => simp_all only [Category.Agree, StatementKind.lower]
  | statement _ => exact ⟨rfl, h⟩

/-! ### Contexts -/

theorem Context.agree {k : Category} {C : Expr → k.Tree} (hC : Context k C) {e e' : Expr}
    (h : e.lower = e'.lower) : k.Agree (C e) (C e') := by
  induction hC with
  | hole => exact h
  | frame hf _ ih => exact hf.agree ih

/-! ### Expressions that differ only in spelling -/

theorem Expr.lower_group (e : Expr) : (Expr.row [e]).lower = e.lower := by
  rw [Expr.lower]

/-- The parts of a column reference that are present, with a dot between each two. -/
def ColumnRef.dotted (ref : ColumnRef) : String :=
  ".".intercalate (ref.schema.toList ++ ref.table.toList ++ [ref.column])

theorem ColumnRef.dotted_eq_text (ref : ColumnRef) : ref.dotted = ref.text := by
  obtain ⟨_ | schema, _ | table, column⟩ := ref <;>
    simp [dotted, text, Text.dotted, String.append_assoc]

theorem Expr.lower_column (ref : ColumnRef) :
    (Expr.column ref).lower = (Expr.literal ref.dotted).lower := by
  rw [ref.dotted_eq_text]
  rfl

theorem Expr.lower_binary_congr {op op' : BinaryOp} (h : op.lower = op'.lower)
    (left right : Expr) :
    (Expr.binary op left right).lower = (Expr.binary op' left right).lower := by
  simp only [Expr.lower, h]

end SqlPlan.Sql

namespace SqlPlan.Compiler

open Sql

theorem compile_context {C : Expr → Statement} (hC : Context .statement C) {e e' : Expr}
    (h : e.lower = e'.lower) (c : Compiler) : c.compile (C e) = c.compile (C e') := by
  obtain ⟨explain_eq, kind_eq⟩ := hC.agree h
  simp only [compile, explain_eq, kind_eq]

/-- **Expressions with the same lowering are interchangeable everywhere in a statement**, for any
rules: whether they have the same scalar or are refused for the same reason, so has and is the
statement around them.  Parentheses around one expression, the spelling of an equality and that of
an inequality, and whether a name is a column reference or a literal are therefore of no account. -/
theorem compile_congr (c : Compiler) (C : Expr → Statement) (hC : Context .statement C) :
    (∀ e e' : Expr, e.lower = e'.lower → c.compile (C e) = c.compile (C e')) ∧
    (∀ e : Expr, c.compile (C (.row [e])) = c.compile (C e)) ∧
    (∀ left right : Expr,
      c.compile (C (.binary .equals left right)) =
          c.compile (C (.binary .doubleEquals left right)) ∧
        c.compile (C (.binary .notEquals left right)) =
          c.compile (C (.binary .lessGreater left right))) ∧
    ∀ ref : ColumnRef, c.compile (C (.column ref)) = c.compile (C (.literal ref.dotted)) := by
  refine ⟨fun e e' h => compile_context hC h c, fun e => ?_, fun left right => ⟨?_, ?_⟩, ?_⟩
  · exact compile_context hC e.lower_group c
  · apply compile_context hC
    exact Expr.lower_binary_congr rfl left right
  · apply compile_context hC
    exact Expr.lower_binary_congr rfl left right
  · intro ref
    exact compile_context hC (Expr.lower_column ref) c

/-- `SELECT * FROM a JOIN b ON NOT e` -/
def joinOn (e : Expr) : Statement := .ofKind (.select (.ofClause {
  columns := [.star]
  source := some (.join (.table (.ofName "a"))
    [⟨.join false none, .table (.ofName "b"), some (.condition (.unary .not e))⟩]) }))

theorem context_joinOn : Context .statement joinOn :=
  .frame (.statement (.ofKind (.pragma { name := "" }))) <| .frame .select <|
    .frame (.selectCore (.ofCore (.values []))) <| .frame .coreSelect <|
    .frame (.clauseSource (.ofColumns [.star])) <| .frame .present <|
    .frame (.fromParts (.table (.ofName "a"))) <| .frame (.item [] []) <|
    .frame (.joinConstraint ⟨.join false none, .table (.ofName "b"), none⟩) <| .frame .present <|
    .frame .joinCondition <| .frame (.unary .not) .hole

/-- A column reference in parentheses makes the same join condition as the literal of its text. -/
theorem compile_congr_joinOn :
    ((Expr.row [.column { table := some "b", column := "x" }]).lower =
      (Expr.literal "b.x").lower ∧ Context .statement joinOn) ∧
    compile {} (joinOn (.row [.column { table := some "b", column := "x" }])) =
      compile {} (joinOn (.literal "b.x")) := by
  have same : (Expr.row [.column { table := some "b", column := "x" }]).lower =
      (Expr.literal "b.x").lower := by
    rw [Expr.lower_group, Expr.lower_column]
    rfl
  exact ⟨⟨same, context_joinOn⟩, (compile_congr {} joinOn context_joinOn).1 _ _ same⟩

end SqlPlan.Compiler
