import Mathlib.Data.List.Forall2
import SqlPlan.Lowering.Statement

/-!
# Inversion of lowering

Lowering is a chain of steps, each of which yields a value or is refused.  A chain that succeeds is
taken apart here: every link of it succeeded (`Step.bind_eq_ok_iff`), and so did every entry of a
list, one after the other (`Step.mapM_eq_ok_iff`).

From these two rules follows, for each kind of syntax, exactly when its lowering yields a given
result.  Each statement is an equivalence, so it serves in both directions: to learn how a result
came about, and to produce a given one.

Operators are lowered by tables.  Every operator of a plan comes from one operator of a statement,
its spelling (`BinaryOp.lower_spelled`); the operators that are not such a spelling are the tests
for equality and inequality (`BinaryOp.lower_cases`).
-/

namespace SqlPlan

/-! ### Chains of steps -/

namespace Step

theorem bind_eq_ok_iff {x : Except ε α} {f : α → Except ε β} {b : β} :
    x >>= f = .ok b ↔ ∃ a, x = .ok a ∧ f a = .ok b := by
  cases x with
  | error e => exact ⟨nofun, nofun⟩
  | ok a =>
    constructor
    · intro h
      exact ⟨a, rfl, h⟩
    · rintro ⟨_, ha, h⟩
      rw [ha]
      exact h

theorem pure_eq_ok_iff {a b : α} : (pure a : Except ε α) = .ok b ↔ a = b := by
  simp only [pure, Except.pure, Except.ok.injEq]

theorem refuseIf_eq_ok_iff {present : Bool} {c : Construct} {u : Unit} :
    refuseIf present c = .ok u ↔ present = false := by
  cases present <;> simp [refuseIf]

/-- A clause that is refused if present is absent from what succeeds. -/
theorem refuseIf_isSome_eq_ok_iff {clause : Option α} {c : Construct} {u : Unit} :
    refuseIf clause.isSome c = .ok u ↔ clause = none := by
  rw [refuseIf_eq_ok_iff, Option.isSome_eq_false_iff, Option.isNone_iff_eq_none]

/-- A list of steps succeeds exactly if each of them does, and yields their values in order. -/
theorem mapM_eq_ok_iff {f : α → Except ε β} {as : List α} {bs : List β} :
    as.mapM f = .ok bs ↔ List.Forall₂ (fun a b => f a = .ok b) as bs := by
  induction as generalizing bs with
  | nil => simp [pure, Except.pure, eq_comm]
  | cons a as ih =>
    rw [List.mapM_cons, bind_eq_ok_iff, List.forall₂_cons_left_iff]
    constructor
    · rintro ⟨b, hb, h⟩
      obtain ⟨bs', hbs, h⟩ := bind_eq_ok_iff.mp h
      exact ⟨b, bs', hb, ih.mp hbs, (pure_eq_ok_iff.mp h).symm⟩
    · rintro ⟨b, bs', hb, hbs, rfl⟩
      exact ⟨b, hb, bind_eq_ok_iff.mpr ⟨bs', ih.mpr hbs, rfl⟩⟩

/-- Every value of a list of steps is the value of one of them. -/
theorem exists_of_mem_right {R : α → β → Prop} {as : List α} {bs : List β}
    (h : List.Forall₂ R as bs) {b : β} (hb : b ∈ bs) : ∃ a ∈ as, R a b := by
  induction h with
  | nil => cases hb
  | @cons a' b' _ _ hab _ ih =>
    rcases List.mem_cons.mp hb with rfl | hb
    · exact ⟨a', List.mem_cons_self, hab⟩
    · obtain ⟨a, ha, hR⟩ := ih hb
      exact ⟨a, List.mem_cons_of_mem _ ha, hR⟩

/-- If each value of a list can be produced, so can the list. -/
theorem exists_forall₂ {R : α → β → Prop} {bs : List β} (h : ∀ b ∈ bs, ∃ a, R a b) :
    ∃ as, List.Forall₂ R as bs := by
  induction bs with
  | nil => exact ⟨[], .nil⟩
  | cons b bs ih =>
    obtain ⟨a, ha⟩ := h b List.mem_cons_self
    obtain ⟨as, has⟩ := ih fun b' hb' => h b' (List.mem_cons_of_mem _ hb')
    exact ⟨a :: as, .cons ha has⟩

end Step

/-! ### Operators -/

namespace Plan

/-- The unary operator that an operator of a plan comes from. -/
def UnaryOp.spelled : UnaryOp → Sql.UnaryOp
  | negate => .minus
  | plus => .plus
  | not => .not
  | bitNot => .bitNot

/-- The binary operator that an operator of a plan comes from. -/
def BinaryOp.spelled : BinaryOp → Sql.BinaryOp
  | concat => .concat
  | multiply => .multiply
  | divide => .divide
  | modulo => .modulo
  | add => .add
  | subtract => .subtract
  | shiftLeft => .shiftLeft
  | shiftRight => .shiftRight
  | bitAnd => .bitAnd
  | bitOr => .bitOr
  | less => .less
  | lessEquals => .lessEquals
  | greater => .greater
  | greaterEquals => .greaterEquals
  | is => .is
  | isNot => .isNot
  | like => .like
  | glob => .glob
  | and => .and
  | or => .or

theorem UnaryOp.lower_spelled (op : UnaryOp) : op.spelled.lower = op := by
  cases op <;> rfl

theorem BinaryOp.lower_spelled (op : BinaryOp) (x y : Scalar) :
    op.spelled.lower x y = .binary x op y := by
  cases op <;> rfl

end Plan

namespace Sql

open Plan (Rows Scalar Column JoinSpec)
open Step

theorem UnaryOp.spelled_lower (op : UnaryOp) : op.lower.spelled = op := by
  cases op <;> rfl

/-- A binary operator becomes the operator it is the spelling of, or a test for equality. -/
theorem BinaryOp.lower_cases (op : BinaryOp) :
    (∃ o : Plan.BinaryOp, op = o.spelled ∧ ∀ x y, op.lower x y = .binary x o y) ∨
    ((op = equals ∨ op = doubleEquals) ∧ ∀ x y, op.lower x y = .equality x y false) ∨
    ((op = notEquals ∨ op = lessGreater) ∧ ∀ x y, op.lower x y = .equality x y true) := by
  cases op with
  | equals => exact .inr (.inl ⟨.inl rfl, fun _ _ => rfl⟩)
  | doubleEquals => exact .inr (.inl ⟨.inr rfl, fun _ _ => rfl⟩)
  | notEquals => exact .inr (.inr ⟨.inl rfl, fun _ _ => rfl⟩)
  | lessGreater => exact .inr (.inr ⟨.inr rfl, fun _ _ => rfl⟩)
  | _ => exact .inl ⟨_, by rfl, fun _ _ => rfl⟩

/-! ### Expressions -/

namespace Expr

-- The equations of `lower` are made once here, rather than by all of the lemmas at the same time.
attribute [local simp] lower

theorem lower_unary_iff {op : UnaryOp} {e : Expr} {y : Scalar} :
    (unary op e).lower = .ok y ↔ ∃ x, e.lower = .ok x ∧ .unary op.lower x = y := by
  simp only [lower, bind_eq_ok_iff, pure_eq_ok_iff]

theorem lower_binary_iff {op : BinaryOp} {e e' : Expr} {y : Scalar} :
    (binary op e e').lower = .ok y ↔
      ∃ x, e.lower = .ok x ∧ ∃ x', e'.lower = .ok x' ∧ op.lower x x' = y := by
  simp only [lower, bind_eq_ok_iff, pure_eq_ok_iff]

theorem lower_between_iff {negated : Bool} {e low high : Expr} {y : Scalar} :
    (between negated e low high).lower = .ok y ↔
      ∃ x, e.lower = .ok x ∧ ∃ lo, low.lower = .ok lo ∧ ∃ hi, high.lower = .ok hi ∧
        .range x lo hi negated = y := by
  simp only [lower, bind_eq_ok_iff, pure_eq_ok_iff]

theorem lower_call_iff {name : String} {distinct : Bool} {args : Args} {filter : Option Expr}
    {window : Option Over} {y : Scalar} :
    (call name distinct args filter window).lower = .ok y ↔
      filter = none ∧ window = none ∧
        ∃ xs, args.lower distinct = .ok xs ∧ .call name distinct xs = y := by
  simp only [lower, bind_eq_ok_iff, refuseIf_isSome_eq_ok_iff, pure_eq_ok_iff, exists_const]

theorem lowerAll_eq_mapM (es : List Expr) : lowerAll es = es.mapM lower := by
  induction es with
  | nil => rfl
  | cons e es ih => rw [lowerAll, List.mapM_cons, ih]

theorem lowerAll_iff {es : List Expr} {xs : List Scalar} :
    lowerAll es = .ok xs ↔ List.Forall₂ (fun e x => e.lower = .ok x) es xs := by
  rw [lowerAll_eq_mapM, mapM_eq_ok_iff]

end Expr

theorem Args.lower_list_iff {items : List Expr} {distinct : Bool} {xs : List Scalar} :
    (list items).lower distinct = .ok xs ↔
      (distinct = true → items.length = 1) ∧ Expr.lowerAll items = .ok xs := by
  simp only [lower, bind_eq_ok_iff, refuseIf_eq_ok_iff, exists_const]
  cases distinct <;> simp

/-! ### Joins -/

theorem JoinOp.lower_join_iff {natural : Bool} {kind : Option JoinWord} {spec : JoinSpec} :
    (join natural kind).lower = .ok spec ↔
      ∃ k, JoinWord.lower kind = .ok k ∧ { kind := k, natural } = spec := by
  simp only [lower, bind_eq_ok_iff, pure_eq_ok_iff]

theorem JoinConstraint.lower_condition_iff {e : Expr} {filter : Option Scalar} :
    lower (some (condition e)) = .ok filter ↔ ∃ x, e.lower = .ok x ∧ some x = filter := by
  simp only [lower, bind_eq_ok_iff, pure_eq_ok_iff]

theorem joinSpec_iff {op : JoinOp} {constraint : Option JoinConstraint} {spec : JoinSpec} :
    joinSpec op constraint = .ok spec ↔
      ∃ plain, op.lower = .ok plain ∧ ∃ filter, JoinConstraint.lower constraint = .ok filter ∧
        { plain with filter := filter } = spec := by
  simp only [joinSpec, bind_eq_ok_iff, pure_eq_ok_iff]

theorem From.lower_tables_iff {first : Source} {sources : List Source} {rows : Rows} :
    (tables (first :: sources)).lower = .ok rows ↔
      ∃ start, first.lower = .ok start ∧ Source.crossAll start sources = .ok rows := by
  rw [lower, bind_eq_ok_iff]

theorem From.lower_join_iff {first : Source} {parts : List JoinPart} {rows : Rows} :
    (join first parts).lower = .ok rows ↔
      ∃ start, first.lower = .ok start ∧ JoinPart.joinAll start parts = .ok rows := by
  rw [lower, bind_eq_ok_iff]

theorem Source.crossAll_cons_iff {accumulated rows : Rows} {s : Source} {sources : List Source} :
    crossAll accumulated (s :: sources) = .ok rows ↔
      ∃ right, s.lower = .ok right ∧
        crossAll (.joined { kind := .cross } accumulated right) sources = .ok rows := by
  rw [crossAll, bind_eq_ok_iff]

theorem JoinPart.joinAll_cons_iff {accumulated rows : Rows} {part : JoinPart}
    {parts : List JoinPart} :
    joinAll accumulated (part :: parts) = .ok rows ↔
      ∃ spec, joinSpec part.op part.constraint = .ok spec ∧
      ∃ right, part.source.lower = .ok right ∧
        joinAll (.joined spec accumulated right) parts = .ok rows := by
  obtain ⟨op, source, constraint⟩ := part
  simp only [joinAll, bind_eq_ok_iff]

/-! ### Rows of values -/

/-- Rows are of one width if any two of them are equally long. -/
theorem sameWidth_iff {rows : List (List α)} :
    sameWidth rows = true ↔ ∀ r ∈ rows, ∀ r' ∈ rows, r.length = r'.length := by
  cases rows with
  | nil => simp [sameWidth]
  | cons first rows =>
    simp only [sameWidth, List.all_eq_true, beq_iff_eq]
    constructor
    · intro h
      have to_first : ∀ r ∈ first :: rows, r.length = first.length := by
        intro r hr
        rcases List.mem_cons.mp hr with rfl | hr
        · rfl
        · exact h r hr
      intro r hr r' hr'
      rw [to_first r hr, to_first r' hr']
    · intro h r hr
      exact h r (List.mem_cons_of_mem _ hr) first List.mem_cons_self

theorem lowerRows_iff {rows : List (List Expr)} {lowered : List (List Scalar)} :
    lowerRows rows = .ok lowered ↔
      sameWidth rows = true ∧ List.Forall₂ (fun r xs => Expr.lowerAll r = .ok xs) rows lowered := by
  unfold lowerRows
  by_cases h : sameWidth rows = true
  · rw [if_pos h, mapM_eq_ok_iff]
    simp only [h, true_and]
  · rw [if_neg h]
    simp [h]

/-! ### Queries -/

theorem ResultColumn.lower_expr_iff {e : Expr} {label : Option String} {col : Column} :
    (expr e label).lower = .ok col ↔ ∃ x, e.lower = .ok x ∧ { value := x, label } = col := by
  simp only [lower, bind_eq_ok_iff, pure_eq_ok_iff]

theorem applyFilter_some_iff {input rows : Rows} {e : Expr} :
    applyFilter input (some e) = .ok rows ↔
      ∃ x, e.lower = .ok x ∧ .select (some x) input = rows := by
  simp only [applyFilter, bind_eq_ok_iff, pure_eq_ok_iff]

theorem Clause.lower_iff {c : Clause} {rows : Rows} :
    c.lower = .ok rows ↔ c.windows = none ∧
      ∃ cols, List.Forall₂ (fun col col' => col.lower = .ok col') c.columns cols ∧
      ∃ source, lowerSource c.source = .ok source ∧
      ∃ input, applyFilter source c.filter = .ok input ∧ c.groupBy = none ∧
        applyQuantifier (.project cols input) c.quantifier = rows := by
  simp only [lower, bind_eq_ok_iff, refuseIf_isSome_eq_ok_iff, mapM_eq_ok_iff, pure_eq_ok_iff,
    exists_const]

theorem Core.lower_values_iff {values : List (List Expr)} {rows : Rows} :
    (Core.values values).lower = .ok rows ↔
      ∃ lowered, lowerRows values = .ok lowered ∧ .values lowered = rows := by
  simp only [lower, bind_eq_ok_iff, pure_eq_ok_iff]

theorem applyOffset_some_iff {input rows : Rows} {e : Expr} :
    applyOffset input (some e) = .ok rows ↔ ∃ x, e.lower = .ok x ∧ .offset x input = rows := by
  simp only [applyOffset, bind_eq_ok_iff, pure_eq_ok_iff]

theorem applyLimit_some_iff {input rows : Rows} {limit : Limit} :
    applyLimit input (some limit) = .ok rows ↔
      ∃ x, limit.count.lower = .ok x ∧
      ∃ skipped, applyOffset input limit.offset = .ok skipped ∧ .limit x skipped = rows := by
  obtain ⟨count, offset⟩ := limit
  simp only [applyLimit, bind_eq_ok_iff, pure_eq_ok_iff]

theorem Select.lower_iff {s : Select} {rows : Rows} :
    s.lower = .ok rows ↔ s.ctes = none ∧ s.compound = [] ∧
      ∃ core, s.core.lower = .ok core ∧ s.orderBy = none ∧ applyLimit core s.limit = .ok rows := by
  have compound_iff : ∀ u : Unit,
      refuseIf (!s.compound.isEmpty) .compound = .ok u ↔ s.compound = [] := by
    intro u
    rw [refuseIf_eq_ok_iff, Bool.not_eq_false', List.isEmpty_iff]
  simp only [lower, bind_eq_ok_iff, refuseIf_isSome_eq_ok_iff, compound_iff, exists_const]

/-! ### Writes -/

theorem InsertSource.lower_values_iff {columns : List String} {values : List (List Expr)}
    {input : Option Rows} :
    (InsertSource.values values).lower columns = .ok input ↔
      ∃ lowered, lowerRows values = .ok lowered ∧ checkWidth columns lowered = .ok () ∧
        some (.values lowered) = input := by
  simp only [lower, bind_eq_ok_iff, pure_eq_ok_iff]
  constructor
  · rintro ⟨lowered, h, ⟨⟩, width, rfl⟩
    exact ⟨lowered, h, width, rfl⟩
  · rintro ⟨lowered, h, width, rfl⟩
    exact ⟨lowered, h, (), width, rfl⟩

theorem InsertSource.lower_query_iff {columns : List String} {select : Select}
    {input : Option Rows} :
    (InsertSource.query select).lower columns = .ok input ↔
      ∃ rows, select.lower = .ok rows ∧ some rows = input := by
  simp only [lower, bind_eq_ok_iff, pure_eq_ok_iff]

theorem Insert.lower_iff {w : Insert} {write : Plan.Insert} :
    w.lower = .ok write ↔ w.ctes = none ∧ w.upsert = none ∧
      ∃ input, w.source.lower w.columns = .ok input ∧
        { onConflict := ConflictResolution.lower w.onConflict
          table := .simple { schema := w.table.schema, name := w.table.name, label := w.label }
          cols := w.columns
          input } = write := by
  simp only [lower, bind_eq_ok_iff, refuseIf_isSome_eq_ok_iff, pure_eq_ok_iff, exists_const]

theorem Assignment.lower_iff {a : Assignment} {setter : Plan.Setter} :
    a.lower = .ok setter ↔
      ∃ x, a.value.lower = .ok x ∧ { cols := a.columns, value := x } = setter := by
  simp only [lower, bind_eq_ok_iff, pure_eq_ok_iff]

theorem Update.lower_iff {w : Update} {write : Plan.Update} :
    w.lower = .ok write ↔ w.ctes = none ∧
      ∃ setters, List.Forall₂ (fun a setter => a.lower = .ok setter) w.assignments setters ∧
      ∃ filter, lowerFilter w.filter = .ok filter ∧
        { onConflict := ConflictResolution.lower w.onConflict
          table := .simple w.table.lower
          setters
          filter } = write := by
  simp only [lower, bind_eq_ok_iff, refuseIf_isSome_eq_ok_iff, mapM_eq_ok_iff, pure_eq_ok_iff,
    exists_const]

theorem Delete.lower_iff {w : Delete} {write : Plan.Delete} :
    w.lower = .ok write ↔ w.ctes = none ∧
      ∃ filter, lowerFilter w.filter = .ok filter ∧
        { table := .simple w.table.lower, filter } = write := by
  simp only [lower, bind_eq_ok_iff, refuseIf_isSome_eq_ok_iff, pure_eq_ok_iff, exists_const]

/-! ### Statements -/

namespace StatementKind

theorem lower_select_iff {query : Select} {command : Plan.Command} :
    (select query).lower = .ok command ↔
      ∃ rows, query.lower = .ok rows ∧ .query rows = command := by
  simp only [lower, bind_eq_ok_iff, pure_eq_ok_iff]

theorem lower_insert_iff {write : Insert} {command : Plan.Command} :
    (insert write).lower = .ok command ↔ ∃ w, write.lower = .ok w ∧ .insert w = command := by
  simp only [lower, bind_eq_ok_iff, pure_eq_ok_iff]

theorem lower_update_iff {write : Update} {command : Plan.Command} :
    (update write).lower = .ok command ↔ ∃ w, write.lower = .ok w ∧ .update w = command := by
  simp only [lower, bind_eq_ok_iff, pure_eq_ok_iff]

theorem lower_delete_iff {write : Delete} {command : Plan.Command} :
    (delete write).lower = .ok command ↔ ∃ w, write.lower = .ok w ∧ .delete w = command := by
  simp only [lower, bind_eq_ok_iff, pure_eq_ok_iff]

end StatementKind

end Sql

end SqlPlan
