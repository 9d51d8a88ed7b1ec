import SqlPlan.Proofs.Lowering.Image

/-!
# The filter for every row

A write without `WHERE` is about every row of its table, and its filter is the truth value `true`.
That filter must come from nowhere else: a condition that was lowered to it would turn a guarded
write into one on the whole table.  This cannot be, since no expression, not even a literal `TRUE`
between any number of parentheses, is lowered to a scalar with a truth value in it.

So the truth values of a lowered command tell the writes without `WHERE` from all other statements.
There is one, and it is the filter; everywhere else there is none
(`StatementKind.filter_is_true_iff_no_where`).
-/

namespace SqlPlan

namespace Plan

/-! ### Truth values in plans -/

mutual

/-- The truth values in a scalar, at any depth, from left to right. -/
def Scalar.truthValues : Scalar → List Bool
  | .literal _ => []
  | .numeric _ => []
  | .boolean value => [value]
  | .unary _ x => x.truthValues
  | .binary x _ y => x.truthValues ++ y.truthValues
  | .call _ _ args => Scalar.truthValuesAll args
  | .equality x y _ => x.truthValues ++ y.truthValues
  | .range x lo hi _ => x.truthValues ++ lo.truthValues ++ hi.truthValues

/-- The truth values in some scalars. -/
def Scalar.truthValuesAll : List Scalar → List Bool
  | [] => []
  | x :: xs => x.truthValues ++ Scalar.truthValuesAll xs

end

namespace Rows

mutual

/-- The truth values in all scalars of a row source. -/
def truthValues : Rows → List Bool
  | scan _ => []
  | select filter input => Scalar.truthValuesAll filter.toList ++ input.truthValues
  | project cols input => Scalar.truthValuesAll (cols.map Column.value) ++ input.truthValues
  | join spec left right =>
    Scalar.truthValuesAll spec.filter.toList ++ operandTruthValues left ++ operandTruthValues right
  | limit count input => count.truthValues ++ input.truthValues
  | offset count input => count.truthValues ++ input.truthValues
  | distinct input => input.truthValues
  | values rows => rows.flatMap Scalar.truthValuesAll

/-- The truth values in a join operand. -/
def operandTruthValues : Option Rows → List Bool
  | none => []
  | some rows => rows.truthValues

end

end Rows

/-- The truth values in all scalars of a command. -/
def Command.truthValues : Command → List Bool
  | explain inner => inner.truthValues
  | query rows => rows.truthValues
  | insert write => Rows.operandTruthValues write.input
  | update write =>
    Scalar.truthValuesAll (write.setters.map Setter.value) ++ write.filter.truthValues
  | delete write => write.filter.truthValues
  | drop _ _ => []

/-! ### Lowered plans hold none -/

theorem Scalar.truthValuesAll_eq_nil {xs : List Scalar} (h : ∀ x ∈ xs, x.truthValues = []) :
    truthValuesAll xs = [] := by
  induction xs with
  | nil => rfl
  | cons x xs ih =>
    have rest := ih fun y hy => h y (List.mem_cons_of_mem x hy)
    rw [truthValuesAll, h x List.mem_cons_self, rest, List.append_nil]

theorem Scalar.Plain.truthValues_eq_nil {x : Scalar} (h : x.Plain) : x.truthValues = [] := by
  induction h with
  | literal text => rfl
  | unary op _ ih => rw [truthValues, ih]
  | binary op _ _ ihx ihy => rw [truthValues, ihx, ihy, List.append_nil]
  | call name _ _ ih => rw [truthValues, truthValuesAll_eq_nil ih]
  | equality invert _ _ ihx ihy => rw [truthValues, ihx, ihy, List.append_nil]
  | range invert _ _ _ ihx ihlo ihhi =>
    rw [truthValues, ihx, ihlo, ihhi, List.append_nil, List.append_nil]

theorem Scalar.truthValuesAll_eq_nil_of_plain {xs : List Scalar} (h : ∀ x ∈ xs, x.Plain) :
    truthValuesAll xs = [] :=
  truthValuesAll_eq_nil fun x hx => (h x hx).truthValues_eq_nil

theorem Column.Plain.plain_value {col : Column} (h : col.Plain) : col.value.Plain := by
  cases h with
  | tableStar table => exact .literal "*"
  | scalar label hx => exact hx

namespace Rows

theorem JoinTree.truthValues_eq_nil {rows : Rows} (h : rows.JoinTree) : rows.truthValues = [] := by
  induction h with
  | scan _ => rfl
  | @join spec _ _ hspec _ _ ihl ihr =>
    have filter_none : Scalar.truthValuesAll spec.filter.toList = [] :=
      Scalar.truthValuesAll_eq_nil_of_plain fun x hx => hspec.2 x (Option.mem_toList.mp hx)
    rw [truthValues, operandTruthValues, operandTruthValues, filter_none, ihl, ihr]
    rfl

theorem ClauseSource.truthValues_eq_nil {rows : Rows} (h : rows.ClauseSource) :
    rows.truthValues = [] := by
  cases h with
  | joinTree hrows => exact hrows.truthValues_eq_nil
  | singleRow => rfl

theorem ClauseInput.truthValues_eq_nil {rows : Rows} (h : rows.ClauseInput) :
    rows.truthValues = [] := by
  cases h with
  | unfiltered hrows => exact hrows.truthValues_eq_nil
  | @filtered x _ hx hrows =>
    have filter_none : Scalar.truthValuesAll [x] = [] :=
      Scalar.truthValuesAll_eq_nil_of_plain fun y hy => List.mem_singleton.mp hy ▸ hx
    rw [truthValues, hrows.truthValues_eq_nil, List.append_nil]
    exact filter_none

theorem truthValues_project_eq_nil {cols : List Column} {input : Rows}
    (hcols : ∀ col ∈ cols, col.Plain) (hinput : input.ClauseInput) :
    (project cols input).truthValues = [] := by
  have cols_none : Scalar.truthValuesAll (cols.map Column.value) = [] := by
    refine Scalar.truthValuesAll_eq_nil_of_plain (List.forall_mem_map.mpr ?_)
    exact fun col hcol => (hcols col hcol).plain_value
  rw [truthValues, cols_none, hinput.truthValues_eq_nil, List.append_nil]

theorem CorePlan.truthValues_eq_nil {rows : Rows} (h : rows.CorePlan) : rows.truthValues = [] := by
  cases h with
  | values _ plain =>
    rw [truthValues, List.flatMap_eq_nil_iff]
    exact fun row hrow => Scalar.truthValuesAll_eq_nil_of_plain (plain row hrow)
  | project hcols hinput => exact truthValues_project_eq_nil hcols hinput
  | distinct hcols hinput => exact truthValues_project_eq_nil hcols hinput

theorem SelectPlan.truthValues_eq_nil {rows : Rows} (h : rows.SelectPlan) :
    rows.truthValues = [] := by
  cases h with
  | core hcore => exact hcore.truthValues_eq_nil
  | limit hx hcore =>
    rw [truthValues, hx.truthValues_eq_nil, hcore.truthValues_eq_nil, List.append_nil]
  | limitOffset hx hy hcore =>
    rw [truthValues, truthValues, hx.truthValues_eq_nil, hy.truthValues_eq_nil,
      hcore.truthValues_eq_nil, List.append_nil, List.append_nil]

theorem operandTruthValues_eq_nil {input : Option Rows} (h : ∀ rows ∈ input, rows.SelectPlan) :
    operandTruthValues input = [] := by
  cases input with
  | none => rfl
  | some rows => exact (h rows rfl).truthValues_eq_nil

end Rows

end Plan

namespace Sql

open Plan

/-! ### Filters of writes -/

/-- What a filter says about the `WHERE` that it stands for. -/
structure FilterSays (filter : Scalar) (clause : Option Expr) : Prop where
  /-- It is `true` for want of a `WHERE` only. -/
  true_iff : filter = .boolean true ↔ clause = none
  /-- Otherwise it is the lowered condition, and has no truth value at any depth. -/
  lowers : ∀ e, clause = some e → e.lower = .ok filter ∧ filter.truthValues = []

theorem filterSays_of_lowerFilter {clause : Option Expr} {filter : Scalar}
    (h : lowerFilter clause = .ok filter) : FilterSays filter clause := by
  cases clause with
  | none =>
    cases h
    exact ⟨iff_of_true rfl rfl, nofun⟩
  | some e =>
    have none_inside := (Expr.plain_of_lower h).truthValues_eq_nil
    refine ⟨⟨?_, nofun⟩, ?_⟩
    · rintro rfl
      cases none_inside
    · rintro _ ⟨⟩
      exact ⟨h, none_inside⟩

theorem truthValuesAll_assignments {assignments : List Assignment} {setters : List Setter}
    (h : List.Forall₂ (fun a setter => a.lower = .ok setter) assignments setters) :
    Scalar.truthValuesAll (setters.map Setter.value) = [] := by
  refine Scalar.truthValuesAll_eq_nil_of_plain (List.forall_mem_map.mpr fun setter hsetter => ?_)
  obtain ⟨a, -, ha⟩ := Step.exists_of_mem_right h hsetter
  obtain ⟨x, hx, rfl⟩ := Assignment.lower_iff.mp ha
  exact Expr.plain_of_lower hx

namespace StatementKind

/-- **The filter `true` stands for a missing `WHERE`, and for nothing else.**  The filter of a write
is `true` exactly if the write has no `WHERE`; with a `WHERE` it is the lowered condition, in which
there is no truth value at any depth.  There is no truth value in the rest of the command either,
nor anywhere in the command of another statement. -/
theorem filter_is_true_iff_no_where (k : StatementKind) (c : Command) (h : k.lower = .ok c) :
    (∀ w, k = .delete w → ∃ write : Plan.Delete, c = .delete write ∧
      FilterSays write.filter w.filter ∧ c.truthValues = write.filter.truthValues) ∧
    (∀ w, k = .update w → ∃ write : Plan.Update, c = .update write ∧
      FilterSays write.filter w.filter ∧ c.truthValues = write.filter.truthValues) ∧
    ((∀ w, k ≠ .delete w) → (∀ w, k ≠ .update w) → c.truthValues = []) := by
  refine ⟨?_, ?_, fun no_delete no_update => ?_⟩
  · rintro w rfl
    obtain ⟨write, hwrite, rfl⟩ := lower_delete_iff.mp h
    obtain ⟨-, filter, hfilter, rfl⟩ := Delete.lower_iff.mp hwrite
    exact ⟨_, rfl, filterSays_of_lowerFilter hfilter, rfl⟩
  · rintro w rfl
    obtain ⟨write, hwrite, rfl⟩ := lower_update_iff.mp h
    obtain ⟨-, setters, hsetters, filter, hfilter, rfl⟩ := Update.lower_iff.mp hwrite
    refine ⟨_, rfl, filterSays_of_lowerFilter hfilter, ?_⟩
    rw [Command.truthValues, truthValuesAll_assignments hsetters, List.nil_append]
  · cases k with
    | select query =>
      obtain ⟨rows, hrows, rfl⟩ := lower_select_iff.mp h
      exact (Select.selectPlan_of_lower hrows).truthValues_eq_nil
    | insert write =>
      obtain ⟨_, hwrite, rfl⟩ := lower_insert_iff.mp h
      obtain ⟨-, -, input, hinput, rfl⟩ := Insert.lower_iff.mp hwrite
      exact Rows.operandTruthValues_eq_nil (InsertSource.selectPlan_of_lower hinput)
    | update w => exact absurd rfl (no_update w)
    | delete w => exact absurd rfl (no_delete w)
    | drop change =>
      cases h
      rfl
    | create | alterTable | transaction | vacuum | analyze | pragma => cases h

/-- `DELETE FROM t WHERE (TRUE)` -/
def guardedDelete : StatementKind :=
  .delete { table := .ofName "t", filter := some (.row [.literal "TRUE"]) }

/-- `UPDATE t SET a = true` -/
def unguardedUpdate : StatementKind :=
  .update { table := .ofName "t", assignments := [{ columns := ["a"], value := .literal "true" }] }

/-- A literal `TRUE` is not the filter for every row, nor is a literal `true` a truth value. -/
theorem filter_is_true_iff_no_where_literals :
    let table : Plan.Table := .simple { name := "t" }
    let guarded : Plan.Delete := { table, filter := .literal "TRUE" }
    let unguarded : Plan.Update :=
      { table, setters := [{ cols := ["a"], value := .literal "true" }], filter := .boolean true }
    (guardedDelete.lower = .ok (.delete guarded) ∧
      FilterSays guarded.filter (some (.row [.literal "TRUE"])) ∧
      (Command.delete guarded).truthValues = []) ∧
    unguardedUpdate.lower = .ok (.update unguarded) ∧
      FilterSays unguarded.filter none ∧ (Command.update unguarded).truthValues = [true] := by
  intro table guarded unguarded
  obtain ⟨_, ⟨⟩, delete_says, delete_values⟩ :=
    (filter_is_true_iff_no_where guardedDelete (.delete guarded) rfl).1 _ rfl
  obtain ⟨_, ⟨⟩, update_says, update_values⟩ :=
    (filter_is_true_iff_no_where unguardedUpdate (.update unguarded) rfl).2.1 _ rfl
  exact ⟨⟨rfl, delete_says, delete_values⟩, rfl, update_says, update_values⟩

end StatementKind

end Sql

end SqlPlan
