import Mathlib.Data.List.Nodup
import SqlPlan.Plan.Encode
import SqlPlan.Proofs.Json.Text
import SqlPlan.Proofs.Plan.Represented

/-!
# Plans survive their text

A value is written as a tree that represents it, and the tree as a text that is read back as the
tree.  So the text of a plan, read and decoded as the type it came from, gives the plan back
(`Plan.text_round_trips`).

For each type the one fact to show is that the tree written for a value is among those that
represent it and has nothing in it that no text holds (`Json.Written`).  A value is read from
exactly the trees that represent it, so nothing about readers is left to show.
-/

namespace SqlPlan

open Json (Field Record Variant UnitVariant IsStr ArrayOf variant ofOption)

namespace Json

/-! ### Written trees -/

/-- A plain tree of which `P` holds. -/
structure Written (P : Json → Prop) (j : Json) : Prop where
  plain : j.Plain
  holds : P j

namespace Written

@[simp]
theorem isStr (s : String) : Written (IsStr s) (str s) := ⟨.str s, rfl⟩

@[simp]
theorem bool (b : Bool) : Written (· = bool b) (Json.bool b) := ⟨.bool b, rfl⟩

theorem int (n : Int) : Written (· = int n) (Json.int n) := ⟨.int n, rfl⟩

@[simp]
theorem unitVariant (name : String) : Written (UnitVariant name) (str name) :=
  ⟨.str name, .inl rfl⟩

theorem variant {name : String} {payload : Json → Prop} {p : Json} (h : Written payload p) :
    Written (Variant name payload) (variant name p) :=
  ⟨.obj (by simpa using h.plain), p, rfl, h.holds⟩

theorem arrayOf {R : α → Json → Prop} {encode : α → Json} {as : List α}
    (h : ∀ a ∈ as, Written (R a) (encode a)) :
    Written (ArrayOf (List.Forall₂ R as)) (arr (as.map encode)) := by
  refine ⟨.arr (by simpa using fun a ha => (h a ha).plain), _, rfl, ?_⟩
  rw [List.forall₂_map_right_iff, List.forall₂_same]
  exact fun a ha => (h a ha).holds

theorem optional {name : String} {R : α → Json → Prop} {encode : α → Json} {o : Option α}
    (h : ∀ a ∈ o, Written (R a) (encode a)) :
    Written (Field.optional name R o).Holds (ofOption encode o) := by
  cases o with
  | none => exact ⟨.null, rfl⟩
  | some a => exact h a rfl

/-- Each field has its entry. -/
theorem exists_entry {fields : List Field} {entries : List (String × Json)}
    (h : List.Forall₂ (fun f e => e.1 = f.name ∧ Written f.Holds e.2) fields entries) :
    ∀ f ∈ fields, ∃ j, (f.name, j) ∈ entries ∧ f.Holds j := by
  induction h with
  | nil => simp
  | @cons f e fields entries first _ ih =>
    refine List.forall_mem_cons.mpr ⟨⟨e.2, ?_, first.2.holds⟩, fun g hg => ?_⟩
    · rw [← first.1]
      exact List.mem_cons_self
    · obtain ⟨j, mem, holds⟩ := ih g hg
      exact ⟨j, List.mem_cons_of_mem _ mem, holds⟩

/-- The object that has the fields of a record in their order. -/
theorem record {fields : List Field} {entries : List (String × Json)}
    (h : List.Forall₂ (fun f e => e.1 = f.name ∧ Written f.Holds e.2) fields entries)
    (nodup : (fields.map Field.name).Nodup) : Written (Record fields) (obj entries) := by
  constructor
  · refine .obj ?_
    clear nodup
    induction h with
    | nil => simp
    | cons first _ ih => exact List.forall_mem_cons.mpr ⟨first.2.plain, ih⟩
  · refine .object fun f hf => ?_
    obtain ⟨j, mem, holds⟩ := exists_entry h f hf
    have keys : entries.map Prod.fst = fields.map Field.name := by
      clear nodup hf mem
      induction h with
      | nil => rfl
      | cons first _ ih => rw [List.map_cons, List.map_cons, first.1, ih]
    refine .inl ⟨j, mem, ?_, holds⟩
    rw [keys]
    exact List.count_eq_one_of_mem nodup (List.mem_map_of_mem hf)

end Written

end Json

namespace Plan

/-! ### Plans are written as trees that represent them -/

namespace Scalar

theorem toJsonAll_eq (ss : List Scalar) : toJsonAll ss = ss.map toJson := by
  induction ss with
  | nil => rfl
  | cons s ss ih => rw [toJsonAll, ih, List.map_cons]

mutual

theorem written : ∀ s : Scalar, Json.Written s.RepresentedBy s.toJson
  | literal text => by
    rw [RepresentedBy, toJson]
    exact .variant (.isStr text)
  | numeric value => by
    rw [RepresentedBy, toJson]
    exact .variant (.int value.toInt)
  | boolean value => by
    rw [RepresentedBy, toJson]
    exact .variant (.bool value)
  | unary op value => by
    rw [RepresentedBy, toJson]
    exact .variant (.record (by simp [written value]) (by simp))
  | binary left op right => by
    rw [RepresentedBy, toJson]
    exact .variant (.record (by simp [written left, written right]) (by simp))
  | call name distinct args => by
    rw [RepresentedBy, representedAll_eq, toJson, toJsonAll_eq]
    exact .variant (.record (by simp [Json.Written.arrayOf (written_of_mem args)]) (by simp))
  | equality left right invert => by
    rw [RepresentedBy, toJson]
    exact .variant (.record (by simp [written left, written right]) (by simp))
  | range needle lo hi invert => by
    rw [RepresentedBy, toJson]
    exact .variant (.record (by simp [written needle, written lo, written hi]) (by simp))

theorem written_of_mem : ∀ ss : List Scalar, ∀ s ∈ ss, Json.Written s.RepresentedBy s.toJson
  | [] => by simp
  | s :: ss => List.forall_mem_cons.mpr ⟨written s, written_of_mem ss⟩

end

end Scalar

theorem Column.written (c : Column) : Json.Written c.RepresentedBy c.toJson :=
  .record (by simp [Json.Written.optional, c.value.written]) (by simp)

theorem SimpleTable.written (t : SimpleTable) : Json.Written t.RepresentedBy t.toJson :=
  .record (by simp [Json.Written.optional]) (by simp)

theorem Table.written : ∀ t : Table, Json.Written t.RepresentedBy t.toJson
  | simple table => .variant table.written

namespace Rows

theorem toJsonOperand_eq (operand : Option Rows) :
    toJsonOperand operand = ofOption toJson operand := by
  cases operand <;> rfl

theorem written (rows : Rows) : Json.Written rows.RepresentedBy rows.toJson := by
  induction rows using induct with
  | scan table =>
    rw [RepresentedBy, toJson]
    exact .variant (.record (by simp [table.written]) (by simp))
  | select filter input ih =>
    rw [RepresentedBy, toJson]
    exact .variant (.record (by simp [Json.Written.optional, Scalar.written, ih]) (by simp))
  | project cols input ih =>
    rw [RepresentedBy, toJson]
    exact .variant (.record (by simp [Json.Written.arrayOf, Column.written, ih]) (by simp))
  | join spec left right ihl ihr =>
    rw [RepresentedBy, operandField_eq, operandField_eq, toJson, toJsonOperand_eq, toJsonOperand_eq]
    have filter : ∀ s ∈ spec.filter, Json.Written s.RepresentedBy s.toJson := fun s _ => s.written
    refine .variant (.record ?_ (by simp))
    simp [JoinKind.toJson, Json.Written.optional filter, Json.Written.optional ihl,
      Json.Written.optional ihr]
  | limit count input ih =>
    rw [RepresentedBy, toJson]
    exact .variant (.record (by simp [count.written, ih]) (by simp))
  | offset count input ih =>
    rw [RepresentedBy, toJson]
    exact .variant (.record (by simp [count.written, ih]) (by simp))
  | distinct input ih =>
    rw [RepresentedBy, toJson]
    exact .variant (.record (by simp [ih]) (by simp))
  | values rows =>
    rw [RepresentedBy, toJson]
    have row : ∀ row ∈ rows, Json.Written (ArrayOf (List.Forall₂ Scalar.RepresentedBy row))
        (.arr (Scalar.toJsonAll row)) := by
      intro row _
      rw [Scalar.toJsonAll_eq]
      exact .arrayOf fun s _ => s.written
    exact .variant (.record (by simp [Json.Written.arrayOf row]) (by simp))

end Rows

theorem Setter.written (s : Setter) : Json.Written s.RepresentedBy s.toJson :=
  .record (by simp [Json.Written.arrayOf, s.value.written]) (by simp)

theorem DropTarget.written (t : DropTarget) : Json.Written t.RepresentedBy t.toJson :=
  .record (by simp [Json.Written.optional]) (by simp)

theorem Insert.written (w : Insert) : Json.Written w.RepresentedBy w.toJson := by
  refine .record ?_ (by simp)
  simp [Json.Written.arrayOf, Json.Written.optional, w.table.written, Rows.written]

theorem Update.written (w : Update) : Json.Written w.RepresentedBy w.toJson := by
  refine .record ?_ (by simp)
  simp [Json.Written.arrayOf, w.table.written, Setter.written, w.filter.written]

theorem Delete.written (w : Delete) : Json.Written w.RepresentedBy w.toJson :=
  .record (by simp [w.table.written, w.filter.written]) (by simp)

theorem Command.written (c : Command) : Json.Written c.RepresentedBy c.toJson := by
  induction c with
  | explain inner ih => exact .variant ih
  | query rows => exact .variant rows.written
  | insert write => exact .variant write.written
  | update write => exact .variant write.written
  | delete write => exact .variant write.written
  | drop kind target => exact .variant target.written

end Plan

theorem Options.written (o : Options) : Json.Written o.RepresentedBy o.toJson := by
  have rules : Json.Written (rulesField o.rules).Holds (.arr (o.rules.map BuiltinRule.toJson)) :=
    .arrayOf fun r _ => .unitVariant r.name
  have record : Json.Written (Record [rulesField o.rules]) o.toJson :=
    .record (by simp [rulesField_name, rules]) (by simp)
  exact ⟨record.plain, .inl record.holds⟩

/-! ### Round trips -/

/-- Every value is read back from the text of its JSON form. -/
def Json.RoundTrips (encode : α → Json) (decode : Json → Option α) : Prop :=
  ∀ a, (read? (encode a).text).bind decode = some a

theorem Json.RoundTrips.of_written {encode : α → Json} {decode : Json → Option α}
    {represents : α → Json → Prop} (written : ∀ a, Written (represents a) (encode a))
    (eq_some_iff : ∀ a j, decode j = some a ↔ represents a j) : RoundTrips encode decode := by
  intro a
  rw [read?_text (written a).plain, Option.bind_some, eq_some_iff]
  exact (written a).holds

namespace Plan

/-- **Every plan is read back from its text**, whatever its depth, and so is every part of a plan,
every word and every configuration. -/
theorem text_round_trips :
    Json.RoundTrips Command.toJson Command.ofJson? ∧
    Json.RoundTrips Rows.toJson Rows.ofJson? ∧
    Json.RoundTrips Scalar.toJson Scalar.ofJson? ∧
    Json.RoundTrips Table.toJson Table.ofJson? ∧
    Json.RoundTrips SimpleTable.toJson SimpleTable.ofJson? ∧
    Json.RoundTrips Column.toJson Column.ofJson? ∧
    Json.RoundTrips Setter.toJson Setter.ofJson? ∧
    Json.RoundTrips DropTarget.toJson DropTarget.ofJson? ∧
    Json.RoundTrips (fun action => .str (ConflictAction.name action)) conflictAction? ∧
    Json.RoundTrips (fun op => .str (UnaryOp.name op)) unaryOp? ∧
    Json.RoundTrips (fun op => .str (BinaryOp.name op)) binaryOp? ∧
    Json.RoundTrips JoinKind.toJson joinKind? ∧
    Json.RoundTrips BuiltinRule.toJson BuiltinRule.ofJson? ∧
    Json.RoundTrips Options.toJson Options.ofJson? :=
  ⟨.of_written Command.written Command.ofJson?_eq_some_iff,
    .of_written Rows.written Rows.ofJson?_eq_some_iff,
    .of_written Scalar.written Scalar.ofJson?_eq_some_iff,
    .of_written Table.written Table.ofJson?_eq_some_iff,
    .of_written SimpleTable.written SimpleTable.ofJson?_eq_some_iff,
    .of_written Column.written Column.ofJson?_eq_some_iff,
    .of_written Setter.written Setter.ofJson?_eq_some_iff,
    .of_written DropTarget.written DropTarget.ofJson?_eq_some_iff,
    .of_written (fun action => .unitVariant action.name) fun _ _ => conflictAction?_eq_some_iff,
    .of_written (fun op => .unitVariant op.name) fun _ _ => unaryOp?_eq_some_iff,
    .of_written (fun op => .unitVariant op.name) fun _ _ => binaryOp?_eq_some_iff,
    .of_written (fun kind => .unitVariant kind.name) fun _ _ => joinKind?_eq_some_iff,
    .of_written (fun rule => .unitVariant rule.name) fun _ _ => BuiltinRule.ofJson?_eq_some_iff,
    .of_written Options.written Options.ofJson?_eq_some_iff⟩

end Plan

end SqlPlan
