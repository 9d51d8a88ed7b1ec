import SqlPlan.Options
import SqlPlan.Plan.Decode
import SqlPlan.Proofs.Json.Grammar

/-!
# The trees that represent a plan

For each type of plan, which JSON trees represent a value, by recursion on the value and without
reference to how trees are read (`Command.RepresentedBy` and the predicates it rests on).  The
reader of each type yields a value from exactly these trees (`Command.ofJson?_eq_some_iff` and its
likes).

Both sides of each equivalence come down to what is found of the fields of one record.  If the
fields found are as many as declared and none that must be there is missing, the reader decodes them
one by one, and otherwise neither side holds.
-/

namespace SqlPlan

open Json (Field Record Variant UnitVariant IsStr ArrayOf variant record_iff variant_iff)
open Json.Field (required optional)

namespace Plan

/-! ### Words and strings -/

@[simp]
theorem unaryOp?_eq_some_iff {j : Json} {op : UnaryOp} :
    unaryOp? j = some op ↔ UnitVariant op.name j :=
  Json.unit?_eq_some_iff fun op => by cases op <;> rfl

@[simp]
theorem binaryOp?_eq_some_iff {j : Json} {op : BinaryOp} :
    binaryOp? j = some op ↔ UnitVariant op.name j :=
  Json.unit?_eq_some_iff fun op => by cases op <;> rfl

@[simp]
theorem conflictAction?_eq_some_iff {j : Json} {action : ConflictAction} :
    conflictAction? j = some action ↔ UnitVariant action.name j :=
  Json.unit?_eq_some_iff fun action => by cases action <;> rfl

@[simp]
theorem joinKind?_eq_some_iff {j : Json} {kind : JoinKind} :
    joinKind? j = some kind ↔ UnitVariant kind.name j :=
  Json.unit?_eq_some_iff fun kind => by cases kind <;> rfl

@[simp]
theorem strings?_eq_some_iff {j : Json} {ss : List String} :
    strings? j = some ss ↔ ArrayOf (List.Forall₂ IsStr ss) j := by
  simp only [strings?, Json.listOf?_eq_some_iff, Json.str?_eq_some_iff]

@[simp]
theorem accepts_string_iff {j : Json} {found : Option j.Part} {o : Option String} (name : String) :
    (optional name IsStr o).Accepts found.unattach ↔ string? found = some o :=
  (Json.optional_eq_some_iff (fun _ _ _ => Json.str?_eq_some_iff) nofun).symm

/-! ### Scalars -/

namespace Scalar

/-- The name of a scalar's variant. -/
def tag : Scalar → String
  | literal _ => "Literal"
  | numeric _ => "Numeric"
  | boolean _ => "ConstantBoolean"
  | unary _ _ => "Unary"
  | binary _ _ _ => "Binary"
  | call _ _ _ => "Function"
  | equality _ _ _ => "Equality"
  | range _ _ _ _ => "Range"

mutual

/-- The trees that represent a scalar. -/
def RepresentedBy : Scalar → Json → Prop
  | literal text => Variant "Literal" (IsStr text)
  | numeric value => Variant "Numeric" (· = .int value.toInt)
  | boolean value => Variant "ConstantBoolean" (· = .bool value)
  | unary op value => Variant "Unary" (Record [required "op" (UnitVariant op.name),
      required "value" value.RepresentedBy])
  | binary left op right => Variant "Binary" (Record [required "left" left.RepresentedBy,
      required "op" (UnitVariant op.name), required "right" right.RepresentedBy])
  | call name distinct args => Variant "Function" (Record [required "name" (IsStr name),
      required "distinct" (· = .bool distinct), required "args" (ArrayOf (RepresentedAll args))])
  | equality left right invert => Variant "Equality" (Record [required "left" left.RepresentedBy,
      required "right" right.RepresentedBy, required "invert" (· = .bool invert)])
  | range needle lo hi invert => Variant "Range" (Record [required "needle" needle.RepresentedBy,
      required "lo" lo.RepresentedBy, required "hi" hi.RepresentedBy,
      required "invert" (· = .bool invert)])

/-- The lists of trees that represent some scalars one by one. -/
def RepresentedAll : List Scalar → List Json → Prop
  | [], js => js = []
  | s :: ss, js => ∃ j rest, s.RepresentedBy j ∧ RepresentedAll ss rest ∧ js = j :: rest

end

theorem representedAll_eq (ss : List Scalar) :
    RepresentedAll ss = List.Forall₂ RepresentedBy ss := by
  induction ss with
  | nil => funext js; simp [RepresentedAll]
  | cons s ss ih => funext js; simp only [RepresentedAll, List.forall₂_cons_left_iff, ih]

/-- A scalar is read from its own variant only. -/
theorem exists_eq_variant {j : Json} {s : Scalar} (h : ofJson? j = some s) :
    ∃ p, j = variant s.tag p := by
  rw [ofJson?] at h
  -- Each branch builds scalars of one constructor, which is the one with the tag of the branch.
  split at h <;> try split at h
  all_goals
    simp only [Option.map_eq_some_iff, Option.bind_eq_bind, Option.bind_eq_some_iff,
      Option.pure_def, reduceCtorEq] at h
  all_goals grind [tag, → Json.eq_variant_of_variant?]

mutual

theorem ofJson?_eq_some_iff : ∀ (s : Scalar) (j : Json), ofJson? j = some s ↔ s.RepresentedBy j
  | literal text, j => by
    rw [RepresentedBy]
    refine variant_iff exists_eq_variant fun p => ?_
    rw [ofJson?]
    simp only [variant, Json.variant?, tag, Option.map_eq_some_iff, literal.injEq, exists_eq_right,
      Json.str?_eq_some_iff]
  | numeric value, j => by
    rw [RepresentedBy]
    refine variant_iff exists_eq_variant fun p => ?_
    rw [ofJson?]
    simp only [variant, Json.variant?, tag, Option.map_eq_some_iff, numeric.injEq, exists_eq_right,
      Json.int64?_eq_some_iff]
  | boolean value, j => by
    rw [RepresentedBy]
    refine variant_iff exists_eq_variant fun p => ?_
    rw [ofJson?]
    simp only [variant, Json.variant?, tag, Option.map_eq_some_iff, boolean.injEq, exists_eq_right,
      Json.bool?_eq_some_iff]
  | unary op value, j => by
    rw [RepresentedBy]
    refine variant_iff exists_eq_variant fun p => ?_
    rw [ofJson?, record_iff]
    simp only [variant, Json.variant?, tag, List.map_cons, List.map_nil, Field.required_name]
    generalize p.record? ["op", "value"] = found
    -- Of what may be found, only two parts that are both there are read, and represent anything.
    rcases found with _ | (_ | ⟨_ | _, _ | ⟨_ | _, _ | _⟩⟩)
    all_goals simp [Option.bind_eq_some_iff, ofJson?_eq_some_iff value]
  | binary left op right, j => by
    rw [RepresentedBy]
    refine variant_iff exists_eq_variant fun p => ?_
    rw [ofJson?, record_iff]
    simp only [variant, Json.variant?, tag, List.map_cons, List.map_nil, Field.required_name]
    generalize p.record? ["left", "op", "right"] = found
    rcases found with _ | (_ | ⟨_ | _, _ | ⟨_ | _, _ | ⟨_ | _, _ | _⟩⟩⟩)
    all_goals
      simp [Option.bind_eq_some_iff, ofJson?_eq_some_iff left, ofJson?_eq_some_iff right]
  | call name distinct args, j => by
    rw [RepresentedBy]
    refine variant_iff exists_eq_variant fun p => ?_
    rw [ofJson?, record_iff]
    simp only [variant, Json.variant?, tag, List.map_cons, List.map_nil, Field.required_name]
    generalize p.record? ["name", "distinct", "args"] = found
    rcases found with _ | (_ | ⟨_ | _, _ | ⟨_ | _, _ | ⟨_ | _, _ | _⟩⟩⟩)
    all_goals
      simp [-Bool.exists_bool, Option.bind_eq_some_iff, ArrayOf, forall₂_ofJson?_iff args]
  | equality left right invert, j => by
    rw [RepresentedBy]
    refine variant_iff exists_eq_variant fun p => ?_
    rw [ofJson?, record_iff]
    simp only [variant, Json.variant?, tag, List.map_cons, List.map_nil, Field.required_name]
    generalize p.record? ["left", "right", "invert"] = found
    rcases found with _ | (_ | ⟨_ | _, _ | ⟨_ | _, _ | ⟨_ | _, _ | _⟩⟩⟩)
    all_goals
      simp [-Bool.exists_bool, Option.bind_eq_some_iff, ofJson?_eq_some_iff left,
        ofJson?_eq_some_iff right]
  | range needle lo hi invert, j => by
    rw [RepresentedBy]
    refine variant_iff exists_eq_variant fun p => ?_
    rw [ofJson?, record_iff]
    simp only [variant, Json.variant?, tag, List.map_cons, List.map_nil, Field.required_name]
    generalize p.record? ["needle", "lo", "hi", "invert"] = found
    rcases found with _ | (_ | ⟨_ | _, _ | ⟨_ | _, _ | ⟨_ | _, _ | ⟨_ | _, _ | _⟩⟩⟩⟩)
    all_goals
      simp [-Bool.exists_bool, Option.bind_eq_some_iff, ofJson?_eq_some_iff needle,
        ofJson?_eq_some_iff lo, ofJson?_eq_some_iff hi]

theorem forall₂_ofJson?_iff : ∀ (ss : List Scalar) (js : List Json),
    List.Forall₂ (fun s j => ofJson? j = some s) ss js ↔ RepresentedAll ss js
  | [], js => by simp [RepresentedAll]
  | s :: ss, js => by
    simp only [RepresentedAll, List.forall₂_cons_left_iff, ofJson?_eq_some_iff s,
      forall₂_ofJson?_iff ss]

end

attribute [simp] ofJson?_eq_some_iff

/-- A scalar is not represented by null, so an optional one is absent where null stands. -/
theorem not_representedBy_null (s : Scalar) : ¬s.RepresentedBy .null := by
  rw [← ofJson?_eq_some_iff]
  intro h
  obtain ⟨p, h⟩ := exists_eq_variant h
  cases h

@[simp]
theorem accepts_optional_iff {j : Json} {found : Option j.Part} {o : Option Scalar}
    (name : String) : (optional name RepresentedBy o).Accepts found.unattach ↔
      Json.optional (fun p => ofJson? p.1) found = some o :=
  (Json.optional_eq_some_iff (fun s _ p => ofJson?_eq_some_iff s p.1)
    fun s _ => s.not_representedBy_null).symm

end Scalar

@[simp]
theorem row?_eq_some_iff {row : List Scalar} {j : Json} :
    row? j = some row ↔ ArrayOf (List.Forall₂ Scalar.RepresentedBy row) j := by
  simp only [row?, Json.listOf?_eq_some_iff, Scalar.ofJson?_eq_some_iff]

/-! ### Columns and tables -/

/-- The trees that represent a column. -/
def Column.RepresentedBy (c : Column) : Json → Prop :=
  Record [optional "table" IsStr c.table, required "column" c.value.RepresentedBy,
    optional "alias" IsStr c.label]

@[simp]
theorem Column.ofJson?_eq_some_iff (c : Column) (j : Json) :
    ofJson? j = some c ↔ c.RepresentedBy j := by
  obtain ⟨table, value, label⟩ := c
  rw [ofJson?, RepresentedBy, record_iff]
  simp only [List.map_cons, List.map_nil, Field.required_name, Field.optional_name]
  generalize j.record? ["table", "column", "alias"] = found
  rcases found with _ | (_ | ⟨_, _ | ⟨_ | _, _ | ⟨_, _ | _⟩⟩⟩)
  all_goals simp [Option.bind_eq_some_iff]

/-- The trees that represent a table by name. -/
def SimpleTable.RepresentedBy (t : SimpleTable) : Json → Prop :=
  Record [optional "schema" IsStr t.schema, required "table" (IsStr t.name),
    optional "alias" IsStr t.label, required "indexed" (· = .bool t.indexed),
    optional "index" IsStr t.index]

@[simp]
theorem SimpleTable.ofJson?_eq_some_iff (t : SimpleTable) (j : Json) :
    ofJson? j = some t ↔ t.RepresentedBy j := by
  obtain ⟨schema, name, label, indexed, index⟩ := t
  rw [ofJson?, RepresentedBy, record_iff]
  simp only [List.map_cons, List.map_nil, Field.required_name, Field.optional_name]
  generalize j.record? ["schema", "table", "alias", "indexed", "index"] = found
  rcases found with _ | (_ | ⟨_, _ | ⟨_ | _, _ | ⟨_, _ | ⟨_ | _, _ | ⟨_, _ | _⟩⟩⟩⟩⟩)
  all_goals simp [-Bool.exists_bool, Option.bind_eq_some_iff]

namespace Table

/-- The trees that represent a table. -/
def RepresentedBy : Table → Json → Prop
  | simple table => Variant "Simple" table.RepresentedBy

@[simp]
theorem ofJson?_eq_some_iff (t : Table) (j : Json) : ofJson? j = some t ↔ t.RepresentedBy j := by
  obtain ⟨table⟩ := t
  have tagged : ∀ {j}, ofJson? j = some (simple table) → ∃ p, j = variant "Simple" p := by
    intro j h
    rw [ofJson?] at h
    split at h
    · next found => exact ⟨_, Json.eq_variant_of_variant? found⟩
    · cases h
  refine variant_iff tagged fun p => ?_
  simp only [ofJson?, variant, Json.variant?, Option.map_eq_some_iff, simple.injEq,
    exists_eq_right, SimpleTable.ofJson?_eq_some_iff]

end Table

/-! ### Rows -/

namespace Rows

/-- The name of the variant of a row source. -/
def tag : Rows → String
  | scan _ => "Scan"
  | select _ _ => "Select"
  | project _ _ => "Project"
  | join _ _ _ => "Join"
  | limit _ _ => "Limit"
  | offset _ _ => "Offset"
  | distinct _ => "Distinct"
  | values _ => "Values"

mutual

/-- The trees that represent a row source. -/
def RepresentedBy : Rows → Json → Prop
  | scan table => Variant "Scan" (Record [required "table" table.RepresentedBy])
  | select filter input => Variant "Select" (Record [optional "filter" Scalar.RepresentedBy filter,
      required "input" input.RepresentedBy])
  | project cols input => Variant "Project" (Record [
      required "cols" (ArrayOf (List.Forall₂ Column.RepresentedBy cols)),
      required "input" input.RepresentedBy])
  | join spec left right => Variant "Join" (Record [required "kind" (UnitVariant spec.kind.name),
      required "natural" (· = .bool spec.natural),
      optional "filter" Scalar.RepresentedBy spec.filter, operandField "left" left,
      operandField "right" right])
  | limit count input => Variant "Limit" (Record [required "limit" count.RepresentedBy,
      required "input" input.RepresentedBy])
  | offset count input => Variant "Offset" (Record [required "offset" count.RepresentedBy,
      required "input" input.RepresentedBy])
  | distinct input => Variant "Distinct" (Record [required "input" input.RepresentedBy])
  | values rows => Variant "Values" (Record [required "rows"
      (ArrayOf (List.Forall₂ (fun row => ArrayOf (List.Forall₂ Scalar.RepresentedBy row)) rows))])

/-- The field of a join operand. -/
def operandField (name : String) : Option Rows → Field
  | none => .absent name
  | some rows => required name rows.RepresentedBy

end

theorem operandField_eq (name : String) (operand : Option Rows) :
    operandField name operand = optional name RepresentedBy operand := by
  cases operand <;> rfl

theorem operandField_name (name : String) (operand : Option Rows) :
    (operandField name operand).name = name := by
  rw [operandField_eq, Field.optional_name]

/-- A row source is read from its own variant only. -/
theorem exists_eq_variant {j : Json} {rows : Rows} (h : ofJson? j = some rows) :
    ∃ p, j = variant rows.tag p := by
  rw [ofJson?] at h
  split at h <;> try split at h
  all_goals
    simp only [Option.map_eq_some_iff, Option.bind_eq_bind, Option.bind_eq_some_iff,
      Option.pure_def, reduceCtorEq] at h
  all_goals grind [tag, → Json.eq_variant_of_variant?]

/-- A join operand is read from what is found of its field, if the operand itself is. -/
theorem operandField_accepts_iff {operand : Option Rows}
    (read : ∀ rows ∈ operand, ∀ j, ofJson? j = some rows ↔ rows.RepresentedBy j) {j : Json}
    {found : Option j.Part} (name : String) :
    (operandField name operand).Accepts found.unattach ↔
      Json.optional (fun p => ofJson? p.1) found = some operand := by
  have notNull : ∀ rows ∈ operand, ¬rows.RepresentedBy .null := by
    intro rows mem
    rw [← read rows mem]
    intro h
    obtain ⟨p, h⟩ := exists_eq_variant h
    cases h
  rw [operandField_eq, Json.optional_eq_some_iff (fun rows mem p => read rows mem p.1) notNull]

@[simp]
theorem ofJson?_eq_some_iff (rows : Rows) (j : Json) :
    ofJson? j = some rows ↔ rows.RepresentedBy j := by
  induction rows using induct generalizing j with
  | scan table =>
    rw [RepresentedBy]
    refine variant_iff exists_eq_variant fun p => ?_
    rw [ofJson?, record_iff]
    simp only [variant, Json.variant?, tag, List.map_cons, List.map_nil, Field.required_name]
    generalize p.record? ["table"] = found
    rcases found with _ | (_ | ⟨_ | _, _ | _⟩)
    all_goals simp
  | select filter input ih =>
    rw [RepresentedBy]
    refine variant_iff exists_eq_variant fun p => ?_
    rw [ofJson?, record_iff]
    simp only [variant, Json.variant?, tag, List.map_cons, List.map_nil, Field.required_name,
      Field.optional_name]
    generalize p.record? ["filter", "input"] = found
    rcases found with _ | (_ | ⟨_, _ | ⟨_ | _, _ | _⟩⟩)
    all_goals simp [Option.bind_eq_some_iff, ih]
  | project cols input ih =>
    rw [RepresentedBy]
    refine variant_iff exists_eq_variant fun p => ?_
    rw [ofJson?, record_iff]
    simp only [variant, Json.variant?, tag, List.map_cons, List.map_nil, Field.required_name]
    generalize p.record? ["cols", "input"] = found
    rcases found with _ | (_ | ⟨_ | _, _ | ⟨_ | _, _ | _⟩⟩)
    all_goals simp [Option.bind_eq_some_iff, ih]
  | join spec left right ihl ihr =>
    obtain ⟨kind, natural, filter⟩ := spec
    rw [RepresentedBy]
    refine variant_iff exists_eq_variant fun p => ?_
    rw [ofJson?, record_iff]
    simp only [variant, Json.variant?, tag, joinFields, List.map_cons, List.map_nil,
      Field.required_name, Field.optional_name, operandField_name]
    generalize p.record? ["kind", "natural", "filter", "left", "right"] = found
    rcases found with _ | (_ | ⟨_ | _, _ | ⟨_ | _, _ | ⟨_, _ | ⟨_, _ | ⟨_, _ | _⟩⟩⟩⟩⟩)
    all_goals
      simp [-Bool.exists_bool, Option.bind_eq_some_iff, operandField_accepts_iff ihl,
        operandField_accepts_iff ihr]
  | limit count input ih =>
    rw [RepresentedBy]
    refine variant_iff exists_eq_variant fun p => ?_
    rw [ofJson?, record_iff]
    simp only [variant, Json.variant?, tag, List.map_cons, List.map_nil, Field.required_name]
    generalize p.record? ["limit", "input"] = found
    rcases found with _ | (_ | ⟨_ | _, _ | ⟨_ | _, _ | _⟩⟩)
    all_goals simp [Option.bind_eq_some_iff, ih]
  | offset count input ih =>
    rw [RepresentedBy]
    refine variant_iff exists_eq_variant fun p => ?_
    rw [ofJson?, record_iff]
    simp only [variant, Json.variant?, tag, List.map_cons, List.map_nil, Field.required_name]
    generalize p.record? ["offset", "input"] = found
    rcases found with _ | (_ | ⟨_ | _, _ | ⟨_ | _, _ | _⟩⟩)
    all_goals simp [Option.bind_eq_some_iff, ih]
  | distinct input ih =>
    rw [RepresentedBy]
    refine variant_iff exists_eq_variant fun p => ?_
    rw [ofJson?, record_iff]
    simp only [variant, Json.variant?, tag, List.map_cons, List.map_nil, Field.required_name]
    generalize p.record? ["input"] = found
    rcases found with _ | (_ | ⟨_ | _, _ | _⟩)
    all_goals simp [ih]
  | values rows =>
    rw [RepresentedBy]
    refine variant_iff exists_eq_variant fun p => ?_
    rw [ofJson?, record_iff]
    simp only [variant, Json.variant?, tag, List.map_cons, List.map_nil, Field.required_name]
    generalize p.record? ["rows"] = found
    rcases found with _ | (_ | ⟨_ | _, _ | _⟩)
    all_goals simp

end Rows

/-! ### Commands -/

/-- The trees that represent an assignment. -/
def Setter.RepresentedBy (s : Setter) : Json → Prop :=
  Record [required "cols" (ArrayOf (List.Forall₂ IsStr s.cols)),
    required "value" s.value.RepresentedBy]

@[simp]
theorem Setter.ofJson?_eq_some_iff (s : Setter) (j : Json) :
    ofJson? j = some s ↔ s.RepresentedBy j := by
  obtain ⟨cols, value⟩ := s
  rw [ofJson?, RepresentedBy, record_iff]
  simp only [List.map_cons, List.map_nil, Field.required_name]
  generalize j.record? ["cols", "value"] = found
  rcases found with _ | (_ | ⟨_ | _, _ | ⟨_ | _, _ | _⟩⟩)
  all_goals simp [Option.bind_eq_some_iff]

/-- The trees that represent an object to drop. -/
def DropTarget.RepresentedBy (t : DropTarget) : Json → Prop :=
  Record [required "if_exists" (· = .bool t.ifExists), optional "schema" IsStr t.schema,
    required "name" (IsStr t.name)]

@[simp]
theorem DropTarget.ofJson?_eq_some_iff (t : DropTarget) (j : Json) :
    ofJson? j = some t ↔ t.RepresentedBy j := by
  obtain ⟨ifExists, schema, name⟩ := t
  rw [ofJson?, RepresentedBy, record_iff]
  simp only [List.map_cons, List.map_nil, Field.required_name, Field.optional_name]
  generalize j.record? ["if_exists", "schema", "name"] = found
  rcases found with _ | (_ | ⟨_ | _, _ | ⟨_, _ | ⟨_ | _, _ | _⟩⟩⟩)
  all_goals simp [-Bool.exists_bool, Option.bind_eq_some_iff]

/-- The trees that represent an insertion. -/
def Insert.RepresentedBy (w : Insert) : Json → Prop :=
  Record [required "insert_or" (UnitVariant w.onConflict.name),
    required "table" w.table.RepresentedBy,
    required "cols" (ArrayOf (List.Forall₂ IsStr w.cols)),
    optional "input" Rows.RepresentedBy w.input]

@[simp]
theorem Insert.ofJson?_eq_some_iff (w : Insert) (j : Json) :
    ofJson? j = some w ↔ w.RepresentedBy j := by
  obtain ⟨onConflict, table, cols, input⟩ := w
  rw [ofJson?, RepresentedBy, record_iff]
  simp only [List.map_cons, List.map_nil, Field.required_name, Field.optional_name]
  generalize j.record? ["insert_or", "table", "cols", "input"] = found
  rcases found with _ | (_ | ⟨_ | _, _ | ⟨_ | _, _ | ⟨_ | _, _ | ⟨_, _ | _⟩⟩⟩⟩)
  all_goals
    simp [Option.bind_eq_some_iff, ← Rows.operandField_eq,
      Rows.operandField_accepts_iff fun rows _ => rows.ofJson?_eq_some_iff]

/-- The trees that represent an update. -/
def Update.RepresentedBy (w : Update) : Json → Prop :=
  Record [required "update_or" (UnitVariant w.onConflict.name),
    required "table" w.table.RepresentedBy,
    required "updates" (ArrayOf (List.Forall₂ Setter.RepresentedBy w.setters)),
    required "filter" w.filter.RepresentedBy]

@[simp]
theorem Update.ofJson?_eq_some_iff (w : Update) (j : Json) :
    ofJson? j = some w ↔ w.RepresentedBy j := by
  obtain ⟨onConflict, table, setters, filter⟩ := w
  rw [ofJson?, RepresentedBy, record_iff]
  simp only [List.map_cons, List.map_nil, Field.required_name]
  generalize j.record? ["update_or", "table", "updates", "filter"] = found
  rcases found with _ | (_ | ⟨_ | _, _ | ⟨_ | _, _ | ⟨_ | _, _ | ⟨_ | _, _ | _⟩⟩⟩⟩)
  all_goals simp [Option.bind_eq_some_iff]

/-- The trees that represent a deletion. -/
def Delete.RepresentedBy (w : Delete) : Json → Prop :=
  Record [required "table" w.table.RepresentedBy, required "filter" w.filter.RepresentedBy]

@[simp]
theorem Delete.ofJson?_eq_some_iff (w : Delete) (j : Json) :
    ofJson? j = some w ↔ w.RepresentedBy j := by
  obtain ⟨table, filter⟩ := w
  rw [ofJson?, RepresentedBy, record_iff]
  simp only [List.map_cons, List.map_nil, Field.required_name]
  generalize j.record? ["table", "filter"] = found
  rcases found with _ | (_ | ⟨_ | _, _ | ⟨_ | _, _ | _⟩⟩)
  all_goals simp [Option.bind_eq_some_iff]

namespace Command

/-- The name of a command's variant. -/
def tag : Command → String
  | explain _ => "Explain"
  | query _ => "List"
  | insert _ => "Insert"
  | update _ => "Update"
  | delete _ => "Delete"
  | drop kind _ => kind.dropName

/-- The trees that represent a command. -/
def RepresentedBy : Command → Json → Prop
  | explain inner => Variant "Explain" inner.RepresentedBy
  | query rows => Variant "List" rows.RepresentedBy
  | insert write => Variant "Insert" write.RepresentedBy
  | update write => Variant "Update" write.RepresentedBy
  | delete write => Variant "Delete" write.RepresentedBy
  | drop kind target => Variant kind.dropName target.RepresentedBy

/-- A command is read from its own variant only. -/
theorem exists_eq_variant {j : Json} {c : Command} (h : ofJson? j = some c) :
    ∃ p, j = variant c.tag p := by
  have find_some : ∀ {name kind}, ObjectKind.all.find? (·.dropName == name) = some kind →
      kind.dropName = name := by
    intro name kind h
    have same := List.find?_some h
    exact beq_iff_eq.mp same
  rw [ofJson?] at h
  split at h
  all_goals
    simp only [Option.map_eq_some_iff, Option.bind_eq_bind, Option.bind_eq_some_iff,
      Option.pure_def, reduceCtorEq] at h
  all_goals grind [tag, → Json.eq_variant_of_variant?]

theorem ofJson?_eq_some_iff (c : Command) (j : Json) : ofJson? j = some c ↔ c.RepresentedBy j := by
  induction c generalizing j with
  | explain inner ih =>
    refine variant_iff exists_eq_variant fun p => ?_
    rw [ofJson?]
    simp only [variant, Json.variant?, tag, Option.map_eq_some_iff, explain.injEq, exists_eq_right,
      ih]
  | query rows =>
    refine variant_iff exists_eq_variant fun p => ?_
    rw [ofJson?]
    simp only [variant, Json.variant?, tag, Option.map_eq_some_iff, query.injEq, exists_eq_right,
      Rows.ofJson?_eq_some_iff]
  | insert write =>
    refine variant_iff exists_eq_variant fun p => ?_
    rw [ofJson?]
    simp only [variant, Json.variant?, tag, Option.map_eq_some_iff, insert.injEq, exists_eq_right,
      Insert.ofJson?_eq_some_iff]
  | update write =>
    refine variant_iff exists_eq_variant fun p => ?_
    rw [ofJson?]
    simp only [variant, Json.variant?, tag, Option.map_eq_some_iff, update.injEq, exists_eq_right,
      Update.ofJson?_eq_some_iff]
  | delete write =>
    refine variant_iff exists_eq_variant fun p => ?_
    rw [ofJson?]
    simp only [variant, Json.variant?, tag, Option.map_eq_some_iff, delete.injEq, exists_eq_right,
      Delete.ofJson?_eq_some_iff]
  | drop kind target =>
    refine variant_iff exists_eq_variant fun p => ?_
    rw [ofJson?]
    cases kind
    all_goals
      simp [variant, Json.variant?, tag, ObjectKind.dropName, ObjectKind.all,
        Option.bind_eq_some_iff]

end Command

end Plan

/-! ### Options -/

@[simp]
theorem BuiltinRule.ofJson?_eq_some_iff {j : Json} {r : BuiltinRule} :
    ofJson? j = some r ↔ UnitVariant r.name j :=
  Json.unit?_eq_some_iff fun r => by cases r; rfl

namespace Options

/-- The field of the rules, which may be missing if there are none. -/
def rulesField (rules : List BuiltinRule) : Field where
  name := "optimizations"
  Holds := ArrayOf (List.Forall₂ (fun r => UnitVariant r.name) rules)
  MayMiss := rules = []

theorem rulesField_name (rules : List BuiltinRule) : (rulesField rules).name = "optimizations" :=
  rfl

theorem rulesField_mayMiss {rules : List BuiltinRule} :
    (rulesField rules).MayMiss ↔ rules = [] :=
  .rfl

/-- The trees that represent a configuration: the record of its rules, and for no rules at all also
the empty array. -/
def RepresentedBy (o : Options) (j : Json) : Prop :=
  Record [rulesField o.rules] j ∨ (j = .arr [] ∧ o.rules = [])

theorem rulesOfJson?_eq_some_iff {j : Json} {rules : List BuiltinRule} :
    rulesOfJson? j = some rules ↔ (rulesField rules).Holds j := by
  simp only [rulesOfJson?, rulesField, Json.listOf?_eq_some_iff, BuiltinRule.ofJson?_eq_some_iff]

theorem ofJson?_eq_some_iff (o : Options) (j : Json) : ofJson? j = some o ↔ o.RepresentedBy j := by
  obtain ⟨rules⟩ := o
  by_cases empty : j = .arr []
  · -- The empty array is no record of one field, so the second alternative decides.
    subst empty
    simp [ofJson?, RepresentedBy, Json.record_arr_iff, eq_comm]
  · rw [RepresentedBy, record_iff, ofJson?]
    · simp only [empty, false_and, or_false, List.map_cons, List.map_nil, rulesField_name]
      generalize j.record? ["optimizations"] = found
      rcases found with _ | (_ | ⟨_ | _, _ | _⟩)
      all_goals
        simp [Field.Accepts, rulesField_mayMiss, rulesOfJson?_eq_some_iff, @eq_comm _ [] rules]
    · exact empty

end Options

end SqlPlan
