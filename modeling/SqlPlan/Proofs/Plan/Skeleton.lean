import SqlPlan.Proofs.Plan.Brackets

/-!
# The skeleton of a plan

The text of a plan does not show everything, and since nothing in it is quoted, different plans may
have the same text.  Their *skeletons* are the same in any case, as long as no name and no literal
has a bracket in it (`Command.render_determines_skeleton`).  The skeleton of a plan is the tree of
its operators, with the join operands that are absent, the filters that are present and the rows
that are written out.

The text of a row source falls apart into a name, settings and inputs, whatever comes after it
(`Rows.operatorText_append_inj`).  The name tells the operator.  The settings tell whether there is
a filter, and how many rows there are, since each of them stands between parentheses.  The inputs
are a text of the same kind, or two of them with a comma between: the first ends where its brackets
are closed, so commas further inside are not taken for that one.  So the skeletons agree by
induction.
-/

namespace SqlPlan.Plan

open Text (BracketFree Balanced parenthesized heading)

/-! ### Skeletons -/

/-- The operators of a row source. -/
inductive Rows.Skeleton where
  | scan
  | select (filtered : Bool) (input : Skeleton)
  | project (input : Skeleton)
  /-- A join, with or without a filter, and without the operands that are absent. -/
  | join (filtered : Bool) (left right : Option Skeleton)
  | limit (input : Skeleton)
  | offset (input : Skeleton)
  | distinct (input : Skeleton)
  /-- Rows written out, by their number. -/
  | values (rowCount : ℕ)

/-- What a command does, and the operators of the rows it works on. -/
inductive Command.Skeleton where
  | explain (inner : Skeleton)
  | query (rows : Rows.Skeleton)
  | insert (input : Option Rows.Skeleton)
  | update
  | delete
  | drop (kind : ObjectKind)

namespace Rows

mutual

/-- The skeleton of a row source. -/
def skeleton : Rows → Skeleton
  | scan _ => .scan
  | select filter input => .select filter.isSome input.skeleton
  | project _ input => .project input.skeleton
  | join spec left right => .join spec.filter.isSome (operandSkeleton left) (operandSkeleton right)
  | limit _ input => .limit input.skeleton
  | offset _ input => .offset input.skeleton
  | distinct input => .distinct input.skeleton
  | values rows => .values rows.length

/-- The skeleton of a join operand, if it is present. -/
def operandSkeleton : Option Rows → Option Skeleton
  | none => none
  | some rows => some rows.skeleton

end

end Rows

/-- The skeleton of a command. -/
def Command.skeleton : Command → Skeleton
  | explain inner => .explain inner.skeleton
  | query rows => .query rows.skeleton
  | insert write => .insert (Rows.operandSkeleton write.input)
  | update _ => .update
  | delete _ => .delete
  | drop kind _ => .drop kind

/-! ### Row sources -/

namespace Rows

theorem operatorText_append_inj {x y : Rows} (hx : ∀ text ∈ x.texts, BracketFree text)
    (hy : ∀ text ∈ y.texts, BracketFree text) {rest rest' : String}
    (same : x.render ++ rest = y.render ++ rest') :
    x.operatorText = y.operatorText ∧ rest = rest' := by
  rw [← text_operatorText, ← text_operatorText] at same
  exact OperatorText.text_append_inj (wellFormed_operatorText hx) (wellFormed_operatorText hy) same

theorem operatorText_eq_of_render_eq {x y : Rows} (hx : ∀ text ∈ x.texts, BracketFree text)
    (hy : ∀ text ∈ y.texts, BracketFree text) (same : x.render = y.render) :
    x.operatorText = y.operatorText := by
  rw [← text_operatorText, ← text_operatorText] at same
  exact OperatorText.text_inj (wellFormed_operatorText hx) (wellFormed_operatorText hy) same

theorem filterText_inj {filter filter' : Option Scalar}
    (h : filterText filter = filterText filter') : filter.isSome = filter'.isSome := by
  cases filter <;> cases filter' <;> simp_all [filterText]

/-- A text that goes on like a row source starts with the name of an operator. -/
theorem name_eq_of_append_eq {word rest rest' : String} {rows : Rows} (free : BracketFree word)
    (same : word ++ rest = rows.render ++ rest') :
    rows.operatorText.name = word ++ heading rest := by
  rw [← text_operatorText] at same
  rw [← OperatorText.heading_text_append (bracketFree_name rows) rest', ← same,
    Text.heading_append free]

theorem absent_append_ne (rows : Rows) (rest rest' : String) :
    "<absent>" ++ rest ≠ rows.render ++ rest' := by
  intro same
  -- no operator's name starts like this
  have name_eq := congrArg String.toList (name_eq_of_append_eq (by decide) same)
  cases rows <;> simp [operatorText] at name_eq

theorem defaultValues_ne (rows : Rows) : "DEFAULT VALUES" ≠ rows.render := by
  intro same
  have name_eq := congrArg String.toList
    (name_eq_of_append_eq (by decide) (congrArg (· ++ "") same))
  cases rows <;> simp [operatorText] at name_eq

theorem renderOperand_append_inj {x y : Option Rows}
    (hx : ∀ text ∈ operandTexts x, BracketFree text)
    (hy : ∀ text ∈ operandTexts y, BracketFree text) {rest rest' : String}
    (same : renderOperand x ++ rest = renderOperand y ++ rest') :
    renderOperand x = renderOperand y ∧ rest = rest' := by
  cases x with
  | none =>
    cases y with
    | none => exact ⟨rfl, (String.append_right_inj _).mp same⟩
    | some y => exact absurd same (absent_append_ne y rest rest')
  | some x =>
    cases y with
    | none => exact absurd same.symm (absent_append_ne x rest' rest)
    | some y =>
      obtain ⟨parts_eq, rest_eq⟩ := operatorText_append_inj hx hy same
      have texts_eq := congrArg OperatorText.text parts_eq
      rw [text_operatorText, text_operatorText] at texts_eq
      exact ⟨texts_eq, rest_eq⟩

theorem operandSkeleton_eq {x y : Option Rows} (hx : ∀ text ∈ operandTexts x, BracketFree text)
    (hy : ∀ text ∈ operandTexts y, BracketFree text)
    (ih : ∀ rows ∈ x, ∀ {rows' : Rows}, (∀ text ∈ rows.texts, BracketFree text) →
      (∀ text ∈ rows'.texts, BracketFree text) → rows.render = rows'.render →
      rows.skeleton = rows'.skeleton)
    (same : renderOperand x = renderOperand y) : operandSkeleton x = operandSkeleton y := by
  cases x with
  | none =>
    cases y with
    | none => rfl
    | some y => exact absurd (congrArg (· ++ "") same) (absent_append_ne y "" "")
  | some x =>
    cases y with
    | none => exact absurd (congrArg (· ++ "") same.symm) (absent_append_ne x "" "")
    | some y => exact congrArg some (ih x rfl hx hy same)

/-- Rows that are written alike are as many. -/
theorem length_eq_of_renderRow {rows rows' : List (List Scalar)}
    (h : ∀ text ∈ rows.flatMap Scalar.textsAll, BracketFree text)
    (h' : ∀ text ∈ rows'.flatMap Scalar.textsAll, BracketFree text)
    (same : Text.commaSeparated (rows.map renderRow) = Text.commaSeparated (rows'.map renderRow)) :
    rows.length = rows'.length := by
  let row := fun row => Text.commaSeparated (Scalar.renderAll row)
  have balanced : ∀ {rows : List (List Scalar)},
      (∀ text ∈ rows.flatMap Scalar.textsAll, BracketFree text) →
        ∀ text ∈ rows.map row, Balanced text := by
    intro rows h
    have rows_free := List.forall_mem_flatMap.mp h
    exact List.forall_mem_map.mpr fun row hrow =>
      Balanced.commaSeparated (Scalar.balanced_renderAll (rows_free row hrow))
  have texts_eq : rows.map row = rows'.map row := by
    apply Text.map_parenthesized_inj (balanced h) (balanced h')
    rw [List.map_map, List.map_map]
    exact same
  have lengths := congrArg List.length texts_eq
  rwa [List.length_map, List.length_map] at lengths

theorem skeleton_eq_of_render_eq {rows rows' : Rows} (h : ∀ text ∈ rows.texts, BracketFree text)
    (h' : ∀ text ∈ rows'.texts, BracketFree text) (same : rows.render = rows'.render) :
    rows.skeleton = rows'.skeleton := by
  induction rows using Rows.induct generalizing rows' with
  | scan table =>
    have parts := operatorText_eq_of_render_eq h h' same
    cases rows' with
    | scan table' => rfl
    | _ => simp [operatorText] at parts
  | select filter input ih =>
    have parts := operatorText_eq_of_render_eq h h' same
    cases rows' with
    | select filter' input' =>
      obtain ⟨-, hinput⟩ := List.forall_mem_append.mp h
      obtain ⟨-, hinput'⟩ := List.forall_mem_append.mp h'
      have settings := Option.some.inj (congrArg OperatorText.settings parts)
      have inputs := congrArg OperatorText.inputs parts
      rw [skeleton, skeleton, filterText_inj settings, ih hinput hinput' inputs]
    | _ => simp [operatorText] at parts
  | project cols input ih =>
    have parts := operatorText_eq_of_render_eq h h' same
    cases rows' with
    | project cols' input' =>
      obtain ⟨-, hinput⟩ := List.forall_mem_append.mp h
      obtain ⟨-, hinput'⟩ := List.forall_mem_append.mp h'
      have inputs := congrArg OperatorText.inputs parts
      rw [skeleton, skeleton, ih hinput hinput' inputs]
    | _ => simp [operatorText] at parts
  | join spec left right ihl ihr =>
    have parts := operatorText_eq_of_render_eq h h' same
    cases rows' with
    | join spec' left' right' =>
      obtain ⟨hfront, hright⟩ := List.forall_mem_append.mp h
      obtain ⟨hfront', hright'⟩ := List.forall_mem_append.mp h'
      have hleft := (List.forall_mem_append.mp hfront).2
      have hleft' := (List.forall_mem_append.mp hfront').2
      have settings := Option.some.inj (congrArg OperatorText.settings parts)
      have inputs : renderOperand left ++ "," ++ renderOperand right =
        renderOperand left' ++ "," ++ renderOperand right' := congrArg OperatorText.inputs parts
      rw [String.append_assoc, String.append_assoc] at inputs
      -- the left operand ends at the same place, so the comma behind it is the same
      obtain ⟨left_eq, behind⟩ := renderOperand_append_inj hleft hleft' inputs
      have right_eq := (String.append_right_inj _).mp behind
      rw [skeleton, skeleton, filterText_inj settings, operandSkeleton_eq hleft hleft' ihl left_eq,
        operandSkeleton_eq hright hright' ihr right_eq]
    | _ => simp [operatorText] at parts
  | limit count input ih =>
    have parts := operatorText_eq_of_render_eq h h' same
    cases rows' with
    | limit count' input' =>
      obtain ⟨-, hinput⟩ := List.forall_mem_append.mp h
      obtain ⟨-, hinput'⟩ := List.forall_mem_append.mp h'
      have inputs := congrArg OperatorText.inputs parts
      rw [skeleton, skeleton, ih hinput hinput' inputs]
    | _ => simp [operatorText] at parts
  | offset count input ih =>
    have parts := operatorText_eq_of_render_eq h h' same
    cases rows' with
    | offset count' input' =>
      obtain ⟨-, hinput⟩ := List.forall_mem_append.mp h
      obtain ⟨-, hinput'⟩ := List.forall_mem_append.mp h'
      have inputs := congrArg OperatorText.inputs parts
      rw [skeleton, skeleton, ih hinput hinput' inputs]
    | _ => simp [operatorText] at parts
  | distinct input ih =>
    have parts := operatorText_eq_of_render_eq h h' same
    cases rows' with
    | distinct input' =>
      have hinput' : ∀ text ∈ input'.texts, BracketFree text := h'
      have inputs := congrArg OperatorText.inputs parts
      rw [skeleton, skeleton, ih h hinput' inputs]
    | _ => simp [operatorText] at parts
  | values rows =>
    have parts := operatorText_eq_of_render_eq h h' same
    cases rows' with
    | values rows' =>
      have settings := Option.some.inj (congrArg OperatorText.settings parts)
      have rows_eq := (String.append_right_inj _).mp settings
      rw [skeleton, skeleton, length_eq_of_renderRow h h' rows_eq]
    | _ => simp [operatorText] at parts

end Rows

/-! ### Commands -/

theorem Insert.operandSkeleton_eq_of_render_eq {w w' : Insert}
    (h : ∀ text ∈ (Command.insert w).texts, BracketFree text)
    (h' : ∀ text ∈ (Command.insert w').texts, BracketFree text) (same : w.render = w'.render) :
    Rows.operandSkeleton w.input = Rows.operandSkeleton w'.input := by
  have parts : w.operatorText = w'.operatorText := by
    rw [← text_operatorText, ← text_operatorText] at same
    exact OperatorText.text_inj (wellFormed_operatorText h) (wellFormed_operatorText h') same
  have inputs : w.inputText = w'.inputText := congrArg OperatorText.inputs parts
  have hinput := (List.forall_mem_append.mp h).2
  have hinput' := (List.forall_mem_append.mp h').2
  unfold inputText at inputs
  cases hi : w.input with
  | none =>
    cases hi' : w'.input with
    | none => rfl
    | some rows' =>
      rw [hi, hi'] at inputs
      exact absurd inputs (Rows.defaultValues_ne rows')
  | some rows =>
    rw [hi] at hinput
    cases hi' : w'.input with
    | none =>
      rw [hi, hi'] at inputs
      exact absurd inputs.symm (Rows.defaultValues_ne rows)
    | some rows' =>
      rw [hi'] at hinput'
      rw [hi, hi'] at inputs
      exact congrArg some (Rows.skeleton_eq_of_render_eq hinput hinput' inputs)

namespace Command

/-- What a command does. -/
inductive Kind where
  | explain
  | query
  | insert
  | update
  | delete
  | drop (kind : ObjectKind)

/-- The kind of a command. -/
def kind : Command → Kind
  | explain _ => .explain
  | query _ => .query
  | insert _ => .insert
  | update _ => .update
  | delete _ => .delete
  | drop kind _ => .drop kind

/-- The names of the commands other than queries and explanations. -/
def Kind.names : List (String × Kind) :=
  [("Insert", .insert), ("Update", .update), ("Delete", .delete), ("DropTable", .drop .table),
    ("DropIndex", .drop .index), ("DropTrigger", .drop .trigger), ("DropView", .drop .view)]

/-- The kind of the command whose text has the given characters in front of the first bracket.  An
explanation goes on with the text of another command, and is told by its first letter. -/
def Kind.ofHeading (heading : String) : Kind :=
  if heading.toList.head? = some 'e' then .explain else (Kind.names.lookup heading).getD .query

theorem ofHeading_heading_render (c : Command) : Kind.ofHeading (heading c.render) = c.kind := by
  cases c with
  | explain inner =>
    have free : BracketFree "explanation: " := by decide
    show Kind.ofHeading (heading ("explanation: " ++ inner.render)) = .explain
    rw [Text.heading_append free]
    simp [Kind.ofHeading]
  | query rows =>
    show Kind.ofHeading (heading rows.render) = .query
    rw [← Rows.text_operatorText, OperatorText.heading_text (Rows.bracketFree_name rows)]
    cases rows <;> simp [Rows.operatorText, Kind.ofHeading, Kind.names, List.lookup_cons]
  | insert write =>
    show Kind.ofHeading (heading write.render) = .insert
    rw [← Insert.text_operatorText, OperatorText.heading_text (Insert.bracketFree_name write)]
    simp [Insert.operatorText, Kind.ofHeading, Kind.names]
  | update write =>
    show Kind.ofHeading (heading write.render) = .update
    rw [Update.render_eq,
      Text.heading_append_of_isBracket (by decide) (Text.toList_bracketed _) rfl]
    simp [Kind.ofHeading, Kind.names, List.lookup_cons]
  | delete write =>
    show Kind.ofHeading (heading write.render) = .delete
    rw [Delete.render_eq,
      Text.heading_append_of_isBracket (by decide) (Text.toList_bracketed _) rfl]
    simp [Kind.ofHeading, Kind.names, List.lookup_cons]
  | drop kind target =>
    have free : BracketFree kind.dropName := by cases kind <;> decide
    show Kind.ofHeading (heading (kind.dropName ++ target.render)) = .drop kind
    rw [DropTarget.render_eq, Text.heading_append_of_isBracket free (Text.toList_bracketed _) rfl]
    cases kind <;> simp [ObjectKind.dropName, Kind.ofHeading, Kind.names, List.lookup_cons]

theorem kind_eq_of_render_eq {c c' : Command} (same : c.render = c'.render) : c.kind = c'.kind := by
  rw [← ofHeading_heading_render, same, ofHeading_heading_render]

theorem skeleton_eq_of_render_eq {c c' : Command} (h : ∀ text ∈ c.texts, BracketFree text)
    (h' : ∀ text ∈ c'.texts, BracketFree text) (same : c.render = c'.render) :
    c.skeleton = c'.skeleton := by
  induction c generalizing c' with
  | explain inner ih =>
    have kinds := kind_eq_of_render_eq same
    cases c' with
    | explain inner' =>
      have inner_eq : inner.render = inner'.render := (String.append_right_inj _).mp same
      exact congrArg Skeleton.explain (ih h h' inner_eq)
    | _ => cases kinds
  | query rows =>
    have kinds := kind_eq_of_render_eq same
    cases c' with
    | query rows' => exact congrArg Skeleton.query (Rows.skeleton_eq_of_render_eq h h' same)
    | _ => cases kinds
  | insert write =>
    have kinds := kind_eq_of_render_eq same
    cases c' with
    | insert write' =>
      exact congrArg Skeleton.insert (Insert.operandSkeleton_eq_of_render_eq h h' same)
    | _ => cases kinds
  | update write =>
    have kinds := kind_eq_of_render_eq same
    cases c' with
    | update write' => rfl
    | _ => cases kinds
  | delete write =>
    have kinds := kind_eq_of_render_eq same
    cases c' with
    | delete write' => rfl
    | _ => cases kinds
  | drop kind target =>
    have kinds := kind_eq_of_render_eq same
    cases c' with
    | drop kind' target' => exact congrArg Skeleton.drop (Kind.drop.inj kinds)
    | _ => cases kinds

/-- **The text of a plan determines its skeleton.**  If no name and no literal has a bracket in it,
commands with the same text have the same skeleton, and the text of every command is balanced. -/
theorem render_determines_skeleton :
    (∀ c c' : Command, (∀ text ∈ c.texts, BracketFree text) →
      (∀ text ∈ c'.texts, BracketFree text) → c.render = c'.render → c.skeleton = c'.skeleton) ∧
    ∀ c : Command, (∀ text ∈ c.texts, BracketFree text) → Balanced c.render :=
  ⟨fun _ _ => skeleton_eq_of_render_eq, fun _ => balanced_render⟩

/-- A half join of two rows `(f(x,y)),(z)`, with columns `a,b` and a filter `[1;2]`. -/
def halfJoinOfValues (spec : JoinSpec) (needle : String) (cols args : List Scalar) : Command :=
  let filter : Scalar := .range (.literal needle) (.literal "1") (.literal "2") false
  let rows : Rows := .values [[.call "f" false args], [.literal "z"]]
  .explain (.query (.join { spec with filter := some filter }
    (some (.project (cols.map fun x => { value := x }) rows)) none))

/-- Columns and arguments may be two, or one with a comma in it; kind and needle are not shown. -/
theorem render_determines_skeleton_commas :
    let c := halfJoinOfValues { kind := .left } "x" [.literal "a", .literal "b"] [.literal "x,y"]
    let c' := halfJoinOfValues { natural := true } "y" [.literal "a,b"] [.literal "x", .literal "y"]
    (∀ text ∈ c.texts, BracketFree text) ∧ (∀ text ∈ c'.texts, BracketFree text) ∧
    c.render = "explanation: Join[filter=[1;2]](" ++
      "Project[cols=a,b](Values[values=(f(x,y)),(z)]()),<absent>)" ∧
    c ≠ c' ∧ c.render = c'.render ∧ c.skeleton = c'.skeleton ∧ Balanced c.render := by
  intro c c'
  have free : ∀ text ∈ c.texts, BracketFree text := by decide
  have free' : ∀ text ∈ c'.texts, BracketFree text := by decide
  have same : c.render = c'.render := by rfl
  exact ⟨free, free', by rfl, by decide, same, render_determines_skeleton.1 c c' free free' same,
    render_determines_skeleton.2 c free⟩

end Command

end SqlPlan.Plan
