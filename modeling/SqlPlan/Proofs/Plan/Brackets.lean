import SqlPlan.Proofs.Json.Text
import SqlPlan.Proofs.Plan.Balanced
import SqlPlan.Proofs.Plan.TableText

/-!
# Brackets in the text of a plan

Where no name and no literal has a bracket in it, all brackets in a plan's text come from the plan's
own structure, and the text of every part is balanced (`Scalar.balanced_render`,
`Rows.balanced_render`, `Command.balanced_render`).

Row sources and insertions are written alike: a name, settings and inputs
(`Rows.text_operatorText`, `Insert.text_operatorText`).  The settings are balanced since the texts
of scalars, columns and tables are, and the inputs by induction.
-/

namespace SqlPlan.Plan

open Text (BracketFree Balanced bracketed parenthesized)

/-! ### Scalars and columns -/

mutual

/-- The literals and function names in a scalar, also those that its text does not show. -/
def Scalar.texts : Scalar → List String
  | .literal text => [text]
  | .numeric _ => []
  | .boolean _ => []
  | .unary _ x => x.texts
  | .binary x _ y => x.texts ++ y.texts
  | .call name _ args => name :: Scalar.textsAll args
  | .equality x y _ => x.texts ++ y.texts
  | .range x lo hi _ => x.texts ++ lo.texts ++ hi.texts

/-- The literals and function names in some scalars. -/
def Scalar.textsAll : List Scalar → List String
  | [] => []
  | x :: xs => x.texts ++ Scalar.textsAll xs

end

/-- The literals and names in a column. -/
def Column.texts (c : Column) : List String := c.table.toList ++ c.value.texts ++ c.label.toList

/-- The names that a table is written with. -/
def Table.texts : Table → List String
  | simple table => table.texts

theorem balanced_truth (b : Bool) : Balanced (Text.truth b) := by
  cases b <;> decide

theorem balanced_unarySymbol (op : UnaryOp) : Balanced op.symbol := by
  cases op <;> decide

theorem balanced_binarySymbol (op : BinaryOp) : Balanced op.symbol := by
  cases op <;> decide

theorem bracketFree_repr (n : ℤ) : BracketFree n.repr := by
  have of_digit : ∀ {c : Char}, c.isDigit = true → Text.isBracket c = false := by
    intro c digit
    simp only [Text.isBracket, Bool.or_eq_false_iff, decide_eq_false_iff_not]
    refine ⟨⟨⟨?_, ?_⟩, ?_⟩, ?_⟩ <;> (rintro rfl; revert digit; decide)
  intro c hc
  -- digits, behind a sign if the number is negative
  rw [Json.toList_repr] at hc
  split at hc
  · exact of_digit (Json.isDigit_of_mem_toDigits hc)
  · rcases List.mem_cons.mp hc with rfl | hc
    · rfl
    · exact of_digit (Json.isDigit_of_mem_toDigits hc)

theorem balanced_dotted {qualifier : Option String} {name : String}
    (hq : ∀ q ∈ qualifier, Balanced q) (hn : Balanced name) :
    Balanced (Text.dotted qualifier name) := by
  cases qualifier with
  | none => exact hn
  | some q => exact (hq q rfl).append₂ (by decide) hn

theorem balanced_labelled {text : String} {label : Option String} (ht : Balanced text)
    (hl : ∀ l ∈ label, Balanced l) : Balanced (Text.labelled text label) := by
  cases label with
  | none => exact ht
  | some l => exact ht.append₂ (by decide) (hl l rfl)

mutual

theorem Scalar.balanced_render : ∀ {x : Scalar}, (∀ text ∈ x.texts, BracketFree text) →
    Balanced x.render
  | .literal text, h => .of_bracketFree (h text List.mem_cons_self)
  | .numeric value, _ => .of_bracketFree (bracketFree_repr value.toInt)
  | .boolean value, _ => balanced_truth value
  | .unary op x, h => by
    rw [Scalar.render]
    exact (balanced_unarySymbol op).append₂ (by decide) (Scalar.balanced_render h)
  | .binary x op y, h => by
    obtain ⟨hx, hy⟩ := List.forall_mem_append.mp h
    rw [Scalar.render]
    exact ((Scalar.balanced_render hx).append₂ (by decide) (balanced_binarySymbol op)).append₂
      (by decide) (Scalar.balanced_render hy)
  | .call name distinct args, h => by
    obtain ⟨hname, hargs⟩ := List.forall_mem_cons.mp h
    have marker : Balanced (if distinct then "DISTINCT " else "") := by
      cases distinct <;> decide
    have list := Balanced.commaSeparated (Scalar.balanced_renderAll hargs)
    rw [Scalar.render]
    exact (Balanced.of_bracketFree hname).append (marker.append list).parenthesized
  | .equality x y invert, h => by
    obtain ⟨hx, hy⟩ := List.forall_mem_append.mp h
    have symbol : Balanced (if invert then "!=" else "==") := by
      cases invert <;> decide
    rw [Scalar.render]
    exact (Scalar.balanced_render hx).append₂ symbol (Scalar.balanced_render hy)
  | .range x lo hi invert, h => by
    -- the needle is not written
    obtain ⟨hneedle, hhi⟩ := List.forall_mem_append.mp h
    obtain ⟨-, hlo⟩ := List.forall_mem_append.mp hneedle
    have symbol : Balanced (if invert then "!" else "") := by
      cases invert <;> decide
    have bounds : Balanced (lo.render ++ ";" ++ hi.render) :=
      (Scalar.balanced_render hlo).append₂ (by decide) (Scalar.balanced_render hhi)
    have split_eq : (Scalar.range x lo hi invert).render =
        (if invert then "!" else "") ++ bracketed (lo.render ++ ";" ++ hi.render) := by
      simp only [Scalar.render, bracketed, String.append_assoc]
    rw [split_eq]
    exact symbol.append bounds.bracketed

theorem Scalar.balanced_renderAll : ∀ {xs : List Scalar},
    (∀ text ∈ Scalar.textsAll xs, BracketFree text) →
      ∀ text ∈ Scalar.renderAll xs, Balanced text
  | [], _, _, ht => by cases ht
  | x :: xs, h, text, ht => by
    obtain ⟨hx, hxs⟩ := List.forall_mem_append.mp h
    rcases List.mem_cons.mp ht with rfl | ht
    · exact Scalar.balanced_render hx
    · exact Scalar.balanced_renderAll hxs text ht

end

theorem Column.balanced_render {c : Column} (h : ∀ text ∈ c.texts, BracketFree text) :
    Balanced c.render := by
  obtain ⟨hfront, hlabel⟩ := List.forall_mem_append.mp h
  obtain ⟨htable, hvalue⟩ := List.forall_mem_append.mp hfront
  apply balanced_labelled
  · apply balanced_dotted
    · exact fun q hq => .of_bracketFree (htable q (Option.mem_toList.mpr hq))
    · exact Scalar.balanced_render hvalue
  · exact fun l hl => .of_bracketFree (hlabel l (Option.mem_toList.mpr hl))

theorem Table.balanced_render {t : Table} (h : ∀ text ∈ t.texts, BracketFree text) :
    Balanced t.render := by
  obtain ⟨table⟩ := t
  obtain ⟨hfront, hindex⟩ := List.forall_mem_append.mp h
  obtain ⟨hnames, hlabel⟩ := List.forall_mem_append.mp hfront
  obtain ⟨hschema, hname⟩ := List.forall_mem_append.mp hnames
  have name : Balanced (Text.labelled (Text.dotted table.schema table.name) table.label) := by
    apply balanced_labelled
    · apply balanced_dotted
      · exact fun q hq => .of_bracketFree (hschema q (Option.mem_toList.mpr hq))
      · exact .of_bracketFree (hname _ List.mem_cons_self)
    · exact fun l hl => .of_bracketFree (hlabel l (Option.mem_toList.mpr hl))
  have notIndexed : Balanced (if table.indexed then "" else " NOT INDEXED") := by
    cases table.indexed <;> decide
  refine (name.append notIndexed).append ?_
  cases hi : table.index with
  | none => decide
  | some index =>
    have index_free : Balanced index :=
      .of_bracketFree (hindex index (Option.mem_toList.mpr hi))
    exact Balanced.append (by decide) index_free

/-! ### Row sources -/

namespace Rows

mutual

/-- The literals and names in a row source. -/
def texts : Rows → List String
  | scan table => table.texts
  | select filter input => Scalar.textsAll filter.toList ++ input.texts
  | project cols input => cols.flatMap Column.texts ++ input.texts
  | join spec left right =>
    Scalar.textsAll spec.filter.toList ++ operandTexts left ++ operandTexts right
  | limit count input => count.texts ++ input.texts
  | offset count input => count.texts ++ input.texts
  | distinct input => input.texts
  | values rows => rows.flatMap Scalar.textsAll

/-- The literals and names in a join operand. -/
def operandTexts : Option Rows → List String
  | none => []
  | some rows => rows.texts

end

/-- The setting of a filter. -/
def filterText : Option Scalar → String
  | some filter => "filter=" ++ filter.render
  | none => ""

/-- The parts of a row source's text. -/
def operatorText : Rows → OperatorText
  | scan table => ⟨"Scan", some ("table=" ++ table.render), ""⟩
  | select filter input => ⟨"Select", some (filterText filter), input.render⟩
  | project cols input =>
    ⟨"Project", some ("cols=" ++ Text.commaSeparated (cols.map Column.render)), input.render⟩
  | join spec left right =>
    ⟨"Join", some (filterText spec.filter), renderOperand left ++ "," ++ renderOperand right⟩
  | limit count input => ⟨"Limit", some ("limit=" ++ count.render), input.render⟩
  | offset count input => ⟨"Offset", some ("offset=" ++ count.render), input.render⟩
  | distinct input => ⟨"Distinct", none, input.render⟩
  | values rows => ⟨"Values", some ("values=" ++ Text.commaSeparated (rows.map renderRow)), ""⟩

theorem filterSetting_eq (filter : Option Scalar) :
    filterSetting filter = bracketed (filterText filter) := by
  have start : "[filter=" = "[" ++ "filter=" := rfl
  cases filter with
  | none => rfl
  | some filter => simp only [filterSetting, filterText, bracketed, start, String.append_assoc]

theorem text_operatorText (rows : Rows) : rows.operatorText.text = rows.render := by
  cases rows with
  | scan table =>
    exact (OperatorText.text_of_setting "Scan" "table=" _ "").trans String.append_assoc
  | select filter input =>
    show _ = "Select" ++ filterSetting filter ++ parenthesized input.render
    rw [filterSetting_eq]
    rfl
  | project cols input => exact OperatorText.text_of_setting "Project" "cols=" _ _
  | join spec left right =>
    show _ = "Join" ++ filterSetting spec.filter ++ parenthesized _
    rw [filterSetting_eq]
    rfl
  | limit count input => exact OperatorText.text_of_setting "Limit" "limit=" _ _
  | offset count input => exact OperatorText.text_of_setting "Offset" "offset=" _ _
  | distinct input => exact congrArg (· ++ _) String.append_empty
  | values rows =>
    exact (OperatorText.text_of_setting "Values" "values=" _ "").trans String.append_assoc

theorem bracketFree_name (rows : Rows) : BracketFree rows.operatorText.name := by
  cases rows <;> (dsimp only [operatorText]; decide)

theorem balanced_filterText {filter : Option Scalar}
    (h : ∀ text ∈ Scalar.textsAll filter.toList, BracketFree text) :
    Balanced (filterText filter) := by
  cases filter with
  | none => decide
  | some filter =>
    rw [Option.toList_some, Scalar.textsAll, Scalar.textsAll, List.append_nil] at h
    exact Balanced.append (by decide) (Scalar.balanced_render h)

theorem balanced_renderRow {row : List Scalar}
    (h : ∀ text ∈ Scalar.textsAll row, BracketFree text) : Balanced (renderRow row) :=
  (Balanced.commaSeparated (Scalar.balanced_renderAll h)).parenthesized

theorem balanced_settings {rows : Rows} (h : ∀ text ∈ rows.texts, BracketFree text) :
    ∀ settings ∈ rows.operatorText.settings, Balanced settings := by
  cases rows with
  | scan table =>
    rintro _ ⟨⟩
    exact Balanced.append (by decide) (Table.balanced_render h)
  | select filter input =>
    rintro _ ⟨⟩
    exact balanced_filterText (List.forall_mem_append.mp h).1
  | project cols input =>
    rintro _ ⟨⟩
    have cols_free := List.forall_mem_flatMap.mp (List.forall_mem_append.mp h).1
    have cols_balanced := Balanced.commaSeparated
      (List.forall_mem_map.mpr fun c hc => Column.balanced_render (cols_free c hc))
    exact Balanced.append (by decide) cols_balanced
  | join spec left right =>
    rintro _ ⟨⟩
    obtain ⟨hleft, -⟩ := List.forall_mem_append.mp h
    exact balanced_filterText (List.forall_mem_append.mp hleft).1
  | limit count input =>
    rintro _ ⟨⟩
    exact Balanced.append (by decide) (Scalar.balanced_render (List.forall_mem_append.mp h).1)
  | offset count input =>
    rintro _ ⟨⟩
    exact Balanced.append (by decide) (Scalar.balanced_render (List.forall_mem_append.mp h).1)
  | distinct input => exact nofun
  | values rows =>
    rintro _ ⟨⟩
    have rows_free := List.forall_mem_flatMap.mp h
    have rows_balanced := Balanced.commaSeparated
      (List.forall_mem_map.mpr fun row hrow => balanced_renderRow (rows_free row hrow))
    exact Balanced.append (by decide) rows_balanced

theorem balanced_render_of_inputs {rows : Rows} (h : ∀ text ∈ rows.texts, BracketFree text)
    (hinputs : Balanced rows.operatorText.inputs) : Balanced rows.render := by
  rw [← text_operatorText]
  exact OperatorText.WellFormed.balanced ⟨bracketFree_name rows, balanced_settings h, hinputs⟩

theorem balanced_renderOperand {operand : Option Rows}
    (h : ∀ text ∈ operandTexts operand, BracketFree text)
    (ih : ∀ rows ∈ operand, (∀ text ∈ rows.texts, BracketFree text) →
      Balanced rows.operatorText.inputs) : Balanced (renderOperand operand) := by
  cases operand with
  | none => decide
  | some rows => exact balanced_render_of_inputs h (ih rows rfl h)

theorem balanced_inputs {rows : Rows} (h : ∀ text ∈ rows.texts, BracketFree text) :
    Balanced rows.operatorText.inputs := by
  have none_balanced : Balanced "" := by decide
  induction rows using Rows.induct with
  | scan table => exact none_balanced
  | select filter input ih =>
    have below := (List.forall_mem_append.mp h).2
    exact balanced_render_of_inputs below (ih below)
  | project cols input ih =>
    have below := (List.forall_mem_append.mp h).2
    exact balanced_render_of_inputs below (ih below)
  | join spec left right ihl ihr =>
    obtain ⟨hleft, hright⟩ := List.forall_mem_append.mp h
    have left_balanced := balanced_renderOperand (List.forall_mem_append.mp hleft).2 ihl
    have right_balanced := balanced_renderOperand hright ihr
    exact left_balanced.append₂ (by decide) right_balanced
  | limit count input ih =>
    have below := (List.forall_mem_append.mp h).2
    exact balanced_render_of_inputs below (ih below)
  | offset count input ih =>
    have below := (List.forall_mem_append.mp h).2
    exact balanced_render_of_inputs below (ih below)
  | distinct input ih => exact balanced_render_of_inputs h (ih h)
  | values rows => exact none_balanced

theorem wellFormed_operatorText {rows : Rows} (h : ∀ text ∈ rows.texts, BracketFree text) :
    rows.operatorText.WellFormed :=
  ⟨bracketFree_name rows, balanced_settings h, balanced_inputs h⟩

theorem balanced_render {rows : Rows} (h : ∀ text ∈ rows.texts, BracketFree text) :
    Balanced rows.render :=
  balanced_render_of_inputs h (balanced_inputs h)

end Rows

/-! ### Commands -/

/-- The column names and literals in an assignment. -/
def Setter.texts (s : Setter) : List String := s.cols ++ s.value.texts

/-- The name of an object to drop. -/
def DropTarget.texts (t : DropTarget) : List String := t.schema.toList ++ [t.name]

/-- The literals and names in a command. -/
def Command.texts : Command → List String
  | explain inner => inner.texts
  | query rows => rows.texts
  | insert write => write.table.texts ++ write.cols ++ Rows.operandTexts write.input
  | update write => write.table.texts ++ write.setters.flatMap Setter.texts ++ write.filter.texts
  | delete write => write.table.texts ++ write.filter.texts
  | drop _ target => target.texts

/-- The rows to put in, or what stands for their absence. -/
def Insert.inputText (w : Insert) : String :=
  match w.input with
  | some rows => rows.render
  | none => "DEFAULT VALUES"

/-- The parts of an insertion's text. -/
def Insert.operatorText (w : Insert) : OperatorText where
  name := "Insert"
  settings := some ("table=" ++ w.table.render ++ ",cols=" ++ Text.commaSeparated w.cols ++
    ",or=" ++ w.onConflict.symbol)
  inputs := w.inputText

/-- The settings of an update. -/
def Update.settings (w : Update) : String :=
  "table=" ++ w.table.render ++ ",updates=" ++ ";".intercalate (w.setters.map Setter.render) ++
    ",filter=" ++ w.filter.render ++ ",or=" ++ w.onConflict.symbol

/-- The settings of a deletion. -/
def Delete.settings (w : Delete) : String :=
  "table=" ++ w.table.render ++ ",filter=" ++ w.filter.render

/-- The settings of a command that drops an object. -/
def DropTarget.settings (t : DropTarget) : String :=
  "name=" ++ Text.dotted t.schema t.name ++ ",ifexists=" ++ Text.truth t.ifExists

theorem Insert.text_operatorText (w : Insert) : w.operatorText.text = w.render := by
  have start : "Insert[table=" = "Insert" ++ ("[" ++ "table=") := rfl
  show "Insert" ++ bracketed ("table=" ++ w.table.render ++ ",cols=" ++
      Text.commaSeparated w.cols ++ ",or=" ++ w.onConflict.symbol) ++ parenthesized w.inputText =
    "Insert[table=" ++ w.table.render ++ ",cols=" ++ Text.commaSeparated w.cols ++ ",or=" ++
      w.onConflict.symbol ++ "]" ++ parenthesized w.inputText
  simp only [bracketed, start, String.append_assoc]

theorem Update.render_eq (w : Update) : w.render = "Update" ++ bracketed w.settings := by
  have start : "Update[table=" = "Update" ++ ("[" ++ "table=") := rfl
  unfold render settings
  simp only [bracketed, start, String.append_assoc]

theorem Delete.render_eq (w : Delete) : w.render = "Delete" ++ bracketed w.settings := by
  have start : "Delete[table=" = "Delete" ++ ("[" ++ "table=") := rfl
  unfold render settings
  simp only [bracketed, start, String.append_assoc]

theorem DropTarget.render_eq (t : DropTarget) : t.render = bracketed t.settings := by
  have start : "[name=" = "[" ++ "name=" := rfl
  unfold render settings
  simp only [bracketed, start, String.append_assoc]

theorem Setter.balanced_render {s : Setter} (h : ∀ text ∈ s.texts, BracketFree text) :
    Balanced s.render := by
  obtain ⟨hcols, hvalue⟩ := List.forall_mem_append.mp h
  have cols_balanced : ∀ col ∈ s.cols, Balanced col :=
    fun col hcol => .of_bracketFree (hcols col hcol)
  have value := Scalar.balanced_render hvalue
  obtain ⟨cols, _⟩ := s
  have list := (Balanced.commaSeparated cols_balanced).parenthesized
  match cols with
  | [] => exact list.append₂ (by decide) value
  | [col] => exact (cols_balanced col List.mem_cons_self).append₂ (by decide) value
  | _ :: _ :: _ => exact list.append₂ (by decide) value

theorem balanced_conflictSymbol (action : ConflictAction) : Balanced action.symbol := by
  cases action <;> decide

theorem Insert.bracketFree_name (w : Insert) : BracketFree w.operatorText.name := by
  dsimp only [operatorText]
  decide

theorem Insert.wellFormed_operatorText {w : Insert}
    (h : ∀ text ∈ (Command.insert w).texts, BracketFree text) : w.operatorText.WellFormed := by
  obtain ⟨hfront, hinput⟩ := List.forall_mem_append.mp h
  obtain ⟨htable, hcols⟩ := List.forall_mem_append.mp hfront
  refine ⟨bracketFree_name w, ?_, ?_⟩
  · rintro _ ⟨⟩
    have table := Table.balanced_render htable
    have cols := Balanced.commaSeparated fun col hcol => .of_bracketFree (hcols col hcol)
    have action := balanced_conflictSymbol w.onConflict
    exact ((Balanced.append (by decide) table).append₂ (by decide) cols).append₂ (by decide) action
  · show Balanced w.inputText
    unfold inputText
    cases hi : w.input with
    | none => decide
    | some rows =>
      rw [hi] at hinput
      exact Rows.balanced_render hinput

theorem Update.balanced_settings {w : Update}
    (h : ∀ text ∈ (Command.update w).texts, BracketFree text) : Balanced w.settings := by
  obtain ⟨hfront, hfilter⟩ := List.forall_mem_append.mp h
  obtain ⟨htable, hsetters⟩ := List.forall_mem_append.mp hfront
  have setters_free := List.forall_mem_flatMap.mp hsetters
  have table := Table.balanced_render htable
  have setters := Balanced.intercalate (by decide : Balanced ";")
    (List.forall_mem_map.mpr fun s hs => Setter.balanced_render (setters_free s hs))
  have filter := Scalar.balanced_render hfilter
  have action := balanced_conflictSymbol w.onConflict
  exact (((Balanced.append (by decide) table).append₂ (by decide) setters).append₂ (by decide)
    filter).append₂ (by decide) action

theorem Delete.balanced_settings {w : Delete}
    (h : ∀ text ∈ (Command.delete w).texts, BracketFree text) : Balanced w.settings := by
  obtain ⟨htable, hfilter⟩ := List.forall_mem_append.mp h
  have table := Table.balanced_render htable
  have filter := Scalar.balanced_render hfilter
  exact (Balanced.append (by decide) table).append₂ (by decide) filter

theorem DropTarget.balanced_settings {t : DropTarget} (h : ∀ text ∈ t.texts, BracketFree text) :
    Balanced t.settings := by
  obtain ⟨hschema, hname⟩ := List.forall_mem_append.mp h
  have name : Balanced (Text.dotted t.schema t.name) := by
    apply balanced_dotted
    · exact fun q hq => .of_bracketFree (hschema q (Option.mem_toList.mpr hq))
    · exact .of_bracketFree (hname _ List.mem_cons_self)
  exact (Balanced.append (by decide) name).append₂ (by decide) (balanced_truth t.ifExists)

theorem Command.balanced_render {c : Command} (h : ∀ text ∈ c.texts, BracketFree text) :
    Balanced c.render := by
  induction c with
  | explain inner ih => exact Balanced.append (by decide) (ih h)
  | query rows => exact Rows.balanced_render h
  | insert write =>
    show Balanced write.render
    rw [← Insert.text_operatorText]
    exact (Insert.wellFormed_operatorText h).balanced
  | update write =>
    show Balanced write.render
    rw [Update.render_eq]
    exact Balanced.append (by decide) (Update.balanced_settings h).bracketed
  | delete write =>
    show Balanced write.render
    rw [Delete.render_eq]
    exact Balanced.append (by decide) (Delete.balanced_settings h).bracketed
  | drop kind target =>
    have name : Balanced kind.dropName := by cases kind <;> decide
    show Balanced (kind.dropName ++ target.render)
    rw [DropTarget.render_eq]
    exact name.append (DropTarget.balanced_settings h).bracketed

end SqlPlan.Plan
