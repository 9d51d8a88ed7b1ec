import SqlPlan.Text

/-!
# Balanced texts

A text is *balanced* if its round and square brackets are closed in turn, each by one of its own
kind (`Text.Balanced`).  Balanced texts can be cut out of a longer text: the bracket that closes one
is the first that is not matched inside, so two balanced texts with the same bracket closing behind
them, and the same characters all along, end at the same place (`Text.Balanced.cut`).

An operator of a plan is written as its name, its settings in brackets and its inputs in
parentheses.  If no bracket stands in the name, and settings and inputs are balanced, its text falls
apart into these three in only one way, whatever comes after it (`OperatorText.text_append_inj`).
-/

namespace SqlPlan

namespace Text

/-! ### Balanced texts -/

/-- A round or square bracket. -/
def isBracket (c : Char) : Bool := c = '(' || c = ')' || c = '[' || c = ']'

/-- A text without brackets. -/
def BracketFree (text : String) : Prop := ∀ c ∈ text.toList, isBracket c = false

instance (text : String) : Decidable (BracketFree text) :=
  decidable_of_iff ((text.toList.all fun c => !isBracket c) = true) (by simp [BracketFree])

/-- The closing brackets that are awaited after one more character, the next one first.  There is no
going on from a closing bracket that is not the next one. -/
def await (awaited : List Char) (c : Char) : Option (List Char) :=
  if c = '(' then some (')' :: awaited)
  else if c = '[' then some (']' :: awaited)
  else if c = ')' || c = ']' then if awaited.head? = some c then some awaited.tail else none
  else some awaited

/-- A text in which every bracket is closed, by one of its own kind and in turn. -/
def Balanced (text : String) : Prop := text.toList.foldlM await [] = some []

instance (text : String) : Decidable (Balanced text) :=
  inferInstanceAs (Decidable (text.toList.foldlM await [] = some []))

theorem await_of_not_isBracket {c : Char} (h : isBracket c = false) (awaited : List Char) :
    await awaited c = some awaited := by
  simp only [isBracket, Bool.or_eq_false_iff, decide_eq_false_iff_not] at h
  simp [await, h]

theorem await_nil_of_closing {c : Char} (h : c = ')' ∨ c = ']') : await [] c = none := by
  rcases h with rfl | rfl <;> rfl

/-- What is awaited further down does not matter before its turn. -/
theorem await_append {awaited awaited' : List Char} {c : Char} (h : await awaited c = some awaited')
    (below : List Char) : await (awaited ++ below) c = some (awaited' ++ below) := by
  cases awaited with
  | nil => grind [await]
  | cons next rest => grind [await]

theorem foldlM_await_append {cs awaited awaited' : List Char}
    (h : cs.foldlM await awaited = some awaited') (below : List Char) :
    cs.foldlM await (awaited ++ below) = some (awaited' ++ below) := by
  induction cs generalizing awaited with
  | nil =>
    cases h
    rfl
  | cons c cs ih =>
    rw [List.foldlM_cons] at h ⊢
    obtain ⟨next, first, rest⟩ := Option.bind_eq_some_iff.mp h
    rw [await_append first]
    exact ih rest

namespace Balanced

theorem foldlM_await {text : String} (h : Balanced text) (awaited : List Char) :
    text.toList.foldlM await awaited = some awaited :=
  foldlM_await_append h awaited

theorem of_bracketFree {text : String} (h : BracketFree text) : Balanced text := by
  rw [BracketFree] at h
  rw [Balanced]
  generalize text.toList = cs at h ⊢
  induction cs with
  | nil => rfl
  | cons c cs ih =>
    rw [List.foldlM_cons, await_of_not_isBracket (h c List.mem_cons_self)]
    exact ih fun d hd => h d (List.mem_cons_of_mem c hd)

theorem append {a b : String} (ha : Balanced a) (hb : Balanced b) : Balanced (a ++ b) := by
  rw [Balanced, String.toList_append, List.foldlM_append, ha]
  exact hb

theorem append₂ {a b c : String} (ha : Balanced a) (hb : Balanced b) (hc : Balanced c) :
    Balanced (a ++ b ++ c) :=
  (ha.append hb).append hc

theorem intercalate {sep : String} {texts : List String} (hsep : Balanced sep)
    (h : ∀ text ∈ texts, Balanced text) : Balanced (sep.intercalate texts) := by
  induction texts with
  | nil =>
    rw [String.intercalate_nil]
    decide
  | cons text texts ih =>
    have first := h text List.mem_cons_self
    have rest := ih fun text' h' => h text' (List.mem_cons_of_mem text h')
    cases texts with
    | nil => rwa [String.intercalate_singleton]
    | cons text' texts =>
      rw [String.intercalate_cons_cons]
      exact first.append₂ hsep rest

theorem commaSeparated {texts : List String} (h : ∀ text ∈ texts, Balanced text) :
    Balanced (commaSeparated texts) :=
  intercalate (by decide) h

/-- A balanced text stays balanced between a bracket and the one that closes it. -/
theorem enclosed {text : String} (h : Balanced text) {o c : Char} (hopen : await [] o = some [c])
    (hclose : await [c] c = some []) :
    (o :: (text.toList ++ [c])).foldlM await [] = some [] := by
  rw [List.foldlM_cons, hopen]
  show (text.toList ++ [c]).foldlM await [c] = some []
  rw [List.foldlM_append, h.foldlM_await]
  show [c].foldlM await [c] = some []
  rw [List.foldlM_cons, hclose]
  rfl

end Balanced

/-- A text between square brackets. -/
def bracketed (text : String) : String := "[" ++ text ++ "]"

theorem toList_parenthesized (text : String) :
    (parenthesized text).toList = '(' :: (text.toList ++ [')']) := by
  simp [parenthesized]

theorem toList_bracketed (text : String) :
    (bracketed text).toList = '[' :: (text.toList ++ [']']) := by
  simp [bracketed]

theorem Balanced.parenthesized {text : String} (h : Balanced text) :
    Balanced (parenthesized text) := by
  rw [Balanced, toList_parenthesized]
  exact h.enclosed rfl rfl

theorem Balanced.bracketed {text : String} (h : Balanced text) : Balanced (bracketed text) := by
  rw [Balanced, toList_bracketed]
  exact h.enclosed rfl rfl

/-! ### Cutting balanced texts out -/

theorem Balanced.not_append_closing {a b : String} (ha : Balanced a) (hb : Balanced b) {c : Char}
    (hc : c = ')' ∨ c = ']') {more : List Char} : b.toList ≠ a.toList ++ c :: more := by
  intro h
  -- nothing is awaited when the reading of `b` comes to `c`
  have stuck : b.toList.foldlM await [] = none := by
    rw [h, List.foldlM_append, ha]
    show (c :: more).foldlM await [] = none
    rw [List.foldlM_cons, await_nil_of_closing hc]
    rfl
  rw [Balanced, stuck] at hb
  cases hb

/-- Balanced texts end where a bracket closes that is not open in them, and nowhere else. -/
theorem Balanced.cut {a a' : String} (ha : Balanced a) (ha' : Balanced a') {c : Char}
    (hc : c = ')' ∨ c = ']') {rest rest' : List Char}
    (h : a.toList ++ c :: rest = a'.toList ++ c :: rest') : a = a' ∧ rest = rest' := by
  -- if one of the texts were longer, the bracket behind the other would stand in it
  rcases List.append_eq_append_iff.mp h with ⟨_ | ⟨d, more⟩, longer, rest_eq⟩ |
    ⟨_ | ⟨d, more⟩, longer, rest_eq⟩
  · exact ⟨(String.toList_inj.mp (by simpa using longer)).symm, (List.cons.inj rest_eq).2⟩
  · obtain ⟨rfl, -⟩ := List.cons.inj rest_eq
    exact absurd longer (ha.not_append_closing ha' hc)
  · exact ⟨String.toList_inj.mp (by simpa using longer), (List.cons.inj rest_eq).2.symm⟩
  · obtain ⟨rfl, -⟩ := List.cons.inj rest_eq
    exact absurd longer (ha'.not_append_closing ha hc)

theorem parenthesized_append_inj {a a' rest rest' : String} (ha : Balanced a) (ha' : Balanced a')
    (h : parenthesized a ++ rest = parenthesized a' ++ rest') : a = a' ∧ rest = rest' := by
  have chars := congrArg String.toList h
  simp only [String.toList_append, toList_parenthesized, List.cons_append, List.append_assoc,
    List.nil_append] at chars
  obtain ⟨text_eq, rest_eq⟩ := ha.cut ha' (.inl rfl) (List.cons.inj chars).2
  exact ⟨text_eq, String.toList_inj.mp rest_eq⟩

theorem bracketed_append_inj {a a' rest rest' : String} (ha : Balanced a) (ha' : Balanced a')
    (h : bracketed a ++ rest = bracketed a' ++ rest') : a = a' ∧ rest = rest' := by
  have chars := congrArg String.toList h
  simp only [String.toList_append, toList_bracketed, List.cons_append, List.append_assoc,
    List.nil_append] at chars
  obtain ⟨text_eq, rest_eq⟩ := ha.cut ha' (.inr rfl) (List.cons.inj chars).2
  exact ⟨text_eq, String.toList_inj.mp rest_eq⟩

theorem commaSeparated_cons (text : String) (texts : List String) :
    commaSeparated (text :: texts) =
      text ++ (if texts.isEmpty then "" else "," ++ commaSeparated texts) := by
  cases texts with
  | nil => simp [commaSeparated]
  | cons text' texts => simp [commaSeparated, String.append_assoc]

theorem parenthesized_append_ne_empty (text rest : String) : parenthesized text ++ rest ≠ "" := by
  intro h
  have chars := congrArg String.toList h
  simp [toList_parenthesized] at chars

/-- Texts between parentheses, with commas between them, are told apart. -/
theorem map_parenthesized_inj {texts texts' : List String} (h : ∀ text ∈ texts, Balanced text)
    (h' : ∀ text ∈ texts', Balanced text)
    (same : commaSeparated (texts.map parenthesized) = commaSeparated (texts'.map parenthesized)) :
    texts = texts' := by
  induction texts generalizing texts' with
  | nil =>
    cases texts' with
    | nil => rfl
    | cons text' texts' =>
      rw [List.map_cons, commaSeparated_cons] at same
      exact absurd same.symm (parenthesized_append_ne_empty _ _)
  | cons text texts ih =>
    cases texts' with
    | nil =>
      rw [List.map_cons, commaSeparated_cons] at same
      exact absurd same (parenthesized_append_ne_empty _ _)
    | cons text' texts' =>
      rw [List.map_cons, List.map_cons, commaSeparated_cons, commaSeparated_cons] at same
      obtain ⟨rfl, rest_eq⟩ := parenthesized_append_inj (h text List.mem_cons_self)
        (h' text' List.mem_cons_self) same
      have ih' := ih (fun t ht => h t (List.mem_cons_of_mem _ ht))
        (fun t ht => h' t (List.mem_cons_of_mem _ ht))
      -- a comma follows on both sides or on neither
      cases texts <;> cases texts' <;> simp_all

/-! ### In front of the first bracket -/

/-- What stands in front of the first bracket of a text. -/
def heading (text : String) : String :=
  .ofList (text.toList.takeWhile fun c => !isBracket c)

theorem heading_append {a : String} (ha : BracketFree a) (b : String) :
    heading (a ++ b) = a ++ heading b := by
  apply String.toList_inj.mp
  have kept : ∀ c ∈ a.toList, (!isBracket c) = true := fun c hc => by rw [ha c hc]; rfl
  simp [heading, List.takeWhile_append_of_pos kept]

theorem heading_append_of_isBracket {a b : String} {c : Char} {cs : List Char} (ha : BracketFree a)
    (hb : b.toList = c :: cs) (hc : isBracket c = true) : heading (a ++ b) = a := by
  have nothing : heading b = "" := by
    rw [heading, hb, List.takeWhile_cons_of_neg (by simp [hc])]
  rw [heading_append ha, nothing, String.append_empty]

end Text

open Text (BracketFree Balanced bracketed parenthesized heading)

namespace Plan

/-! ### The text of an operator -/

/-- What the text of an operator is made of.  An operator without settings has no brackets for
them either. -/
structure OperatorText where
  name : String
  settings : Option String
  inputs : String

namespace OperatorText

/-- The settings in brackets. -/
def settingsText : Option String → String
  | some settings => bracketed settings
  | none => ""

/-- The name, the settings in brackets and the inputs in parentheses. -/
def text (o : OperatorText) : String := o.name ++ settingsText o.settings ++ parenthesized o.inputs

/-- The text of an operator with a setting, the key of which is written with the name. -/
theorem text_of_setting (name key value inputs : String) :
    text ⟨name, some (key ++ value), inputs⟩ =
      name ++ ("[" ++ key) ++ value ++ "]" ++ parenthesized inputs := by
  simp only [text, settingsText, bracketed, String.append_assoc]

/-- All brackets belong to the settings or the inputs, and are closed there. -/
structure WellFormed (o : OperatorText) : Prop where
  name : BracketFree o.name
  settings : ∀ settings ∈ o.settings, Balanced settings
  inputs : Balanced o.inputs

theorem WellFormed.balanced {o : OperatorText} (h : o.WellFormed) : Balanced o.text := by
  have settings : Balanced (settingsText o.settings) := by
    cases hs : o.settings with
    | none => decide
    | some settings => exact (h.settings settings hs).bracketed
  exact ((Balanced.of_bracketFree h.name).append settings).append h.inputs.parenthesized

theorem heading_text_append {o : OperatorText} (h : BracketFree o.name) (rest : String) :
    heading (o.text ++ rest) = o.name := by
  rw [text, String.append_assoc, String.append_assoc]
  cases o.settings with
  | none =>
    rw [settingsText, String.empty_append]
    exact Text.heading_append_of_isBracket h
      (by rw [String.toList_append, Text.toList_parenthesized]; rfl) rfl
  | some settings =>
    exact Text.heading_append_of_isBracket h
      (by rw [String.toList_append, settingsText, Text.toList_bracketed]; rfl) rfl

theorem heading_text {o : OperatorText} (h : BracketFree o.name) : heading o.text = o.name := by
  have heading_eq := heading_text_append h ""
  rwa [String.append_empty] at heading_eq

theorem settingsText_append_inj {settings settings' : Option String}
    {inputs inputs' rest rest' : String} (hs : ∀ s ∈ settings, Balanced s)
    (hs' : ∀ s ∈ settings', Balanced s)
    (h : settingsText settings ++ (parenthesized inputs ++ rest) =
      settingsText settings' ++ (parenthesized inputs' ++ rest')) :
    settings = settings' ∧ parenthesized inputs ++ rest = parenthesized inputs' ++ rest' := by
  cases settings with
  | none =>
    cases settings' with
    | none => exact ⟨rfl, by simpa [settingsText] using h⟩
    | some s' =>
      have chars := congrArg String.toList h
      simp [settingsText, Text.toList_parenthesized, Text.toList_bracketed] at chars
  | some s =>
    cases settings' with
    | none =>
      have chars := congrArg String.toList h
      simp [settingsText, Text.toList_parenthesized, Text.toList_bracketed] at chars
    | some s' =>
      obtain ⟨rfl, rest_eq⟩ := Text.bracketed_append_inj (hs s rfl) (hs' s' rfl) h
      exact ⟨rfl, rest_eq⟩

/-- An operator's text falls apart in one way, whatever comes after it. -/
theorem text_append_inj {o o' : OperatorText} (h : o.WellFormed) (h' : o'.WellFormed)
    {rest rest' : String} (same : o.text ++ rest = o'.text ++ rest') : o = o' ∧ rest = rest' := by
  -- the name ends at the first bracket, settings and inputs where theirs are closed
  have name_eq : o.name = o'.name := by
    rw [← heading_text_append h.name rest, same, heading_text_append h'.name]
  simp only [text, name_eq, String.append_assoc, String.append_right_inj] at same
  obtain ⟨settings_eq, more⟩ := settingsText_append_inj h.settings h'.settings same
  obtain ⟨inputs_eq, rest_eq⟩ := Text.parenthesized_append_inj h.inputs h'.inputs more
  cases o
  cases o'
  simp_all

theorem text_inj {o o' : OperatorText} (h : o.WellFormed) (h' : o'.WellFormed)
    (same : o.text = o'.text) : o = o' :=
  (text_append_inj h h' (congrArg (· ++ "") same)).1

end OperatorText

end Plan

end SqlPlan
