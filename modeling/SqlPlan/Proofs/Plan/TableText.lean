import SqlPlan.Plan.Render

/-!
# The text of a table

A table is written as a sequence of words with blanks between them: its name, behind its schema and
a dot if it has one, then its label and the hints about indices, which are announced by keywords.
No name is quoted, so a name may be spelled like a keyword, or may be empty.  The text tells the
table nevertheless, as long as no name has a dot or a blank in it
(`SimpleTable.render_eq_iff_eq`).

Blanks cut the text into its words, and the dot cuts the first of them.  From the words after it the
table is read from left to right: only a label starts with `AS`, and what follows it, if anything,
tells by its first word and its length which of the hints are given.
-/

namespace SqlPlan

/-! ### Words -/

/-- Texts that are put together with a character between each two are still told apart if the
character does not occur in them. -/
theorem Text.intercalate_inj {c : Char} {texts texts' : List String}
    (h : ∀ text ∈ texts, c ∉ text.toList) (h' : ∀ text ∈ texts', c ∉ text.toList)
    (ne : texts ≠ []) (ne' : texts' ≠ [])
    (same : (String.singleton c).intercalate texts = (String.singleton c).intercalate texts') :
    texts = texts' := by
  have chars := congrArg String.toList same
  rw [String.toList_intercalate, String.toList_intercalate, String.toList_singleton] at chars
  -- cutting at the character undoes putting together
  have pieces := congrArg (List.splitOn c) chars
  rw [List.splitOn_intercalate c (by simpa using h) (by simpa using ne),
    List.splitOn_intercalate c (by simpa using h') (by simpa using ne')] at pieces
  exact (List.map_inj_right fun _ _ => String.toList_inj.mp).mp pieces

namespace Plan.SimpleTable

/-- The names that a table is written with. -/
def texts (t : SimpleTable) : List String :=
  t.schema.toList ++ [t.name] ++ t.label.toList ++ t.index.toList

/-- The words for a label. -/
def labelWords : Option String → List String
  | none => []
  | some label => ["AS", label]

/-- The words for the hints about indices.  Both may be given. -/
def hintWords (indexed : Bool) (index : Option String) : List String :=
  (if indexed then [] else ["NOT", "INDEXED"]) ++
    (match index with
      | none => []
      | some index => ["INDEXED", "BY", index])

/-- The words of a table's text. -/
def words (t : SimpleTable) : List String :=
  Text.dotted t.schema t.name :: (labelWords t.label ++ hintWords t.indexed t.index)

theorem render_eq_intercalate_words (t : SimpleTable) : t.render = " ".intercalate t.words := by
  apply String.toList_inj.mp
  obtain ⟨schema, name, _ | label, _ | _, _ | index⟩ := t <;>
    simp [render, words, labelWords, hintWords, Text.labelled]

theorem dotted_eq_intercalate (schema : Option String) (name : String) :
    Text.dotted schema name = ".".intercalate (schema.toList ++ [name]) := by
  cases schema <;> simp [Text.dotted, String.append_assoc]

/-! ### Reading the words -/

theorem dotted_inj {schema schema' : Option String} {name name' : String}
    (h : ∀ text ∈ schema.toList ++ [name], '.' ∉ text.toList)
    (h' : ∀ text ∈ schema'.toList ++ [name'], '.' ∉ text.toList)
    (same : Text.dotted schema name = Text.dotted schema' name') :
    schema = schema' ∧ name = name' := by
  rw [dotted_eq_intercalate, dotted_eq_intercalate] at same
  have parts := Text.intercalate_inj h h' (by simp) (by simp) same
  cases schema <;> cases schema' <;> simp_all

/-- No hint starts like a label. -/
theorem head?_hintWords (indexed : Bool) (index : Option String) :
    (hintWords indexed index).head? ≠ some "AS" := by
  cases indexed <;> cases index <;> simp [hintWords]

theorem labelWords_append_inj {label label' : Option String} {indexed indexed' : Bool}
    {index index' : Option String}
    (h : labelWords label ++ hintWords indexed index =
      labelWords label' ++ hintWords indexed' index') :
    label = label' ∧ hintWords indexed index = hintWords indexed' index' := by
  cases label with
  | none =>
    cases label' with
    | none => exact ⟨rfl, h⟩
    | some label' => exact absurd (congrArg List.head? h) (head?_hintWords indexed index)
  | some label =>
    cases label' with
    | none => exact absurd (congrArg List.head? h).symm (head?_hintWords indexed' index')
    | some label' =>
      obtain ⟨⟨-, rfl⟩, hints⟩ := by simpa [labelWords] using h
      exact ⟨rfl, hints⟩

theorem hintWords_inj {indexed indexed' : Bool} {index index' : Option String}
    (h : hintWords indexed index = hintWords indexed' index') :
    indexed = indexed' ∧ index = index' := by
  cases indexed <;> cases indexed' <;> cases index <;> cases index' <;> simp_all [hintWords]

theorem eq_of_words_eq {t u : SimpleTable}
    (ht : ∀ text ∈ t.schema.toList ++ [t.name], '.' ∉ text.toList)
    (hu : ∀ text ∈ u.schema.toList ++ [u.name], '.' ∉ text.toList)
    (h : t.words = u.words) : t = u := by
  obtain ⟨first, rest⟩ := List.cons.inj h
  obtain ⟨schema_eq, name_eq⟩ := dotted_inj ht hu first
  obtain ⟨label_eq, hints⟩ := labelWords_append_inj rest
  obtain ⟨indexed_eq, index_eq⟩ := hintWords_inj hints
  cases t
  cases u
  simp_all

/-! ### The text tells the table -/

theorem not_mem_words {t : SimpleTable} (h : ∀ text ∈ t.texts, ' ' ∉ text.toList) :
    ∀ word ∈ t.words, ' ' ∉ word.toList := by
  obtain ⟨_ | schema, name, _ | label, _ | _, _ | index⟩ := t <;>
    simp_all [texts, words, labelWords, hintWords, Text.dotted]

/-- **The text of a table tells the table.**  If no name has a dot or a blank in it, tables with the
same text are the same, with whatever hints, and whichever names are empty or spelled like
keywords. -/
theorem render_eq_iff_eq (t u : SimpleTable)
    (ht : ∀ text ∈ t.texts, '.' ∉ text.toList ∧ ' ' ∉ text.toList)
    (hu : ∀ text ∈ u.texts, '.' ∉ text.toList ∧ ' ' ∉ text.toList) :
    t.render = u.render ↔ t = u := by
  constructor
  · intro same
    rw [render_eq_intercalate_words, render_eq_intercalate_words] at same
    have words_eq := Text.intercalate_inj (not_mem_words fun text h => (ht text h).2)
      (not_mem_words fun text h => (hu text h).2) (List.cons_ne_nil _ _) (List.cons_ne_nil _ _) same
    refine eq_of_words_eq (fun text h => (ht text ?_).1) (fun text h => (hu text ?_).1) words_eq
    · exact List.mem_append_left _ (List.mem_append_left _ h)
    · exact List.mem_append_left _ (List.mem_append_left _ h)
  · rintro rfl
    rfl

/-- The texts `t AS INDEXED INDEXED BY i` and `t NOT INDEXED INDEXED BY i`; the hints of the second
table contradict each other. -/
theorem render_eq_iff_eq_keywords :
    let t : SimpleTable := { name := "t", label := some "INDEXED", index := some "i" }
    let u : SimpleTable := { name := "t", indexed := false, index := some "i" }
    (∀ text ∈ t.texts, '.' ∉ text.toList ∧ ' ' ∉ text.toList) ∧
    (∀ text ∈ u.texts, '.' ∉ text.toList ∧ ' ' ∉ text.toList) ∧ t.render ≠ u.render := by
  intro t u
  have ht : ∀ text ∈ t.texts, '.' ∉ text.toList ∧ ' ' ∉ text.toList := by simp [t, texts]
  have hu : ∀ text ∈ u.texts, '.' ∉ text.toList ∧ ' ' ∉ text.toList := by simp [u, texts]
  refine ⟨ht, hu, fun same => ?_⟩
  have labels_eq := congrArg label ((render_eq_iff_eq t u ht hu).mp same)
  cases labels_eq

end Plan.SimpleTable

end SqlPlan
