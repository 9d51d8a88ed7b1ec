import SqlPlan.Proofs.Lowering.Image

/-!
# The width of inserted rows

Rows of values reach an insertion in two ways: written out behind `INSERT`, or as the core of a
query.  Both ways see to it that all rows are of one width.  Only the first one compares that width
with the number of columns: a query is lowered with no regard to the columns that its rows are for.

So rows written out fit the columns of the insertion, and the rows of a query fit if they were
written to fit (`Insert.rows_fit_columns_iff`).  Where they were not, the insertion is still lowered
(`Insert.rows_fit_columns_fails`).
-/

namespace SqlPlan.Sql

open Plan (Rows Scalar)
open Step

/-! ### Rows of values -/

theorem length_eq_of_lowerRows {values : List (List Expr)} {rows : List (List Scalar)}
    (h : lowerRows values = .ok rows) : ∀ row ∈ rows, ∀ row' ∈ rows, row.length = row'.length := by
  obtain ⟨width, entries⟩ := lowerRows_iff.mp h
  exact sameWidth_iff.mp ((sameWidth_lowered_iff entries).mpr width)

/-- Lowered rows have a given length exactly if the rows they come from do. -/
theorem forall_length_lowerRows_iff {values : List (List Expr)} {rows : List (List Scalar)}
    (h : lowerRows values = .ok rows) (n : ℕ) :
    (∀ row ∈ rows, row.length = n) ↔ ∀ row ∈ values, row.length = n := by
  have lengths := map_length_lowered (lowerRows_iff.mp h).2
  have by_lengths : ∀ {α : Type} (rows : List (List α)),
      (∀ row ∈ rows, row.length = n) ↔ ∀ m ∈ rows.map List.length, m = n := by
    intro α rows
    rw [List.forall_mem_map]
  rw [by_lengths, by_lengths, lengths]

/-- Only the first row is compared with the columns, which is enough for rows of one width. -/
theorem length_eq_of_checkWidth {columns : List String} {rows : List (List α)}
    (named : columns ≠ []) (even : ∀ row ∈ rows, ∀ row' ∈ rows, row.length = row'.length)
    (h : checkWidth columns rows = .ok ()) : ∀ row ∈ rows, row.length = columns.length := by
  cases rows with
  | nil => exact nofun
  | cons first rows =>
    have first_fits : first.length = columns.length := by
      rw [checkWidth] at h
      split at h
      · next fits => simpa [named] using fits
      · cases h
    intro row hrow
    rw [even row hrow first List.mem_cons_self, first_fits]

/-! ### Rows of values in an insertion -/

theorem Clause.lower_ne_values {c : Clause} {rows : List (List Scalar)} :
    c.lower ≠ .ok (.values rows) := by
  intro h
  obtain ⟨-, cols, -, source, -, input, -, -, hrows⟩ := Clause.lower_iff.mp h
  rcases hq : c.quantifier with _ | _ | _ <;> rw [hq] at hrows <;> cases hrows

/-- A query gives rows of values if its core is such rows and nothing is put on top of them. -/
theorem Select.exists_values_of_lower {s : Select} {rows : List (List Scalar)}
    (h : s.lower = .ok (.values rows)) :
    ∃ values, s.core = .values values ∧ lowerRows values = .ok rows := by
  obtain ⟨-, -, core, hcore, -, hlimit⟩ := Select.lower_iff.mp h
  have core_eq : core = .values rows := by
    rcases hl : s.limit with _ | limit <;> rw [hl] at hlimit
    · cases hlimit
      rfl
    · obtain ⟨_, -, _, -, hrows⟩ := applyLimit_some_iff.mp hlimit
      cases hrows
  rw [core_eq] at hcore
  cases hc : s.core with
  | select clause =>
    rw [hc] at hcore
    exact absurd hcore Clause.lower_ne_values
  | values values =>
    rw [hc] at hcore
    obtain ⟨_, hrows, heq⟩ := Core.lower_values_iff.mp hcore
    cases heq
    exact ⟨values, rfl, hrows⟩

/-- The two ways by which rows of values reach an insertion. -/
theorem InsertSource.exists_values_of_lower {source : InsertSource} {columns : List String}
    {rows : List (List Scalar)} (h : source.lower columns = .ok (some (.values rows))) :
    ∃ values, lowerRows values = .ok rows ∧
      ((source = .values values ∧ checkWidth columns rows = .ok ()) ∨
        ∃ select, source = .query select ∧ select.core = .values values) := by
  cases source with
  | values values =>
    obtain ⟨_, hrows, width, heq⟩ := InsertSource.lower_values_iff.mp h
    cases heq
    exact ⟨values, hrows, .inl ⟨rfl, width⟩⟩
  | query select =>
    obtain ⟨_, hselect, heq⟩ := InsertSource.lower_query_iff.mp h
    cases heq
    obtain ⟨values, hcore, hrows⟩ := Select.exists_values_of_lower hselect
    exact ⟨values, hrows, .inr ⟨select, rfl, hcore⟩⟩
  | defaults => cases h

namespace Insert

/-- **When inserted rows fit the columns.**  Take an insertion into named columns that is lowered to
rows of values.  Each row has as many values as there are columns exactly if the rows were written
out behind `INSERT`, or were written with that many values in the core of a query.  In both cases
the rows are of one width; but an insertion from a query is lowered to the same rows for all other
columns, too. -/
theorem rows_fit_columns_iff (w : Insert) (write : Plan.Insert) (rows : List (List Scalar))
    (h : w.lower = .ok write) (named : write.cols ≠ [])
    (hinput : write.input = some (.values rows)) :
    ((∀ row ∈ rows, row.length = write.cols.length) ↔
      (∃ values, w.source = .values values) ∨
      ∃ select values, w.source = .query select ∧ select.core = .values values ∧
        ∀ row ∈ values, row.length = write.cols.length) ∧
    (∀ row ∈ rows, ∀ row' ∈ rows, row.length = row'.length) ∧
    ∀ select, w.source = .query select → ∀ columns : List String,
      { w with columns := columns }.lower = .ok { write with cols := columns } := by
  obtain ⟨no_ctes, no_upsert, input, hsource, rfl⟩ := Insert.lower_iff.mp h
  cases hinput
  obtain ⟨values, hrows, path⟩ := InsertSource.exists_values_of_lower hsource
  have even := length_eq_of_lowerRows hrows
  refine ⟨?_, even, ?_⟩
  · rcases path with ⟨source_eq, width⟩ | ⟨select, source_eq, core_eq⟩
    · exact iff_of_true (length_eq_of_checkWidth named even width) (.inl ⟨values, source_eq⟩)
    · rw [forall_length_lowerRows_iff hrows]
      constructor
      · intro fits
        exact .inr ⟨select, values, source_eq, core_eq, fits⟩
      · rintro (⟨_, other⟩ | ⟨select', values', source_eq', core_eq', fits⟩)
        · rw [source_eq] at other
          cases other
        · rw [source_eq] at source_eq'
          cases source_eq'
          rw [core_eq] at core_eq'
          cases core_eq'
          exact fits
  · intro select source_eq columns
    rw [source_eq] at hsource
    have same_input : w.source.lower columns = .ok (some (.values rows)) := by
      rw [source_eq]
      exact hsource
    exact Insert.lower_iff.mpr ⟨no_ctes, no_upsert, _, same_input, rfl⟩

/-- `INSERT INTO t (a, b) VALUES (1, 2), (3, 4)` -/
def pairs : Insert where
  table := { name := "t" }
  columns := ["a", "b"]
  source := .values [[.literal "1", .literal "2"], [.literal "3", .literal "4"]]

theorem rows_fit_columns_iff_pairs : ∃ write rows, pairs.lower = .ok write ∧ write.cols ≠ [] ∧
    write.input = some (.values rows) ∧ ∀ row ∈ rows, row.length = write.cols.length := by
  refine ⟨_, [[.literal "1", .literal "2"], [.literal "3", .literal "4"]], rfl, nofun, rfl, ?_⟩
  exact (rows_fit_columns_iff pairs _ _ rfl nofun rfl).1.mpr (.inl ⟨_, rfl⟩)

/-- `INSERT INTO t (a, b) VALUES (1)`, the row being the core of a query -/
def short : Insert where
  table := { name := "t" }
  columns := ["a", "b"]
  source := .query (.ofCore (.values [[.literal "1"]]))

/-- One value is inserted into two columns. -/
theorem rows_fit_columns_fails : ∃ write rows, short.lower = .ok write ∧ write.cols ≠ [] ∧
    write.input = some (.values rows) ∧ ¬ ∀ row ∈ rows, row.length = write.cols.length := by
  refine ⟨_, [[.literal "1"]], rfl, nofun, rfl, ?_⟩
  intro fits
  cases fits _ List.mem_cons_self

end Insert

end SqlPlan.Sql
