import Mathlib.Logic.Function.Iterate
import SqlPlan.Proofs.Rewrite.Surrounding

/-!
# The progress of collapsing half joins

A join is *live* if it has an operand at all.  Where the collapse of half joins applies, live joins
become fewer, and so do the nodes of the tree; the log says by how many, since it has one line for
each live join that is gone (`Rows.collapse_makes_progress`).

Everything is read off the log.  It is empty exactly if the rewrite does not apply
(`Rows.collapseEvents_eq_nil_iff`), the live joins that are left and the lines of the log add up to
the live joins there were (`Rows.operandLiveJoins_add_length`), and each line stands for a node less
(`Rows.length_nodes_add_length_le`).  The last of these is shown with a source without rows in the
place of a tree that vanished, since this is what a wrapper puts there: the joins that vanish
together are one more than the lines about them, so there is a node to spare for it.
-/

namespace SqlPlan.Plan.Rows

/-! ### Live joins and nodes -/

/-- A join with at least one operand. -/
def isLive : Rows → Bool
  | join _ left right => left.isSome || right.isSome
  | _ => false

/-- The number of live joins in a tree, also where the rewrite does not look. -/
def liveJoins (rows : Rows) : ℕ := rows.nodes.countP isLive

/-- The number of live joins in a join operand. -/
def operandLiveJoins (operand : Option Rows) : ℕ := (operandNodes operand).countP isLive

theorem isLive_join (spec : JoinSpec) (left right : Option Rows) :
    (join spec left right).isLive = !(join spec left right).isEmptyJoin := by
  cases left <;> cases right <;> rfl

theorem nodes_over (w : Wrapper) (input : Rows) :
    (w.over input).nodes = w.over input :: input.nodes := by
  cases w <;> rfl

theorem liveJoins_over (w : Wrapper) (input : Rows) :
    (w.over input).liveJoins = input.liveJoins := by
  rw [liveJoins, nodes_over, List.countP_cons_of_neg]
  · rfl
  · cases w <;> exact Bool.false_ne_true

theorem liveJoins_join {spec : JoinSpec} {left right : Option Rows}
    (h : (join spec left right).isEmptyJoin = false) :
    (join spec left right).liveJoins = operandLiveJoins left + operandLiveJoins right + 1 := by
  have live : (join spec left right).isLive = true := by rw [isLive_join, h]; rfl
  rw [liveJoins, nodes, List.countP_cons_of_pos live, List.countP_append]
  rfl

theorem liveJoins_emptyJoin {rows : Rows} (h : rows.isEmptyJoin = true) : rows.liveJoins = 0 := by
  obtain ⟨spec, rfl⟩ := isEmptyJoin_iff.mp h
  rfl

theorem length_nodes_join (spec : JoinSpec) (left right : Option Rows) :
    (join spec left right).nodes.length =
      (operandNodes left).length + (operandNodes right).length + 1 := by
  rw [nodes, List.length_cons, List.length_append]

theorem length_nodes_pos (rows : Rows) : 0 < rows.nodes.length := by
  cases rows <;> exact Nat.succ_pos _

/-- A source without rows is no smaller than a tree that vanished. -/
theorem length_operandNodes_le_getD (operand : Option Rows) :
    (operandNodes operand).length ≤ (operand.getD noRows).nodes.length := by
  cases operand with
  | none => exact Nat.zero_le _
  | some rows => exact Nat.le_refl _

/-! ### The log, operator by operator -/

theorem collapseEvents_leaf {rows : Rows} (h : rows.isLeaf = true) : rows.collapseEvents = [] := by
  cases rows with
  | scan | offset | distinct | values => rfl
  | select | project | join | limit => cases h

theorem collapseEvents_over (w : Wrapper) (input : Rows) :
    (w.over input).collapseEvents = input.collapseEvents := by
  cases w <;> rfl

theorem collapseEvents_emptyJoin {rows : Rows} (h : rows.isEmptyJoin = true) :
    rows.collapseEvents = [] := by
  obtain ⟨spec, rfl⟩ := isEmptyJoin_iff.mp h
  rfl

theorem collapseEvents_join {spec : JoinSpec} {left right : Option Rows}
    (h : (join spec left right).isEmptyJoin = false) :
    (join spec left right).collapseEvents = operandEvents left ++ operandEvents right ++
      rejoinEvents (collapseOperand left) (collapseOperand right) := by
  cases left with
  | some l => rw [collapseEvents]; exact nofun
  | none =>
    cases right with
    | some r => rw [collapseEvents]; exact nofun
    | none => cases h

/-- An empty join has nothing to log in any case. -/
theorem operandEvents_some (rows : Rows) : operandEvents (some rows) = rows.collapseEvents := by
  rw [operandEvents]
  cases he : rows.isEmptyJoin with
  | true => rw [collapseEvents_emptyJoin he]; rfl
  | false => rfl

theorem rejoinEvents_eq_nil_iff {left right : Outcome Rows} :
    rejoinEvents left right = [] ↔ left.tree.isNone = false ∧ right.tree.isNone = false := by
  obtain ⟨_ | l, _⟩ := left <;> obtain ⟨_ | r, _⟩ := right <;> simp [rejoinEvents]

/-! ### When there is nothing to log -/

theorem operandEvents_eq_nil_iff {operand : Option Rows}
    (ih : ∀ rows ∈ operand, (rows.collapseEvents = [] ↔ rows.collapse.applied = false)) :
    operandEvents operand = [] ∧ (collapseOperand operand).tree.isNone = false ↔
      ((collapseOperand operand).tree.isNone || (collapseOperand operand).applied) = false := by
  cases operand with
  | none => simp [collapseOperand, Outcome.untouched]
  | some rows =>
    rw [operandEvents_some, ih rows rfl]
    rcases collapseOperand_cases rows with ⟨he, h⟩ | ⟨he, ha, h⟩ | ⟨he, ha, h⟩
    · simp [h, Outcome.untouched]
    · simp [h, ha]
    · simp [h, ha]

theorem collapseEvents_eq_nil_iff (rows : Rows) :
    rows.collapseEvents = [] ↔ rows.collapse.applied = false := by
  induction rows using shape_induct with
  | leaf rows h => simp [collapseEvents_leaf h, collapse_leaf h, Outcome.untouched]
  | wrapper w input ih => rw [collapseEvents_over, collapse_over, rewrap_applied, ih]
  | join spec left right ihl ihr =>
    cases he : (join spec left right).isEmptyJoin with
    | true => simp [collapseEvents_emptyJoin he, collapse_emptyJoin he, Outcome.untouched]
    | false =>
      rw [collapseEvents_join he, List.append_eq_nil_iff, List.append_eq_nil_iff,
        rejoinEvents_eq_nil_iff, and_and_and_comm, operandEvents_eq_nil_iff ihl,
        operandEvents_eq_nil_iff ihr, collapse_join he, rejoin_applied]
      exact Bool.or_eq_false_iff.symm

/-! ### The log counts the joins that are gone -/

/-- A join that is not built anew leaves a line. -/
theorem operandLiveJoins_rejoin (left right : Outcome Rows) :
    operandLiveJoins (rejoin left right).tree + (rejoinEvents left right).length =
      operandLiveJoins left.tree + operandLiveJoins right.tree + 1 := by
  obtain ⟨_ | l, _⟩ := left <;> obtain ⟨_ | r, _⟩ := right
  · rfl
  · show r.liveJoins + 1 = 0 + r.liveJoins + 1
    omega
  · rfl
  · exact liveJoins_join (rfl : (joined {} l r).isEmptyJoin = false)

theorem operandLiveJoins_collapseOperand {operand : Option Rows}
    (ih : ∀ rows ∈ operand, rows.collapse.applied = true →
      operandLiveJoins rows.collapse.tree + rows.collapseEvents.length = rows.liveJoins) :
    operandLiveJoins (collapseOperand operand).tree + (operandEvents operand).length =
      operandLiveJoins operand := by
  cases operand with
  | none => rfl
  | some rows =>
    rw [operandEvents_some]
    show _ = rows.liveJoins
    rcases collapseOperand_cases rows with ⟨he, h⟩ | ⟨he, ha, h⟩ | ⟨he, ha, h⟩
    · rw [h, collapseEvents_emptyJoin he, liveJoins_emptyJoin he]
      rfl
    · rw [h, ih rows rfl ha]
    · rw [h, (collapseEvents_eq_nil_iff rows).mpr ha]
      rfl

/-- The live joins that are left and the lines of the log add up to the live joins there were. -/
theorem operandLiveJoins_add_length {rows : Rows} (h : rows.collapse.applied = true) :
    operandLiveJoins rows.collapse.tree + rows.collapseEvents.length = rows.liveJoins := by
  induction rows using shape_induct with
  | leaf rows hleaf =>
    rw [collapse_leaf hleaf] at h
    cases h
  | wrapper w input ih =>
    rw [collapse_over, rewrap_applied] at h
    have below : (input.collapse.tree.getD noRows).liveJoins =
        operandLiveJoins input.collapse.tree := by
      cases input.collapse.tree <;> rfl
    rw [collapse_over, rewrap_of_applied _ h, collapseEvents_over, liveJoins_over, ← ih h, ← below]
    exact congrArg (· + _) (liveJoins_over w _)
  | join spec left right ihl ihr =>
    rw [collapse_applied] at h
    have he := not_emptyJoin_of_hasBroken h
    have own := operandLiveJoins_rejoin (collapseOperand left) (collapseOperand right)
    have from_left := operandLiveJoins_collapseOperand ihl
    have from_right := operandLiveJoins_collapseOperand ihr
    rw [collapse_join he, collapseEvents_join he, liveJoins_join he, List.length_append,
      List.length_append]
    omega

/-! ### Each line stands for a node less -/

/-- A join makes room for a source without rows in the place of either operand. -/
theorem length_nodes_rejoin (left right : Outcome Rows) :
    ((rejoin left right).tree.getD noRows).nodes.length + (rejoinEvents left right).length ≤
        (left.tree.getD noRows).nodes.length + (operandNodes right.tree).length + 1 ∧
      ((rejoin left right).tree.getD noRows).nodes.length + (rejoinEvents left right).length ≤
        (operandNodes left.tree).length + (right.tree.getD noRows).nodes.length + 1 := by
  obtain ⟨_ | l, _⟩ := left <;> obtain ⟨_ | r, _⟩ := right <;>
    simp [rejoin, rejoinEvents, operandNodes, joined, noRows, nodes]

theorem length_nodes_collapseOperand {rows : Rows}
    (ih : rows.collapse.applied = true →
      (rows.collapse.tree.getD noRows).nodes.length + rows.collapseEvents.length ≤
        rows.nodes.length) :
    ((collapseOperand (some rows)).tree.getD noRows).nodes.length +
      (operandEvents (some rows)).length ≤ rows.nodes.length := by
  rw [operandEvents_some]
  rcases collapseOperand_cases rows with ⟨he, h⟩ | ⟨he, ha, h⟩ | ⟨he, ha, h⟩
  · -- an empty join and a source without rows are one node each
    rw [h, collapseEvents_emptyJoin he]
    exact length_nodes_pos rows
  · rw [h]
    exact ih ha
  · rw [h, (collapseEvents_eq_nil_iff rows).mpr ha]
    exact Nat.le_refl _

theorem length_operandNodes_collapseOperand {operand : Option Rows}
    (ih : ∀ rows ∈ operand, rows.collapse.applied = true →
      (rows.collapse.tree.getD noRows).nodes.length + rows.collapseEvents.length ≤
        rows.nodes.length) :
    (operandNodes (collapseOperand operand).tree).length + (operandEvents operand).length ≤
      (operandNodes operand).length := by
  cases operand with
  | none => exact Nat.le_refl _
  | some rows =>
    have replaced := length_nodes_collapseOperand (ih rows rfl)
    have smaller := length_operandNodes_le_getD (collapseOperand (some rows)).tree
    show _ ≤ rows.nodes.length
    omega

/-- Each line of the log stands for a node less, even if a source without rows takes the place of a
tree that vanished. -/
theorem length_nodes_add_length_le {rows : Rows} (h : rows.collapse.applied = true) :
    (rows.collapse.tree.getD noRows).nodes.length + rows.collapseEvents.length ≤
      rows.nodes.length := by
  induction rows using shape_induct with
  | leaf rows hleaf =>
    rw [collapse_leaf hleaf] at h
    cases h
  | wrapper w input ih =>
    rw [collapse_over, rewrap_applied] at h
    rw [collapse_over, rewrap_of_applied _ h, collapseEvents_over, Option.getD_some, nodes_over,
      nodes_over, List.length_cons, List.length_cons]
    have below := ih h
    omega
  | join spec left right ihl ihr =>
    rw [collapse_applied] at h
    have he := not_emptyJoin_of_hasBroken h
    have own := length_nodes_rejoin (collapseOperand left) (collapseOperand right)
    have from_left := length_operandNodes_collapseOperand ihl
    have from_right := length_operandNodes_collapseOperand ihr
    rw [collapse_join he, collapseEvents_join he, length_nodes_join, List.length_append,
      List.length_append]
    -- the operand that is there, if only one is, makes room for a source without rows
    cases left with
    | some l =>
      have replaced := length_nodes_collapseOperand (ihl l rfl)
      have same : (operandNodes (some l)).length = l.nodes.length := rfl
      omega
    | none =>
      cases right with
      | some r =>
        have replaced := length_nodes_collapseOperand (ihr r rfl)
        have same : (operandNodes (some r)).length = r.nodes.length := rfl
        omega
      | none => cases he

/-! ### What the log says -/

/-- The line of an event is a trace, and says of a join that it lost both operands or what replaces
it. -/
def ReportsLostJoin (e : Event) : Prop :=
  e.level = .trace ∧ (e.message = "join lost both operands" ∨
    ∃ survivor : Rows, e.message = "replacing half join with " ++ survivor.render)

theorem reportsLostJoin_of_mem_rejoinEvents {left right : Outcome Rows} {e : Event}
    (h : e ∈ rejoinEvents left right) : ReportsLostJoin e := by
  obtain ⟨_ | l, _⟩ := left <;> obtain ⟨_ | r, _⟩ := right
  · obtain rfl := List.mem_singleton.mp h
    exact ⟨rfl, .inl rfl⟩
  · obtain rfl := List.mem_singleton.mp h
    exact ⟨rfl, .inr ⟨r, rfl⟩⟩
  · obtain rfl := List.mem_singleton.mp h
    exact ⟨rfl, .inr ⟨l, rfl⟩⟩
  · cases h

theorem reportsLostJoin_of_mem_collapseEvents {rows : Rows} {e : Event}
    (h : e ∈ rows.collapseEvents) : ReportsLostJoin e := by
  induction rows using shape_induct with
  | leaf rows hleaf =>
    rw [collapseEvents_leaf hleaf] at h
    cases h
  | wrapper w input ih =>
    rw [collapseEvents_over] at h
    exact ih h
  | join spec left right ihl ihr =>
    cases he : (join spec left right).isEmptyJoin with
    | true =>
      rw [collapseEvents_emptyJoin he] at h
      cases h
    | false =>
      rw [collapseEvents_join he, List.mem_append, List.mem_append] at h
      rcases h with (h | h) | h
      · cases left with
        | none => cases h
        | some l => exact ihl l rfl (operandEvents_some l ▸ h)
      · cases right with
        | none => cases h
        | some r => exact ihr r rfl (operandEvents_some r ▸ h)
      · exact reportsLostJoin_of_mem_rejoinEvents h

/-! ### Any number of passes -/

theorem length_collapseEvents_pos {rows : Rows} (h : rows.collapse.applied = true) :
    0 < rows.collapseEvents.length := by
  apply List.length_pos_iff.mpr
  intro silent
  rw [(collapseEvents_eq_nil_iff rows).mp silent] at h
  cases h

theorem operandLiveJoins_lt {rows : Rows} (h : rows.collapse.applied = true) :
    operandLiveJoins rows.collapse.tree < rows.liveJoins := by
  have total := operandLiveJoins_add_length h
  have logged := length_collapseEvents_pos h
  omega

theorem length_operandNodes_lt {rows : Rows} (h : rows.collapse.applied = true) :
    (operandNodes rows.collapse.tree).length < rows.nodes.length := by
  have total := length_nodes_add_length_le h
  have logged := length_collapseEvents_pos h
  have smaller := length_operandNodes_le_getD rows.collapse.tree
  omega

theorem liveJoins_lt_of_collapse {rows tree : Rows} (h : rows.collapse = ⟨some tree, true⟩) :
    tree.liveJoins < rows.liveJoins := by
  have applied : rows.collapse.applied = true := by rw [h]
  have fewer := operandLiveJoins_lt applied
  rw [h] at fewer
  exact fewer

/-- A row source is its own replacement, or the rewrite applied and left a tree. -/
theorem collapsed_cases (rows : Rows) :
    rows.collapsed = rows ∨ rows.collapse = ⟨some rows.collapsed, true⟩ := by
  rw [collapsed]
  rcases rows.collapse with ⟨_ | tree, _ | _⟩
  · exact .inl rfl
  · exact .inl rfl
  · exact .inl rfl
  · exact .inr rfl

/-- After as many passes as there are live joins at most, a further one changes nothing. -/
theorem exists_collapsed_iterate_fixed (rows : Rows) :
    ∃ n ≤ rows.liveJoins, (collapsed^[n] rows).collapsed = collapsed^[n] rows := by
  -- a pass that changes the tree leaves fewer live joins to the passes after it
  induction hcount : rows.liveJoins using Nat.strongRecOn generalizing rows with
  | ind count ih =>
    rcases collapsed_cases rows with fixed | replaced
    · exact ⟨0, Nat.zero_le _, fixed⟩
    · have fewer := liveJoins_lt_of_collapse replaced
      rw [hcount] at fewer
      obtain ⟨n, bound, fixed⟩ := ih _ fewer rows.collapsed rfl
      exact ⟨n + 1, by omega, fixed⟩

/-- **Collapsing half joins makes progress.**  Where it applies, there are fewer live joins and
fewer nodes after it than before, so what it leaves is not what it was given; and its log has one
line for each live join that is gone, which says that the join lost both operands or what replaces
it.  Where it does not apply, it logs nothing.  It cannot be applied over and over without end, and
comes to a fixed point after as many passes as there are live joins at most. -/
theorem collapse_makes_progress :
    (∀ rows : Rows, rows.collapse.applied = true →
      operandLiveJoins rows.collapse.tree < rows.liveJoins ∧
      (operandNodes rows.collapse.tree).length < rows.nodes.length ∧
      rows.collapseEvents.length = rows.liveJoins - operandLiveJoins rows.collapse.tree ∧
      rows.collapse.tree ≠ some rows) ∧
    (∀ rows : Rows, ∀ e ∈ rows.collapseEvents, ReportsLostJoin e) ∧
    (∀ rows : Rows, rows.collapse.applied = false → rows.collapseEvents = []) ∧
    WellFounded (fun tree rows : Rows => rows.collapse = ⟨some tree, true⟩) ∧
    ∀ rows : Rows, ∃ n ≤ rows.liveJoins, (collapsed^[n] rows).collapsed = collapsed^[n] rows := by
  refine ⟨fun rows h => ?_, fun rows e => reportsLostJoin_of_mem_collapseEvents,
    fun rows => (collapseEvents_eq_nil_iff rows).mpr, ?_, exists_collapsed_iterate_fixed⟩
  · have fewer := operandLiveJoins_lt h
    have total := operandLiveJoins_add_length h
    refine ⟨fewer, length_operandNodes_lt h, by omega, ?_⟩
    intro same
    rw [same] at fewer
    exact Nat.lt_irrefl _ fewer
  · exact Subrelation.wf liveJoins_lt_of_collapse (measure liveJoins).wf

/-- A join of a limit, above joins that have no operand in the end, and a half join. -/
def hollow : Rows :=
  join { kind := .left }
    (some (limit (.literal "1") (join {} (some (join {} none (some (join {} none none)))) none)))
    (some (join {} none (some (plainScan "a"))))

/-- Two joins vanish below the limit and one is replaced, and the join at the root is built anew. -/
theorem collapse_makes_progress_hollow :
    let rest := joined {} (limit (.literal "1") noRows) (plainScan "a")
    (hollow.collapse = ⟨some rest, true⟩ ∧ hollow.liveJoins = 4 ∧ rest.liveJoins = 1 ∧
      rest.liveJoins < hollow.liveJoins ∧ rest.nodes.length < hollow.nodes.length ∧
      hollow.collapseEvents.length = hollow.liveJoins - rest.liveJoins ∧
      some rest ≠ some hollow) ∧
    (.joinVanished ∈ hollow.collapseEvents ∧ ReportsLostJoin .joinVanished) ∧
    rest.collapse.applied = false ∧ rest.collapseEvents = [] := by
  intro rest
  have progress := collapse_makes_progress.1 hollow rfl
  have vanished : .joinVanished ∈ hollow.collapseEvents := List.mem_cons_self
  have reported := collapse_makes_progress.2.1 hollow _ vanished
  have silent := collapse_makes_progress.2.2.1 rest rfl
  exact ⟨⟨rfl, rfl, rfl, progress⟩, ⟨vanished, reported⟩, rfl, silent⟩

end SqlPlan.Plan.Rows
