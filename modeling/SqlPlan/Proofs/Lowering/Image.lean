import SqlPlan.Proofs.Lowering.Inversion

/-!
# The plans that lowering builds

Not every plan comes from a statement.  Numbers and truth values have no place in what an expression
becomes, a join always has both its operands and a kind, and the operators of a query stand on each
other in one order only.  The predicates below are the grammar of the plans that do come from a
statement, and `StatementKind.exists_lower_iff` says that the grammar is exact: lowering builds
nothing else, and everything in it is built from some statement.

Each level has two halves.  That lowering stays inside the grammar is shown by induction on the
syntax (`plain_of_lower`, `joinTree_of_lower`, ...); that the grammar is exhausted, by induction on
the predicate, from which a statement is read off (`exists_lower_of_plain`, ...).
-/

namespace SqlPlan

/-! ### The grammar -/

namespace Plan

/-- A scalar that stands for an expression: it holds no number and no truth value, and a call over
distinct values in it has exactly one argument. -/
inductive Scalar.Plain : Scalar → Prop where
  | literal (text : String) : Plain (.literal text)
  | unary (op : UnaryOp) {x : Scalar} : Plain x → Plain (.unary op x)
  | binary (op : BinaryOp) {x y : Scalar} : Plain x → Plain y → Plain (.binary x op y)
  | call (name : String) {distinct : Bool} {args : List Scalar} :
    (distinct = true → args.length = 1) → (∀ x ∈ args, Plain x) → Plain (.call name distinct args)
  | equality (invert : Bool) {x y : Scalar} : Plain x → Plain y → Plain (.equality x y invert)
  | range (invert : Bool) {x lo hi : Scalar} :
    Plain x → Plain lo → Plain hi → Plain (.range x lo hi invert)

/-- A table whose hints do not contradict each other: one that forbids indices demands none. -/
def Table.Plain : Table → Prop
  | .simple t => t.indexed = false → t.index = none

/-- A table without a hint. -/
def Table.Unhinted : Table → Prop
  | .simple t => t.indexed = true ∧ t.index = none

/-- An output column: all columns of a table, or one scalar. -/
inductive Column.Plain : Column → Prop where
  | tableStar (table : String) : Plain { table := some table, value := .literal "*" }
  | scalar {x : Scalar} (label : Option String) : x.Plain → Plain { value := x, label }

/-- What a join of a statement says beside its operands. -/
def JoinSpec.Plain (spec : JoinSpec) : Prop :=
  spec.kind ≠ .unspecified ∧ ∀ x ∈ spec.filter, x.Plain

namespace Rows

/-- The rows of a `FROM` clause: scans under joins that have both operands. -/
inductive JoinTree : Rows → Prop where
  | scan {t : Table} : t.Plain → JoinTree (.scan t)
  | join {spec : JoinSpec} {left right : Rows} :
    spec.Plain → JoinTree left → JoinTree right → JoinTree (.join spec (some left) (some right))

/-- The rows that a select clause works on before its `WHERE`. -/
inductive ClauseSource : Rows → Prop where
  | joinTree {rows : Rows} : JoinTree rows → ClauseSource rows
  | singleRow : ClauseSource singleRow

/-- The rows that a select clause projects. -/
inductive ClauseInput : Rows → Prop where
  | unfiltered {rows : Rows} : ClauseSource rows → ClauseInput rows
  | filtered {x : Scalar} {rows : Rows} :
    x.Plain → ClauseSource rows → ClauseInput (.select (some x) rows)

/-- The rows of a core: rows of values of one width, or a projection, possibly made distinct. -/
inductive CorePlan : Rows → Prop where
  | values {rows : List (List Scalar)} :
    (∀ r ∈ rows, ∀ r' ∈ rows, r.length = r'.length) → (∀ r ∈ rows, ∀ x ∈ r, x.Plain) →
      CorePlan (.values rows)
  | project {cols : List Column} {input : Rows} :
    (∀ col ∈ cols, col.Plain) → ClauseInput input → CorePlan (.project cols input)
  | distinct {cols : List Column} {input : Rows} :
    (∀ col ∈ cols, col.Plain) → ClauseInput input → CorePlan (.distinct (.project cols input))

/-- The rows of a query. -/
inductive SelectPlan : Rows → Prop where
  | core {rows : Rows} : CorePlan rows → SelectPlan rows
  | limit {x : Scalar} {rows : Rows} : x.Plain → CorePlan rows → SelectPlan (.limit x rows)
  | limitOffset {x y : Scalar} {rows : Rows} :
    x.Plain → y.Plain → CorePlan rows → SelectPlan (.limit x (.offset y rows))

end Rows

/-- The filter of a write: every row, or those for which a scalar holds. -/
def Scalar.WriteFilter (x : Scalar) : Prop := x = .boolean true ∨ x.Plain

/-- The commands that come from statements. -/
inductive Command.Lowered : Command → Prop where
  | query {rows : Rows} : rows.SelectPlan → Lowered (.query rows)
  | insert {w : Insert} :
    w.table.Unhinted → (∀ rows ∈ w.input, rows.SelectPlan) → Lowered (.insert w)
  | update {w : Update} :
    w.table.Plain → (∀ s ∈ w.setters, s.value.Plain) → w.filter.WriteFilter → Lowered (.update w)
  | delete {w : Delete} : w.table.Plain → w.filter.WriteFilter → Lowered (.delete w)
  | drop (kind : ObjectKind) (target : DropTarget) : Lowered (.drop kind target)

end Plan

namespace Sql

open Plan
open Step

/-! ### Lowering stays inside the grammar -/

theorem BinaryOp.plain_lower (op : BinaryOp) {x y : Scalar} (hx : x.Plain) (hy : y.Plain) :
    (op.lower x y).Plain := by
  rcases op.lower_cases with ⟨o, -, lower_eq⟩ | ⟨-, lower_eq⟩ | ⟨-, lower_eq⟩
  · rw [lower_eq]
    exact .binary o hx hy
  · rw [lower_eq]
    exact .equality false hx hy
  · rw [lower_eq]
    exact .equality true hx hy

mutual

theorem Expr.plain_of_lower : ∀ {e : Expr} {x : Scalar}, e.lower = .ok x → x.Plain
  | .literal text, _, h => by
    cases h
    exact .literal text
  | .column ref, _, h => by
    cases h
    exact .literal ref.text
  | .unary op _, _, h => by
    obtain ⟨_, hx, rfl⟩ := Expr.lower_unary_iff.mp h
    exact .unary op.lower (Expr.plain_of_lower hx)
  | .binary op _ _, _, h => by
    obtain ⟨_, hx, _, hy, rfl⟩ := Expr.lower_binary_iff.mp h
    exact op.plain_lower (Expr.plain_of_lower hx) (Expr.plain_of_lower hy)
  | .between negated _ _ _, _, h => by
    obtain ⟨_, hx, _, hlo, _, hhi, rfl⟩ := Expr.lower_between_iff.mp h
    exact .range negated (Expr.plain_of_lower hx) (Expr.plain_of_lower hlo)
      (Expr.plain_of_lower hhi)
  | .call name _ (.list items) _ _, _, h => by
    obtain ⟨-, -, xs, hxs, rfl⟩ := Expr.lower_call_iff.mp h
    obtain ⟨single, hxs⟩ := Args.lower_list_iff.mp hxs
    have len : items.length = xs.length := (Expr.lowerAll_iff.mp hxs).length_eq
    exact .call name (fun hd => len ▸ single hd) (Expr.plain_of_lowerAll hxs)
  | .call _ _ .star _ _, _, h => by
    obtain ⟨-, -, _, hxs, -⟩ := Expr.lower_call_iff.mp h
    cases hxs
  | .row [item], _, h => by
    rw [Expr.lower] at h
    exact Expr.plain_of_lower h

theorem Expr.plain_of_lowerAll : ∀ {es : List Expr} {xs : List Scalar},
    Expr.lowerAll es = .ok xs → ∀ x ∈ xs, x.Plain
  | [], _, h => by
    cases h
    exact nofun
  | e :: es, _, h => by
    obtain ⟨x, xs, hx, hxs, rfl⟩ := List.forall₂_cons_left_iff.mp (Expr.lowerAll_iff.mp h)
    intro y hy
    rcases List.mem_cons.mp hy with rfl | hy
    · exact Expr.plain_of_lower hx
    · exact Expr.plain_of_lowerAll (Expr.lowerAll_iff.mpr hxs) y hy

end

theorem TableName.plain_lower (t : TableName) : (Table.simple t.lower).Plain := by
  intro h
  obtain ⟨schema, name, label, _ | _ | _⟩ := t
  · cases h
  · cases h
  · rfl

theorem JoinOp.kind_of_lower {op : JoinOp} {spec : JoinSpec} (h : op.lower = .ok spec) :
    spec.kind ≠ .unspecified := by
  cases op with
  | comma =>
    cases h
    exact nofun
  | join natural word =>
    obtain ⟨kind, hk, rfl⟩ := JoinOp.lower_join_iff.mp h
    rcases word with _ | _ | _ | _ | _ | _ | _ <;> cases hk <;> exact nofun

theorem plain_of_joinSpec {op : JoinOp} {constraint : Option JoinConstraint} {spec : JoinSpec}
    (h : joinSpec op constraint = .ok spec) : spec.Plain := by
  obtain ⟨plain, hop, filter, hfilter, rfl⟩ := joinSpec_iff.mp h
  have kind_ne : plain.kind ≠ .unspecified := JoinOp.kind_of_lower hop
  refine ⟨kind_ne, fun x hx => ?_⟩
  rcases constraint with _ | value | names
  · cases hfilter
    cases hx
  · obtain ⟨y, hy, rfl⟩ := JoinConstraint.lower_condition_iff.mp hfilter
    cases hx
    exact Expr.plain_of_lower hy
  · cases hfilter

mutual

theorem From.joinTree_of_lower : ∀ {clause : From} {rows : Rows},
    clause.lower = .ok rows → rows.JoinTree
  | .tables (_ :: _), _, h => by
    obtain ⟨_, hfirst, hrest⟩ := From.lower_tables_iff.mp h
    exact Source.joinTree_of_crossAll (Source.joinTree_of_lower hfirst) hrest
  | .join _ _, _, h => by
    obtain ⟨_, hfirst, hrest⟩ := From.lower_join_iff.mp h
    exact JoinPart.joinTree_of_joinAll (Source.joinTree_of_lower hfirst) hrest

theorem Source.joinTree_of_lower : ∀ {source : Source} {rows : Rows},
    source.lower = .ok rows → rows.JoinTree
  | .table name, _, h => by
    cases h
    exact .scan name.plain_lower
  | .nested _, _, h => by
    rw [Source.lower] at h
    exact From.joinTree_of_lower h

theorem Source.joinTree_of_crossAll : ∀ {sources : List Source} {accumulated rows : Rows},
    accumulated.JoinTree → Source.crossAll accumulated sources = .ok rows → rows.JoinTree
  | [], _, _, hacc, h => by
    cases h
    exact hacc
  | _ :: _, _, _, hacc, h => by
    obtain ⟨_, hright, hrest⟩ := Source.crossAll_cons_iff.mp h
    have cross : JoinSpec.Plain { kind := .cross } := ⟨nofun, nofun⟩
    have right_tree := Source.joinTree_of_lower hright
    exact Source.joinTree_of_crossAll (.join cross hacc right_tree) hrest

theorem JoinPart.joinTree_of_joinAll : ∀ {parts : List JoinPart} {accumulated rows : Rows},
    accumulated.JoinTree → JoinPart.joinAll accumulated parts = .ok rows → rows.JoinTree
  | [], _, _, hacc, h => by
    cases h
    exact hacc
  | ⟨_, _, _⟩ :: _, _, _, hacc, h => by
    obtain ⟨_, hspec, _, hright, hrest⟩ := JoinPart.joinAll_cons_iff.mp h
    have right_tree := Source.joinTree_of_lower hright
    exact JoinPart.joinTree_of_joinAll (.join (plain_of_joinSpec hspec) hacc right_tree) hrest

end

theorem map_length_lowered {rows : List (List Expr)} {lowered : List (List Scalar)}
    (h : List.Forall₂ (fun r xs => Expr.lowerAll r = .ok xs) rows lowered) :
    rows.map List.length = lowered.map List.length := by
  induction h with
  | nil => rfl
  | cons hr _ ih => rw [List.map_cons, List.map_cons, ih, (Expr.lowerAll_iff.mp hr).length_eq]

/-- Lowered rows are of one width exactly if the rows they come from are. -/
theorem sameWidth_lowered_iff {rows : List (List Expr)} {lowered : List (List Scalar)}
    (h : List.Forall₂ (fun r xs => Expr.lowerAll r = .ok xs) rows lowered) :
    sameWidth lowered = true ↔ sameWidth rows = true := by
  have lengths := map_length_lowered h
  have by_lengths : ∀ {α : Type} (rows : List (List α)), sameWidth rows = true ↔
      ∀ m ∈ rows.map List.length, ∀ n ∈ rows.map List.length, m = n := by
    intro α rows
    rw [sameWidth_iff]
    simp only [List.forall_mem_map]
  rw [by_lengths, by_lengths, lengths]

theorem corePlan_of_lowerRows {rows : List (List Expr)} {lowered : List (List Scalar)}
    (h : lowerRows rows = .ok lowered) : (Rows.values lowered).CorePlan := by
  obtain ⟨width, entries⟩ := lowerRows_iff.mp h
  refine .values (sameWidth_iff.mp ((sameWidth_lowered_iff entries).mpr width)) fun xs hxs => ?_
  obtain ⟨r, -, hr⟩ := exists_of_mem_right entries hxs
  exact Expr.plain_of_lowerAll hr

theorem ResultColumn.plain_of_lower {col : ResultColumn} {col' : Column}
    (h : col.lower = .ok col') : col'.Plain := by
  cases col with
  | star =>
    cases h
    exact .scalar none (.literal "*")
  | tableStar table =>
    cases h
    exact .tableStar table
  | expr value label =>
    obtain ⟨x, hx, rfl⟩ := ResultColumn.lower_expr_iff.mp h
    exact .scalar label (Expr.plain_of_lower hx)

theorem clauseSource_of_lowerSource {source : Option From} {rows : Rows}
    (h : lowerSource source = .ok rows) : rows.ClauseSource := by
  cases source with
  | none =>
    cases h
    exact .singleRow
  | some clause => exact .joinTree (From.joinTree_of_lower h)

theorem clauseInput_of_applyFilter {source rows : Rows} {filter : Option Expr}
    (hsource : source.ClauseSource) (h : applyFilter source filter = .ok rows) :
    rows.ClauseInput := by
  cases filter with
  | none =>
    cases h
    exact .unfiltered hsource
  | some e =>
    obtain ⟨x, hx, rfl⟩ := applyFilter_some_iff.mp h
    exact .filtered (Expr.plain_of_lower hx) hsource

theorem Clause.corePlan_of_lower {c : Clause} {rows : Rows} (h : c.lower = .ok rows) :
    rows.CorePlan := by
  obtain ⟨-, cols, hcols, source, hsource, input, hinput, -, rfl⟩ := Clause.lower_iff.mp h
  have cols_plain : ∀ col ∈ cols, col.Plain := by
    intro col hcol
    obtain ⟨_, -, hlower⟩ := exists_of_mem_right hcols hcol
    exact ResultColumn.plain_of_lower hlower
  have input_plain := clauseInput_of_applyFilter (clauseSource_of_lowerSource hsource) hinput
  rcases c.quantifier with _ | _ | _
  · exact .project cols_plain input_plain
  · exact .distinct cols_plain input_plain
  · exact .project cols_plain input_plain

theorem Core.corePlan_of_lower {core : Core} {rows : Rows} (h : core.lower = .ok rows) :
    rows.CorePlan := by
  cases core with
  | select clause => exact Clause.corePlan_of_lower h
  | values values =>
    obtain ⟨lowered, hrows, rfl⟩ := Core.lower_values_iff.mp h
    exact corePlan_of_lowerRows hrows

theorem Select.selectPlan_of_lower {s : Select} {rows : Rows} (h : s.lower = .ok rows) :
    rows.SelectPlan := by
  obtain ⟨-, -, core, hcore, -, hlimit⟩ := Select.lower_iff.mp h
  have core_plan := Core.corePlan_of_lower hcore
  rcases hl : s.limit with _ | ⟨count, offset⟩ <;> rw [hl] at hlimit
  · cases hlimit
    exact .core core_plan
  · obtain ⟨x, hx, skipped, hskipped, rfl⟩ := applyLimit_some_iff.mp hlimit
    have x_plain := Expr.plain_of_lower hx
    cases offset with
    | none =>
      cases hskipped
      exact .limit x_plain core_plan
    | some e =>
      obtain ⟨y, hy, rfl⟩ := applyOffset_some_iff.mp hskipped
      exact .limitOffset x_plain (Expr.plain_of_lower hy) core_plan

theorem InsertSource.selectPlan_of_lower {columns : List String} {source : InsertSource}
    {input : Option Rows} (h : source.lower columns = .ok input) :
    ∀ rows ∈ input, rows.SelectPlan := by
  intro rows hrows
  cases source with
  | values values =>
    obtain ⟨lowered, hlower, -, rfl⟩ := InsertSource.lower_values_iff.mp h
    cases hrows
    exact .core (corePlan_of_lowerRows hlower)
  | query select =>
    obtain ⟨_, hlower, rfl⟩ := InsertSource.lower_query_iff.mp h
    cases hrows
    exact Select.selectPlan_of_lower hlower
  | defaults =>
    cases h
    cases hrows

theorem writeFilter_of_lowerFilter {filter : Option Expr} {x : Scalar}
    (h : lowerFilter filter = .ok x) : x.WriteFilter := by
  cases filter with
  | none =>
    cases h
    exact .inl rfl
  | some e => exact .inr (Expr.plain_of_lower h)

theorem StatementKind.lowered_of_lower {k : StatementKind} {c : Command} (h : k.lower = .ok c) :
    c.Lowered := by
  cases k with
  | select query =>
    obtain ⟨rows, hrows, rfl⟩ := StatementKind.lower_select_iff.mp h
    exact .query (Select.selectPlan_of_lower hrows)
  | insert write =>
    obtain ⟨_, hwrite, rfl⟩ := StatementKind.lower_insert_iff.mp h
    obtain ⟨-, -, input, hinput, rfl⟩ := Insert.lower_iff.mp hwrite
    exact .insert ⟨rfl, rfl⟩ (InsertSource.selectPlan_of_lower hinput)
  | update write =>
    obtain ⟨_, hwrite, rfl⟩ := StatementKind.lower_update_iff.mp h
    obtain ⟨-, setters, hsetters, filter, hfilter, rfl⟩ := Update.lower_iff.mp hwrite
    have setters_plain : ∀ s ∈ setters, s.value.Plain := by
      intro s hs
      obtain ⟨_, -, hlower⟩ := exists_of_mem_right hsetters hs
      obtain ⟨x, hx, rfl⟩ := Assignment.lower_iff.mp hlower
      exact Expr.plain_of_lower hx
    exact .update write.table.plain_lower setters_plain (writeFilter_of_lowerFilter hfilter)
  | delete write =>
    obtain ⟨_, hwrite, rfl⟩ := StatementKind.lower_delete_iff.mp h
    obtain ⟨-, filter, hfilter, rfl⟩ := Delete.lower_iff.mp hwrite
    exact .delete write.table.plain_lower (writeFilter_of_lowerFilter hfilter)
  | drop change =>
    cases h
    exact .drop change.kind.lower change.lower
  | create change => cases h
  | alterTable name => cases h
  | transaction step => cases h
  | vacuum schema => cases h
  | analyze target => cases h
  | pragma name => cases h

/-! ### The grammar is exhausted -/

theorem Expr.exists_lower_of_plain {x : Scalar} (h : x.Plain) : ∃ e : Expr, e.lower = .ok x := by
  induction h with
  | literal text => exact ⟨.literal text, rfl⟩
  | unary op _ ih =>
    obtain ⟨e, he⟩ := ih
    exact ⟨.unary op.spelled e, Expr.lower_unary_iff.mpr ⟨_, he, by rw [op.lower_spelled]⟩⟩
  | binary op _ _ ihx ihy =>
    obtain ⟨e, he⟩ := ihx
    obtain ⟨e', he'⟩ := ihy
    exact ⟨.binary op.spelled e e',
      Expr.lower_binary_iff.mpr ⟨_, he, _, he', op.lower_spelled _ _⟩⟩
  | call name single _ ih =>
    obtain ⟨es, hes⟩ := exists_forall₂ ih
    have args_ok := Args.lower_list_iff.mpr
      ⟨fun hd => hes.length_eq.trans (single hd), Expr.lowerAll_iff.mpr hes⟩
    exact ⟨.call name _ (.list es) none none,
      Expr.lower_call_iff.mpr ⟨rfl, rfl, _, args_ok, rfl⟩⟩
  | equality invert _ _ ihx ihy =>
    obtain ⟨e, he⟩ := ihx
    obtain ⟨e', he'⟩ := ihy
    cases invert with
    | false => exact ⟨.binary .equals e e', Expr.lower_binary_iff.mpr ⟨_, he, _, he', rfl⟩⟩
    | true => exact ⟨.binary .notEquals e e', Expr.lower_binary_iff.mpr ⟨_, he, _, he', rfl⟩⟩
  | range invert _ _ _ ihx ihlo ihhi =>
    obtain ⟨e, he⟩ := ihx
    obtain ⟨low, hlow⟩ := ihlo
    obtain ⟨high, hhigh⟩ := ihhi
    exact ⟨.between invert e low high,
      Expr.lower_between_iff.mpr ⟨_, he, _, hlow, _, hhigh, rfl⟩⟩

theorem Expr.exists_lowerAll_of_plain {xs : List Scalar} (h : ∀ x ∈ xs, x.Plain) :
    ∃ es, Expr.lowerAll es = .ok xs := by
  obtain ⟨es, hes⟩ := exists_forall₂ fun x hx => Expr.exists_lower_of_plain (h x hx)
  exact ⟨es, Expr.lowerAll_iff.mpr hes⟩

theorem TableName.exists_lower_of_plain {t : Table} (h : t.Plain) :
    ∃ name : TableName, Table.simple name.lower = t := by
  obtain ⟨schema, name, label, indexed, index⟩ := t
  cases indexed with
  | false =>
    obtain rfl : index = none := h rfl
    exact ⟨⟨schema, name, label, some .notIndexed⟩, rfl⟩
  | true =>
    cases index with
    | none => exact ⟨⟨schema, name, label, none⟩, rfl⟩
    | some i => exact ⟨⟨schema, name, label, some (.indexedBy i)⟩, rfl⟩

theorem JoinWord.exists_lower_of_ne {kind : JoinKind} (h : kind ≠ .unspecified) :
    ∃ word, JoinWord.lower word = .ok kind := by
  cases kind with
  | unspecified => exact absurd rfl h
  | left => exact ⟨some .left, rfl⟩
  | leftOuter => exact ⟨some .leftOuter, rfl⟩
  | inner => exact ⟨some .inner, rfl⟩
  | cross => exact ⟨some .cross, rfl⟩

theorem exists_joinSpec_of_plain {spec : JoinSpec} (h : spec.Plain) :
    ∃ op constraint, joinSpec op constraint = .ok spec := by
  obtain ⟨kind, natural, filter⟩ := spec
  obtain ⟨kind_ne, filter_plain⟩ := h
  obtain ⟨word, hword⟩ := JoinWord.exists_lower_of_ne kind_ne
  have op_ok : (JoinOp.join natural word).lower = .ok { kind, natural } :=
    JoinOp.lower_join_iff.mpr ⟨kind, hword, rfl⟩
  cases filter with
  | none => exact ⟨.join natural word, none, joinSpec_iff.mpr ⟨_, op_ok, none, rfl, rfl⟩⟩
  | some x =>
    obtain ⟨e, he⟩ := Expr.exists_lower_of_plain (filter_plain x rfl)
    have filter_ok := JoinConstraint.lower_condition_iff.mpr ⟨x, he, rfl⟩
    exact ⟨.join natural word, some (.condition e), joinSpec_iff.mpr ⟨_, op_ok, _, filter_ok, rfl⟩⟩

-- a join of any shape is one join part, with both operands between parentheses
theorem From.exists_lower_of_joinTree {rows : Rows} (h : rows.JoinTree) :
    ∃ clause : From, clause.lower = .ok rows := by
  induction h with
  | scan ht =>
    obtain ⟨name, rfl⟩ := TableName.exists_lower_of_plain ht
    exact ⟨.tables [.table name], rfl⟩
  | @join _ l r hspec _ _ ihl ihr =>
    obtain ⟨op, constraint, spec_ok⟩ := exists_joinSpec_of_plain hspec
    obtain ⟨left, hleft⟩ := ihl
    obtain ⟨right, hright⟩ := ihr
    have left_ok : (Source.nested left).lower = .ok l := by rw [Source.lower, hleft]
    have right_ok : (Source.nested right).lower = .ok r := by rw [Source.lower, hright]
    refine ⟨.join (.nested left) [⟨op, .nested right, constraint⟩], ?_⟩
    refine From.lower_join_iff.mpr ⟨l, left_ok, ?_⟩
    exact JoinPart.joinAll_cons_iff.mpr ⟨_, spec_ok, r, right_ok, rfl⟩

theorem exists_lowerRows {rows : List (List Scalar)}
    (width : ∀ r ∈ rows, ∀ r' ∈ rows, r.length = r'.length) (plain : ∀ r ∈ rows, ∀ x ∈ r, x.Plain) :
    ∃ values, lowerRows values = .ok rows := by
  obtain ⟨values, entries⟩ :=
    exists_forall₂ fun r hr => Expr.exists_lowerAll_of_plain (plain r hr)
  have same := (sameWidth_lowered_iff entries).mp (sameWidth_iff.mpr width)
  exact ⟨values, lowerRows_iff.mpr ⟨same, entries⟩⟩

theorem ResultColumn.exists_lower_of_plain {col : Column} (h : col.Plain) :
    ∃ result : ResultColumn, result.lower = .ok col := by
  cases h with
  | tableStar table => exact ⟨.tableStar table, rfl⟩
  | scalar label hx =>
    obtain ⟨e, he⟩ := Expr.exists_lower_of_plain hx
    exact ⟨.expr e label, ResultColumn.lower_expr_iff.mpr ⟨_, he, rfl⟩⟩

theorem exists_lowerSource {rows : Rows} (h : rows.ClauseSource) :
    ∃ source, lowerSource source = .ok rows := by
  cases h with
  | joinTree hrows =>
    obtain ⟨clause, hclause⟩ := From.exists_lower_of_joinTree hrows
    exact ⟨some clause, hclause⟩
  | singleRow => exact ⟨none, rfl⟩

theorem exists_applyFilter {rows : Rows} (h : rows.ClauseInput) :
    ∃ source filter start,
      lowerSource source = .ok start ∧ applyFilter start filter = .ok rows := by
  cases h with
  | unfiltered hrows =>
    obtain ⟨source, hsource⟩ := exists_lowerSource hrows
    exact ⟨source, none, _, hsource, rfl⟩
  | filtered hx hrows =>
    obtain ⟨source, hsource⟩ := exists_lowerSource hrows
    obtain ⟨e, he⟩ := Expr.exists_lower_of_plain hx
    exact ⟨source, some e, _, hsource, applyFilter_some_iff.mpr ⟨_, he, rfl⟩⟩

theorem Clause.exists_lower {cols : List Column} {input : Rows} (hcols : ∀ col ∈ cols, col.Plain)
    (hinput : input.ClauseInput) (quantifier : Option Quantifier) :
    ∃ c : Clause, c.lower = .ok (applyQuantifier (.project cols input) quantifier) := by
  obtain ⟨columns, columns_ok⟩ :=
    exists_forall₂ fun col hcol => ResultColumn.exists_lower_of_plain (hcols col hcol)
  obtain ⟨source, filter, start, source_ok, filter_ok⟩ := exists_applyFilter hinput
  exact ⟨⟨quantifier, columns, source, filter, none, none⟩,
    Clause.lower_iff.mpr ⟨rfl, cols, columns_ok, start, source_ok, input, filter_ok, rfl, rfl⟩⟩

theorem Core.exists_lower_of_corePlan {rows : Rows} (h : rows.CorePlan) :
    ∃ core : Core, core.lower = .ok rows := by
  cases h with
  | values width plain =>
    obtain ⟨values, hvalues⟩ := exists_lowerRows width plain
    exact ⟨.values values, Core.lower_values_iff.mpr ⟨_, hvalues, rfl⟩⟩
  | project hcols hinput =>
    obtain ⟨c, hc⟩ := Clause.exists_lower hcols hinput none
    exact ⟨.select c, hc⟩
  | distinct hcols hinput =>
    obtain ⟨c, hc⟩ := Clause.exists_lower hcols hinput (some .distinct)
    exact ⟨.select c, hc⟩

theorem Select.exists_lower_of_selectPlan {rows : Rows} (h : rows.SelectPlan) :
    ∃ s : Select, s.lower = .ok rows := by
  cases h with
  | core hcore =>
    obtain ⟨core, core_ok⟩ := Core.exists_lower_of_corePlan hcore
    exact ⟨{ core }, Select.lower_iff.mpr ⟨rfl, rfl, _, core_ok, rfl, rfl⟩⟩
  | limit hx hcore =>
    obtain ⟨core, core_ok⟩ := Core.exists_lower_of_corePlan hcore
    obtain ⟨count, count_ok⟩ := Expr.exists_lower_of_plain hx
    refine ⟨{ core, limit := some ⟨count, none⟩ }, Select.lower_iff.mpr
      ⟨rfl, rfl, _, core_ok, rfl, ?_⟩⟩
    exact applyLimit_some_iff.mpr ⟨_, count_ok, _, rfl, rfl⟩
  | limitOffset hx hy hcore =>
    obtain ⟨core, core_ok⟩ := Core.exists_lower_of_corePlan hcore
    obtain ⟨count, count_ok⟩ := Expr.exists_lower_of_plain hx
    obtain ⟨offset, offset_ok⟩ := Expr.exists_lower_of_plain hy
    refine ⟨{ core, limit := some ⟨count, some offset⟩ }, Select.lower_iff.mpr
      ⟨rfl, rfl, _, core_ok, rfl, ?_⟩⟩
    refine applyLimit_some_iff.mpr ⟨_, count_ok, _, ?_, rfl⟩
    exact applyOffset_some_iff.mpr ⟨_, offset_ok, rfl⟩

-- the width of rows of values is only checked if they stand in the insertion itself, so a query
-- is taken as the source even where those rows would do
theorem InsertSource.exists_lower {input : Option Rows} (h : ∀ rows ∈ input, rows.SelectPlan)
    (columns : List String) : ∃ source : InsertSource, source.lower columns = .ok input := by
  cases input with
  | none => exact ⟨.defaults, rfl⟩
  | some rows =>
    obtain ⟨select, hselect⟩ := Select.exists_lower_of_selectPlan (h rows rfl)
    exact ⟨.query select, InsertSource.lower_query_iff.mpr ⟨_, hselect, rfl⟩⟩

theorem exists_lowerFilter {x : Scalar} (h : x.WriteFilter) :
    ∃ filter, lowerFilter filter = .ok x := by
  rcases h with rfl | plain
  · exact ⟨none, rfl⟩
  · obtain ⟨e, he⟩ := Expr.exists_lower_of_plain plain
    exact ⟨some e, he⟩

theorem ConflictResolution.exists_lower (action : ConflictAction) :
    ∃ resolution, ConflictResolution.lower resolution = action := by
  cases action with
  | abort => exact ⟨none, rfl⟩
  | replace => exact ⟨some .replace, rfl⟩
  | rollback => exact ⟨some .rollback, rfl⟩
  | fail => exact ⟨some .fail, rfl⟩
  | ignore => exact ⟨some .ignore, rfl⟩

theorem DropKind.exists_lower (kind : ObjectKind) : ∃ drop : DropKind, drop.lower = kind := by
  cases kind with
  | table => exact ⟨.table, rfl⟩
  | index => exact ⟨.index, rfl⟩
  | trigger => exact ⟨.trigger, rfl⟩
  | view => exact ⟨.view, rfl⟩

theorem Insert.exists_lower {w : Plan.Insert} (table : w.table.Unhinted)
    (input : ∀ rows ∈ w.input, rows.SelectPlan) : ∃ write : Insert, write.lower = .ok w := by
  obtain ⟨onConflict, ⟨schema, name, label, _, _⟩, cols, rows⟩ := w
  obtain ⟨rfl, rfl⟩ := table
  obtain ⟨source, hsource⟩ := InsertSource.exists_lower input cols
  obtain ⟨resolution, rfl⟩ := ConflictResolution.exists_lower onConflict
  exact ⟨⟨none, resolution, ⟨schema, name⟩, label, cols, source, none⟩,
    Insert.lower_iff.mpr ⟨rfl, rfl, _, hsource, rfl⟩⟩

theorem Update.exists_lower {w : Plan.Update} (table : w.table.Plain)
    (setters : ∀ s ∈ w.setters, s.value.Plain) (filter : w.filter.WriteFilter) :
    ∃ write : Update, write.lower = .ok w := by
  obtain ⟨name, table_ok⟩ := TableName.exists_lower_of_plain table
  obtain ⟨assignments, assignments_ok⟩ : ∃ assignments : List Assignment,
      List.Forall₂ (fun a setter => a.lower = .ok setter) assignments w.setters := by
    refine exists_forall₂ fun s hs => ?_
    obtain ⟨e, he⟩ := Expr.exists_lower_of_plain (setters s hs)
    exact ⟨⟨s.cols, e⟩, Assignment.lower_iff.mpr ⟨_, he, rfl⟩⟩
  obtain ⟨filter, filter_ok⟩ := exists_lowerFilter filter
  obtain ⟨resolution, resolution_ok⟩ := ConflictResolution.exists_lower w.onConflict
  refine ⟨⟨none, resolution, name, assignments, filter⟩, Update.lower_iff.mpr
    ⟨rfl, _, assignments_ok, _, filter_ok, ?_⟩⟩
  rw [table_ok, resolution_ok]

theorem Delete.exists_lower {w : Plan.Delete} (table : w.table.Plain)
    (filter : w.filter.WriteFilter) : ∃ write : Delete, write.lower = .ok w := by
  obtain ⟨name, table_ok⟩ := TableName.exists_lower_of_plain table
  obtain ⟨filter, filter_ok⟩ := exists_lowerFilter filter
  refine ⟨⟨none, name, filter⟩, Delete.lower_iff.mpr ⟨rfl, _, filter_ok, ?_⟩⟩
  rw [table_ok]

end Sql

end SqlPlan
