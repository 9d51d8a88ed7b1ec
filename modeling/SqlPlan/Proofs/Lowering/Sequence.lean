import SqlPlan.Proofs.Lowering.Chain
import SqlPlan.Proofs.Lowering.Inversion

/-!
# The order of tables and joins

Read from left to right, a `FROM` clause is a sequence of tables with a join between each two: the
one that the operator written there stands for, with its condition.  Parentheses are not part of the
sequence.  The tree that the clause is lowered to has such a sequence, too: the tables of its scans,
and between them the joins, as an in-order traversal meets them.  The two are the same
(`From.lower_keeps_sequence`), so no table is lost or moved, and no condition or kind of join goes
over to the join beside it.

What the sequence does not show is how the joins associate.  They do so to the left: the last part
of a join clause is the root, over the tree of the clause without that part
(`From.lower_join_concat_iff`).

The loops of lowering carry an accumulated tree.  Its sequence is the invariant: a run over further
sources appends theirs.
-/

namespace SqlPlan

namespace Plan

open Sql (TableName)

/-! ### Sequences -/

/-- Tables in a row, all but the first with the join in front of them. -/
structure JoinSequence where
  first : TableName
  rest : List (JoinSpec × TableName)
deriving DecidableEq

namespace JoinSequence

/-- The sequence followed by further tables. -/
def extend (s : JoinSequence) (more : List (JoinSpec × TableName)) : JoinSequence :=
  ⟨s.first, s.rest ++ more⟩

/-- The tables of a sequence that comes behind a join. -/
def behind (s : JoinSequence) (spec : JoinSpec) : List (JoinSpec × TableName) :=
  (spec, s.first) :: s.rest

theorem extend_nil (s : JoinSequence) : s.extend [] = s := by
  rw [extend, List.append_nil]

theorem extend_extend (s : JoinSequence) (more more' : List (JoinSpec × TableName)) :
    (s.extend more).extend more' = s.extend (more ++ more') := by
  rw [extend, extend, extend, List.append_assoc]

end JoinSequence

/-! ### The sequence of a tree -/

/-- The name by which a statement refers to a table, with its index hint.  There is none if one
index is demanded and all are forbidden. -/
def SimpleTable.reference? (t : SimpleTable) : Option TableName :=
  match t.indexed, t.index with
  | true, none => some ⟨t.schema, t.name, t.label, none⟩
  | true, some index => some ⟨t.schema, t.name, t.label, some (.indexedBy index)⟩
  | false, none => some ⟨t.schema, t.name, t.label, some .notIndexed⟩
  | false, some _ => none

namespace Rows

mutual

/-- The in-order traversal of a tree of joins: left operand, join, right operand.  Other operators,
and joins that lack an operand, have none. -/
def inOrder : Rows → Option JoinSequence
  | scan (.simple t) => do return ⟨← t.reference?, []⟩
  | join spec left right => do
    return (← operandInOrder left).extend ((← operandInOrder right).behind spec)
  | select _ _ => none
  | project _ _ => none
  | limit _ _ => none
  | offset _ _ => none
  | distinct _ => none
  | values _ => none

/-- The in-order traversal of a join operand. -/
def operandInOrder : Option Rows → Option JoinSequence
  | none => none
  | some rows => rows.inOrder

end

theorem inOrder_joined (spec : JoinSpec) {left right : Rows} {l r : JoinSequence}
    (hl : left.inOrder = some l) (hr : right.inOrder = some r) :
    (joined spec left right).inOrder = some (l.extend (r.behind spec)) := by
  rw [joined, inOrder, operandInOrder, operandInOrder, hl, hr]
  rfl

/-- Each table of a sequence is the table of one scan. -/
theorem scanCount_of_inOrder {rows : Rows} {s : JoinSequence} (h : rows.inOrder = some s) :
    rows.scanCount = s.rest.length + 1 := by
  induction rows using induct generalizing s with
  | scan table =>
    obtain ⟨t⟩ := table
    obtain ⟨name, -, h⟩ := Option.bind_eq_some_iff.mp h
    obtain rfl := Option.some.inj h
    rfl
  | join spec left right ihl ihr =>
    obtain ⟨l, hl, h⟩ := Option.bind_eq_some_iff.mp h
    obtain ⟨r, hr, h⟩ := Option.bind_eq_some_iff.mp h
    obtain rfl := Option.some.inj h
    cases left with
    | none => cases hl
    | some left =>
      cases right with
      | none => cases hr
      | some right =>
        have left_count := ihl left rfl hl
        have right_count := ihr right rfl hr
        simp only [scanCount, operandScanCount, JoinSequence.extend, JoinSequence.behind,
          List.length_append, List.length_cons, left_count, right_count]
        omega
  | select | project | limit | offset | distinct | values => cases h

/-- Every right operand is a scan. -/
inductive LeftDeep : Rows → Prop where
  | scan (t : Table) : LeftDeep (.scan t)
  | join (spec : JoinSpec) {left : Rows} (t : Table) :
    LeftDeep left → LeftDeep (.join spec (some left) (some (.scan t)))

end Rows

end Plan

namespace Sql

open Plan (Rows JoinKind JoinSpec JoinSequence Scalar)
open Step

/-! ### The sequence of a clause -/

/-- The kind of join that an operator stands for.  There is none for right and full joins. -/
def JoinOp.kind? : JoinOp → Option JoinKind
  | .comma => some .cross
  | .join _ none => some .inner
  | .join _ (some .inner) => some .inner
  | .join _ (some .left) => some .left
  | .join _ (some .leftOuter) => some .leftOuter
  | .join _ (some .cross) => some .cross
  | .join _ (some .right) => none
  | .join _ (some .full) => none

/-- Whether an operator has the word `NATURAL` in front. -/
def JoinOp.isNatural : JoinOp → Bool
  | .comma => false
  | .join natural _ => natural

/-- The lowered condition of a join, if there is one.  Columns of the same name are none. -/
def JoinConstraint.filter? : Option JoinConstraint → Option (Option Scalar)
  | none => some none
  | some (.condition value) => value.lower.toOption.map some
  | some (.columns _) => none

/-- The join that is written in front of the source of a join part. -/
def JoinPart.spec? (part : JoinPart) : Option JoinSpec := do
  return {
    kind := ← part.op.kind?
    natural := part.op.isNatural
    filter := ← JoinConstraint.filter? part.constraint }

mutual

/-- The tables of a `FROM` clause from left to right, with the joins written between them. -/
def From.sequence : From → Option JoinSequence
  | .tables [] => none
  | .tables (first :: sources) => do
    return (← first.sequence).extend (← Source.sequenceAll sources)
  | .join first parts => do return (← first.sequence).extend (← JoinPart.sequenceAll parts)

/-- The tables of one source; those of a clause between parentheses stand in its place. -/
def Source.sequence : Source → Option JoinSequence
  | .table name => some ⟨name, []⟩
  | .nested clause => clause.sequence
  | .subquery _ _ => none
  | .function _ _ _ => none

/-- The tables of further sources in a list, each source behind a cross join. -/
def Source.sequenceAll : List Source → Option (List (JoinSpec × TableName))
  | [] => some []
  | s :: sources => do
    return (← s.sequence).behind { kind := .cross } ++ (← Source.sequenceAll sources)

/-- The tables of some join parts. -/
def JoinPart.sequenceAll : List JoinPart → Option (List (JoinSpec × TableName))
  | [] => some []
  | ⟨op, source, constraint⟩ :: parts => do
    let spec ← JoinPart.spec? ⟨op, source, constraint⟩
    return (← source.sequence).behind spec ++ (← JoinPart.sequenceAll parts)

end

/-! ### Tables and joins are kept -/

/-- Schema, name, label and index hint are kept. -/
theorem TableName.reference?_lower (t : TableName) : t.lower.reference? = some t := by
  obtain ⟨schema, name, label, _ | _ | _⟩ := t <;> rfl

theorem JoinOp.kind?_of_lower {op : JoinOp} {spec : JoinSpec} (h : op.lower = .ok spec) :
    op.kind? = some spec.kind ∧ op.isNatural = spec.natural := by
  cases op with
  | comma =>
    cases h
    exact ⟨rfl, rfl⟩
  | join natural word =>
    obtain ⟨kind, hkind, rfl⟩ := JoinOp.lower_join_iff.mp h
    rcases word with _ | _ | _ | _ | _ | _ | _ <;> cases hkind <;> exact ⟨rfl, rfl⟩

theorem JoinConstraint.filter?_of_lower {constraint : Option JoinConstraint}
    {filter : Option Scalar} (h : JoinConstraint.lower constraint = .ok filter) :
    JoinConstraint.filter? constraint = some filter := by
  rcases constraint with _ | value | names
  · cases h
    rfl
  · obtain ⟨x, hx, rfl⟩ := JoinConstraint.lower_condition_iff.mp h
    rw [filter?, hx]
    rfl
  · cases h

theorem JoinPart.spec?_of_joinSpec {part : JoinPart} {spec : JoinSpec}
    (h : joinSpec part.op part.constraint = .ok spec) : part.spec? = some spec := by
  obtain ⟨plain, hop, filter, hfilter, rfl⟩ := joinSpec_iff.mp h
  obtain ⟨kind_eq, natural_eq⟩ := JoinOp.kind?_of_lower hop
  rw [spec?, kind_eq, natural_eq, JoinConstraint.filter?_of_lower hfilter]
  rfl

/-! ### The sequence is kept -/

mutual

theorem From.exists_sequence_of_lower : ∀ {clause : From} {rows : Rows},
    clause.lower = .ok rows → ∃ s, clause.sequence = some s ∧ rows.inOrder = some s
  | .tables (first :: sources), _, h => by
    obtain ⟨start, hfirst, hrest⟩ := From.lower_tables_iff.mp h
    obtain ⟨s, hs, hstart⟩ := Source.exists_sequence_of_lower hfirst
    obtain ⟨more, hmore, hrows⟩ := Source.exists_sequence_of_crossAll hstart hrest
    refine ⟨s.extend more, ?_, hrows⟩
    rw [From.sequence, hs, hmore]
    rfl
  | .join first parts, _, h => by
    obtain ⟨start, hfirst, hrest⟩ := From.lower_join_iff.mp h
    obtain ⟨s, hs, hstart⟩ := Source.exists_sequence_of_lower hfirst
    obtain ⟨more, hmore, hrows⟩ := JoinPart.exists_sequence_of_joinAll hstart hrest
    refine ⟨s.extend more, ?_, hrows⟩
    rw [From.sequence, hs, hmore]
    rfl

theorem Source.exists_sequence_of_lower : ∀ {source : Source} {rows : Rows},
    source.lower = .ok rows → ∃ s, source.sequence = some s ∧ rows.inOrder = some s
  | .table name, _, h => by
    cases h
    refine ⟨⟨name, []⟩, rfl, ?_⟩
    rw [Rows.inOrder, name.reference?_lower]
    rfl
  | .nested clause, _, h => by
    rw [Source.lower] at h
    rw [Source.sequence]
    exact From.exists_sequence_of_lower h

theorem Source.exists_sequence_of_crossAll : ∀ {sources : List Source} {accumulated rows : Rows}
    {s : JoinSequence}, accumulated.inOrder = some s →
    Source.crossAll accumulated sources = .ok rows →
      ∃ more, Source.sequenceAll sources = some more ∧ rows.inOrder = some (s.extend more)
  | [], _, _, s, hacc, h => by
    cases h
    refine ⟨[], rfl, ?_⟩
    rw [s.extend_nil, hacc]
  | source :: sources, _, _, s, hacc, h => by
    -- the next source is joined on the right, so its tables come behind those before it
    obtain ⟨right, hright, hrest⟩ := Source.crossAll_cons_iff.mp h
    obtain ⟨r, hr, hright⟩ := Source.exists_sequence_of_lower hright
    have hjoined := Rows.inOrder_joined { kind := .cross } hacc hright
    obtain ⟨more, hmore, hrows⟩ := Source.exists_sequence_of_crossAll hjoined hrest
    refine ⟨r.behind { kind := .cross } ++ more, ?_, ?_⟩
    · rw [Source.sequenceAll, hr, hmore]
      rfl
    · rw [hrows, s.extend_extend]

theorem JoinPart.exists_sequence_of_joinAll : ∀ {parts : List JoinPart} {accumulated rows : Rows}
    {s : JoinSequence}, accumulated.inOrder = some s →
    JoinPart.joinAll accumulated parts = .ok rows →
      ∃ more, JoinPart.sequenceAll parts = some more ∧ rows.inOrder = some (s.extend more)
  | [], _, _, s, hacc, h => by
    cases h
    refine ⟨[], rfl, ?_⟩
    rw [s.extend_nil, hacc]
  | ⟨op, source, constraint⟩ :: parts, _, _, s, hacc, h => by
    obtain ⟨spec, hspec, right, hright, hrest⟩ := JoinPart.joinAll_cons_iff.mp h
    obtain ⟨r, hr, hright⟩ := Source.exists_sequence_of_lower hright
    have hjoined := Rows.inOrder_joined spec hacc hright
    obtain ⟨more, hmore, hrows⟩ := JoinPart.exists_sequence_of_joinAll hjoined hrest
    refine ⟨r.behind spec ++ more, ?_, ?_⟩
    · rw [JoinPart.sequenceAll, JoinPart.spec?_of_joinSpec hspec, hr, hmore]
      rfl
    · rw [hrows, s.extend_extend]

end

/-! ### Joins associate to the left -/

/-- The last part of a join clause is the root of its tree. -/
theorem From.lower_join_concat_iff {first : Source} {parts : List JoinPart} {part : JoinPart}
    {rows : Rows} :
    (join first (parts ++ [part])).lower = .ok rows ↔
      ∃ left, (join first parts).lower = .ok left ∧
      ∃ spec, joinSpec part.op part.constraint = .ok spec ∧
      ∃ right, part.source.lower = .ok right ∧ .joined spec left right = rows := by
  have split : (join first (parts ++ [part])).lower =
      (join first parts).lower >>= fun left => JoinPart.joinAll left [part] := by
    simp only [lower, JoinPart.joinAll_append, bind_assoc]
  rw [split, bind_eq_ok_iff]
  simp only [JoinPart.joinAll_cons_iff, JoinPart.joinAll, Except.ok.injEq]

/-- Whether a source is a `FROM` clause between parentheses. -/
def Source.isNested : Source → Bool
  | .nested _ => true
  | .table _ => false
  | .subquery _ _ => false
  | .function _ _ _ => false

/-- The sources of a `FROM` clause, without those inside of others. -/
def From.sources : From → List Source
  | .tables sources => sources
  | .join first parts => first :: parts.map JoinPart.source

theorem Source.exists_scan_of_lower {source : Source} {rows : Rows}
    (flat : source.isNested = false) (h : source.lower = .ok rows) : ∃ t, rows = .scan t := by
  cases source with
  | table name =>
    cases h
    exact ⟨_, rfl⟩
  | nested clause => cases flat
  | subquery query label => cases h
  | function name args label => cases h

theorem JoinPart.leftDeep_of_joinAll {parts : List JoinPart} {accumulated rows : Rows}
    (flat : ∀ part ∈ parts, part.source.isNested = false) (hacc : accumulated.LeftDeep)
    (h : joinAll accumulated parts = .ok rows) : rows.LeftDeep := by
  induction parts generalizing accumulated with
  | nil =>
    cases h
    exact hacc
  | cons part parts ih =>
    obtain ⟨spec, -, right, hright, hrest⟩ := joinAll_cons_iff.mp h
    obtain ⟨t, rfl⟩ := Source.exists_scan_of_lower (flat part List.mem_cons_self) hright
    have flat_rest : ∀ p ∈ parts, p.source.isNested = false :=
      fun p hp => flat p (List.mem_cons_of_mem _ hp)
    exact ih flat_rest (.join spec t hacc) hrest

/-- Without parentheses every right operand is one scan. -/
theorem From.leftDeep_of_lower {clause : From} {rows : Rows}
    (flat : ∀ s ∈ clause.sources, s.isNested = false) (h : clause.lower = .ok rows) :
    rows.LeftDeep := by
  rcases clause with (_ | ⟨first, sources⟩) | ⟨first, parts⟩
  · cases h
  · obtain ⟨start, hfirst, hrest⟩ := From.lower_tables_iff.mp h
    obtain ⟨t, rfl⟩ := Source.exists_scan_of_lower (flat first List.mem_cons_self) hfirst
    -- a list is a join clause with commas
    rw [← JoinPart.joinAll_behindComma] at hrest
    refine JoinPart.leftDeep_of_joinAll ?_ (.scan t) hrest
    exact List.forall_mem_map.mpr fun s hs => flat s (List.mem_cons_of_mem _ hs)
  · obtain ⟨start, hfirst, hrest⟩ := From.lower_join_iff.mp h
    obtain ⟨t, rfl⟩ := Source.exists_scan_of_lower (flat first List.mem_cons_self) hfirst
    refine JoinPart.leftDeep_of_joinAll ?_ (.scan t) hrest
    exact fun p hp => flat p.source (List.mem_cons_of_mem _ (List.mem_map_of_mem hp))

/-- **Lowering keeps the tables and joins of a `FROM` clause in order, and associates them to the
left.**  A clause that is lowered has a sequence of tables and joins, and the in-order traversal of
its tree is that sequence, one scan for each table.  If the clause is a join clause with a last
part, the root is the join of that part: on its right stands the tree of the source of the part, on
its left that of the clause without the part.  If none of the sources is a clause between
parentheses, every right operand is a scan. -/
theorem From.lower_keeps_sequence :
    (∀ (clause : From) (rows : Rows), clause.lower = .ok rows →
      ∃ s, clause.sequence = some s ∧ rows.inOrder = some s ∧
        rows.scanCount = s.rest.length + 1) ∧
    (∀ (first : Source) (parts : List JoinPart) (last : JoinPart) (rows : Rows),
      (join first (parts ++ [last])).lower = .ok rows →
        ∃ spec left right, rows = .join spec (some left) (some right) ∧ last.spec? = some spec ∧
          last.source.lower = .ok right ∧ (join first parts).lower = .ok left) ∧
    ∀ (clause : From) (rows : Rows), clause.lower = .ok rows →
      (∀ s ∈ clause.sources, s.isNested = false) → rows.LeftDeep := by
  refine ⟨fun clause rows h => ?_, fun first parts last rows h => ?_, fun clause rows h flat => ?_⟩
  · obtain ⟨s, hs, hrows⟩ := From.exists_sequence_of_lower h
    exact ⟨s, hs, hrows, Rows.scanCount_of_inOrder hrows⟩
  · obtain ⟨left, hleft, spec, hspec, right, hright, rfl⟩ := From.lower_join_concat_iff.mp h
    exact ⟨spec, left, right, rfl, JoinPart.spec?_of_joinSpec hspec, hright, hleft⟩
  · exact From.leftDeep_of_lower flat h

namespace From

/-- `LEFT JOIN (b, c NOT INDEXED) ON x` -/
def pairOnRight : JoinPart where
  op := .join false (some .left)
  source := .nested (.tables
    [.table (.ofName "b"), .table { name := "c", hint := some .notIndexed }])
  constraint := some (.condition (.literal "x"))

/-- The condition `x` stays with the left join, although that ends up below the cross join with `d`;
and of `a, d` the right operand is a scan. -/
theorem lower_keeps_sequence_pairOnRight :
    let a : Source := .table (.ofName "a")
    let last : JoinPart := .behindComma (.table (.ofName "d"))
    (∃ rows left right, (join a ([pairOnRight] ++ [last])).lower = .ok rows ∧
      rows.inOrder = some ⟨.ofName "a",
        [({ kind := .left, filter := some (.literal "x") }, .ofName "b"),
          ({ kind := .cross }, { name := "c", hint := some .notIndexed }),
          ({ kind := .cross }, .ofName "d")]⟩ ∧
      rows = .join { kind := .cross } (some left) (some right) ∧
      (join a [pairOnRight]).lower = .ok left) ∧
    ∃ rows, (join a [last]).lower = .ok rows ∧ rows.LeftDeep := by
  intro a last
  obtain ⟨s, hs, hrows, -⟩ := lower_keeps_sequence.1 (join a ([pairOnRight] ++ [last])) _ rfl
  obtain ⟨spec, left, right, hroot, hspec, -, hleft⟩ :=
    lower_keeps_sequence.2.1 a [pairOnRight] last _ rfl
  obtain rfl := Option.some.inj hs
  obtain rfl := Option.some.inj hspec
  refine ⟨⟨_, left, right, rfl, hrows, hroot, hleft⟩, _, rfl, ?_⟩
  have flat : ∀ s ∈ (join a [last]).sources, s.isNested = false := by
    simp [From.sources, a, last, JoinPart.behindComma, Source.isNested]
  exact lower_keeps_sequence.2.2 (join a [last]) _ rfl flat

end From

end Sql

end SqlPlan
