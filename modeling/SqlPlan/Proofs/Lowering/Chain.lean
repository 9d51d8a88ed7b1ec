import SqlPlan.Proofs.Lowering.Congruence

/-!
# Chains of sources

A `FROM` clause is a chain of sources.  There are two forms of it, each with a loop of its own: a
list, whose sources are joined crosswise, and a join clause, of which each part has an operator.
Both loops are runs over a list from an accumulated tree, so a run over two lists one after the
other is the second run from where the first one ended (`Source.crossAll_append`,
`JoinPart.joinAll_append`).

Hence parentheses around the head of a chain change nothing, and neither do parentheses around a
single source, wherever it stands; and a list is the same as a join clause that has only commas.
All this holds of the refusals as well as of the trees (`From.lower_chains_agree`).  Parentheses
around several sources further on are something else: they make the right operand of a join.
-/

namespace SqlPlan.Sql

open Plan (Rows)

/-! ### Runs over two lists -/

theorem Source.crossAll_append (accumulated : Rows) (xs ys : List Source) :
    crossAll accumulated (xs ++ ys) =
      crossAll accumulated xs >>= fun rows => crossAll rows ys := by
  induction xs generalizing accumulated with
  | nil => rfl
  | cons x xs ih => simp only [List.cons_append, crossAll, ih, bind_assoc]

theorem JoinPart.joinAll_append (accumulated : Rows) (ps qs : List JoinPart) :
    joinAll accumulated (ps ++ qs) = joinAll accumulated ps >>= fun rows => joinAll rows qs := by
  induction ps generalizing accumulated with
  | nil => rfl
  | cons p ps ih =>
    obtain ⟨op, source, constraint⟩ := p
    simp only [List.cons_append, joinAll, ih, bind_assoc]

/-! ### Commas -/

/-- A source behind a comma. -/
def JoinPart.behindComma (source : Source) : JoinPart := { op := .comma, source }

/-- A comma without a condition is a cross join, and is never refused. -/
theorem joinSpec_comma : joinSpec .comma none = .ok { kind := .cross } := rfl

theorem JoinPart.joinAll_behindComma (accumulated : Rows) (sources : List Source) :
    joinAll accumulated (sources.map behindComma) = Source.crossAll accumulated sources := by
  induction sources generalizing accumulated with
  | nil => rfl
  | cons s sources ih =>
    rw [List.map_cons, behindComma, joinAll, joinSpec_comma, Source.crossAll]
    -- the joining step of a comma is a value already, and drops out of the chain
    show s.lower >>= _ = s.lower >>= _
    simp only [ih]

/-! ### Parentheses -/

theorem Source.lower_nested_tables_single (source : Source) :
    (Source.nested (.tables [source])).lower = source.lower := by
  rw [lower, From.lower]
  exact bind_pure source.lower

theorem Source.lower_nested_join_single (source : Source) :
    (Source.nested (.join source [])).lower = source.lower := by
  rw [lower, From.lower]
  exact bind_pure source.lower

/-- A tree of category `k'` with one tree of category `k` left out, at any depth. -/
inductive Place (k : Category) : (k' : Category) → (k.Tree → k'.Tree) → Prop where
  | hole : Place k k fun x => x
  | frame {k' k'' f C} : Frame k' k'' f → Place k k' C → Place k k'' fun x => f (C x)

theorem Place.agree {k k' : Category} {C : k.Tree → k'.Tree} (hC : Place k k' C) {x x' : k.Tree}
    (h : k.Agree x x') : k'.Agree (C x) (C x') := by
  induction hC with
  | hole => exact h
  | frame hf _ ih => exact hf.agree ih

namespace From

/-- **The two forms of a chain agree, and parentheses around its head are redundant.**  A list of
sources is lowered like the join clause that has a comma in front of each further source.  A join
clause, or a list that is not empty, may stand between parentheses at the head of another one.  And
where a `FROM` clause between parentheses has a single source, at any place in a `FROM` clause, that
source may stand there itself.  In each case the result is the same, be it a tree or a refusal. -/
theorem lower_chains_agree :
    (∀ (t : Source) (ts : List Source),
      (tables (t :: ts)).lower = (join t (ts.map JoinPart.behindComma)).lower) ∧
    (∀ (t : Source) (ps qs : List JoinPart),
      (join (.nested (.join t ps)) qs).lower = (join t (ps ++ qs)).lower) ∧
    (∀ xs ys : List Source, xs ≠ [] →
      (tables (.nested (.tables xs) :: ys)).lower = (tables (xs ++ ys)).lower) ∧
    ∀ C : Source → From, Place .source .fromClause C → ∀ t : Source,
      (C (.nested (.tables [t]))).lower = (C t).lower ∧
        (C (.nested (.join t []))).lower = (C t).lower := by
  refine ⟨fun t ts => ?_, fun t ps qs => ?_, fun xs ys nonempty => ?_, fun C hC t => ⟨?_, ?_⟩⟩
  · simp only [lower, JoinPart.joinAll_behindComma]
  · simp only [lower, Source.lower, JoinPart.joinAll_append, bind_assoc]
  · obtain ⟨x, xs, rfl⟩ := List.exists_cons_of_ne_nil nonempty
    simp only [List.cons_append, lower, Source.lower, Source.crossAll_append, bind_assoc]
  · exact hC.agree t.lower_nested_tables_single
  · exact hC.agree t.lower_nested_join_single

/-- `(a LEFT JOIN s), c` -/
def leftJoinThen (s : Source) : From :=
  tables [.nested (.join (.table (.ofName "a")) [⟨.join false (some .left), s, none⟩]),
    .table (.ofName "c")]

theorem place_leftJoinThen : Place .source .fromClause leftJoinThen := by
  have inJoin : Place .source .fromClause _ :=
    .frame (.fromParts (.table (.ofName "a"))) <| .frame (.item [] []) <|
      .frame (.joinSource ⟨.join false (some .left), .table (.ofName "b"), none⟩) .hole
  have inList : Place .source (.list .source) _ :=
    .frame (.item [] [Source.table (.ofName "c")]) (.frame .sourceNested inJoin)
  have inClause : Place .source .fromClause _ := .frame .fromTables inList
  exact inClause

/-- Parentheses around the right operand of the join may go, be it the table `b` or the call `f()`,
for which the clause is refused; and so may those around the list `a, b` in front of `c`. -/
theorem lower_chains_agree_leftJoinThen :
    let a : Source := .table (.ofName "a")
    let b : Source := .table (.ofName "b")
    let c : Source := .table (.ofName "c")
    let f : Source := .function { name := "f" } [] none
    let scan := fun name => Rows.scan (.simple { name })
    let joined := fun kind =>
      Rows.joined { kind := .cross } (.joined { kind } (scan "a") (scan "b")) (scan "c")
    (Place .source .fromClause leftJoinThen ∧
      (leftJoinThen (.nested (.tables [b]))).lower = (leftJoinThen b).lower ∧
      (leftJoinThen b).lower = .ok (joined .left) ∧
      (leftJoinThen (.nested (.join f []))).lower = (leftJoinThen f).lower ∧
      (leftJoinThen f).lower = .error (.unsupported "table function")) ∧
    ([a, b] ≠ [] ∧
      (tables (.nested (.tables [a, b]) :: [c])).lower = (tables [a, b, c]).lower ∧
      (tables [a, b, c]).lower = .ok (joined .cross)) := by
  intro a b c f scan joined
  refine ⟨⟨place_leftJoinThen, ?_, rfl, ?_, rfl⟩, List.cons_ne_nil a [b], ?_, rfl⟩
  · exact (lower_chains_agree.2.2.2 leftJoinThen place_leftJoinThen b).1
  · exact (lower_chains_agree.2.2.2 leftJoinThen place_leftJoinThen f).2
  · exact lower_chains_agree.2.2.1 [a, b] [c] (List.cons_ne_nil a [b])

end From

end SqlPlan.Sql
