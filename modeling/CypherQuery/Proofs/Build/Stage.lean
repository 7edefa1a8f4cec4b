import CypherQuery.Build.Call
import CypherQuery.Build.Path
import CypherQuery.Proofs.Render.Failure

/-! # Stages of the checked builder

The stage of a builder is read off its three parts. This module says which parts belong to which
stage (`BuilderStage.Describes`), that every accepted call leads from one such builder to another
(`Sound.call`), and which calls each stage accepts (`BuilderStage.Accepts`). The main statement,
`accepting_calls_of_stage`, is that a builder is in exactly the stage that it names, accepts exactly
the calls of that stage, and only builds statements whose clauses are in order. -/

namespace CypherQuery

/-- What a builder of a stage is made of, by its parts and not by `StatementBuilder.stage`. -/
def BuilderStage.Describes : BuilderStage → StatementBuilder → Prop
  | .empty, builder =>
      builder.completed = [] ∧ builder.current = none ∧ builder.projection = none
  | .reading, builder => builder.current ≠ none ∧ builder.projection = none
  | .projecting, builder => builder.current = none ∧ builder.completed ≠ [] ∧
      (∀ clause ∈ builder.completed, clause.reading?.isSome = true) ∧
      ∃ clause, builder.projection = some clause ∧ clause.items ≠ []

/-- The calls that a stage accepts, by the kind of call alone; items must be given for
`returning`. -/
def BuilderStage.Accepts (stage : BuilderStage) : BuilderCall → Prop
  | .matching _ _ => stage ≠ .projecting
  | .filter _ | .filterIfPresent _ => stage = .reading
  | .returning _ items => stage = .reading ∧ items ≠ []
  | .orderBy _ | .skip _ | .limit _ => stage = .projecting

/-- The operation that a call asks for, as a rejection names it. -/
def BuilderCall.operation : BuilderCall → BuilderOperation
  | .matching _ _ => .matching
  | .filter _ | .filterIfPresent _ => .filter
  | .returning _ _ => .returning
  | .orderBy _ => .orderBy
  | .skip _ => .skip
  | .limit _ => .limit

namespace StatementBuilder

/-! ## Sound builders -/

/-- A builder that is made of the parts of one of the stages. Only reading clauses are closed. This
is the invariant of all accepted calls, kept by each (`Sound.call`). -/
inductive Sound : StatementBuilder → Prop where
  /-- Nothing has been added. -/
  | empty : Sound new
  /-- A reading clause is open. -/
  | reading (closed : List Match) (clause : OpenMatch) :
      Sound ⟨closed.map .reading, some clause, none⟩
  /-- Something is read, and the items of the answer are given. -/
  | projecting {closed : List Match} {clause : OpenReturn} (reads : closed ≠ [])
      (answers : clause.items ≠ []) : Sound ⟨closed.map .reading, none, some clause⟩

/-- A builder that closes a reading clause for another one is `Sound`. -/
theorem Sound.next (closed : List Match) (last : Match) (clause : OpenMatch) :
    Sound ⟨closed.map .reading ++ [.reading last], some clause, none⟩ := by
  have sound := Sound.reading (closed ++ [last]) clause
  rwa [List.map_append] at sound

/-- A builder that closes a reading clause for the items of the answer is `Sound`. -/
theorem Sound.project (closed : List Match) (last : Match) {clause : OpenReturn}
    (answers : clause.items ≠ []) :
    Sound ⟨closed.map .reading ++ [.reading last], none, some clause⟩ := by
  have reads : closed ++ [last] ≠ [] := by simp
  have sound := Sound.projecting reads answers
  rwa [List.map_append] at sound

/-- A `Sound` builder is described by the stage that it names, and by no other. -/
theorem Sound.describes_iff {builder : StatementBuilder} (sound : builder.Sound)
    (stage : BuilderStage) : stage.Describes builder ↔ builder.stage = stage := by
  rcases sound with _ | ⟨closed, clause⟩ | @⟨closed, clause, reads, answers⟩
  · rcases stage <;> simp [BuilderStage.Describes, StatementBuilder.stage, new]
  · rcases stage <;> simp [BuilderStage.Describes, StatementBuilder.stage]
  · rcases stage <;>
      simp [BuilderStage.Describes, StatementBuilder.stage, Clause.reading?, reads, answers]

/-- What a `Sound` builder makes of a call: another sound builder if its stage `Accepts` the call,
and otherwise a rejection with the operation and the stage. -/
theorem Sound.call_cases {builder : StatementBuilder} (sound : builder.Sound) (c : BuilderCall) :
    (builder.stage.Accepts c ∧ ∃ next, builder.call c = .ok next ∧ next.Sound) ∨
      (¬builder.stage.Accepts c ∧ builder.call c = .error ⟨c.operation, builder.stage⟩) := by
  rcases sound with _ | ⟨closed, clause⟩ | @⟨closed, clause, reads, answers⟩
  -- An empty builder only takes a reading clause.
  · rcases c with ⟨optional, pattern⟩ | condition | (_ | condition) | ⟨distinct, items⟩ | items |
      count | count
    case matching => exact .inl ⟨nofun, _, rfl, .reading [] _⟩
    case returning => exact .inr ⟨fun accepted => absurd accepted.1 nofun, rfl⟩
    all_goals exact .inr ⟨nofun, rfl⟩
  -- Behind a reading clause, only the items of an answer have to be looked at.
  · rcases c with ⟨optional, pattern⟩ | condition | (_ | condition) | ⟨distinct, items⟩ | items |
      count | count
    case matching => exact .inl ⟨nofun, _, rfl, .next closed clause.close _⟩
    case returning =>
      rcases items with _ | ⟨item, items⟩
      · exact .inr ⟨fun accepted => accepted.2 rfl, rfl⟩
      · have answers : item :: items ≠ [] := List.cons_ne_nil item items
        exact .inl ⟨⟨rfl, answers⟩, _, rfl, .project closed clause.close answers⟩
    case orderBy => exact .inr ⟨nofun, rfl⟩
    case skip => exact .inr ⟨nofun, rfl⟩
    case limit => exact .inr ⟨nofun, rfl⟩
    all_goals exact .inl ⟨rfl, _, rfl, .reading _ _⟩
  -- Behind the items of the answer, a call only changes the order and the window of rows.
  · rcases c with ⟨optional, pattern⟩ | condition | (_ | condition) | ⟨distinct, items⟩ | items |
      count | count
    case matching => exact .inr ⟨fun accepted => accepted rfl, rfl⟩
    case returning => exact .inr ⟨fun accepted => absurd accepted.1 nofun, rfl⟩
    case orderBy => exact .inl ⟨rfl, _, rfl, .projecting reads answers⟩
    case skip => exact .inl ⟨rfl, _, rfl, .projecting reads answers⟩
    case limit => exact .inl ⟨rfl, _, rfl, .projecting reads answers⟩
    all_goals exact .inr ⟨nofun, rfl⟩

/-- An accepted call keeps a builder `Sound`. -/
theorem Sound.call {builder next : StatementBuilder} (sound : builder.Sound) {c : BuilderCall}
    (accepted : builder.call c = .ok next) : next.Sound := by
  rcases sound.call_cases c with ⟨-, other, reached, kept⟩ | ⟨-, rejected⟩
  · rw [accepted] at reached
    cases reached
    exact kept
  · rw [accepted] at rejected
    cases rejected

/-- Accepted calls, however many, keep a builder `Sound`, by induction on the sequence. -/
theorem Sound.calls {builder last : StatementBuilder} (sound : builder.Sound)
    {sequence : List BuilderCall} (accepted : builder.calls sequence = .ok last) : last.Sound := by
  induction sequence generalizing builder with
  | nil =>
      cases accepted
      exact sound
  | cons c rest ih =>
      obtain ⟨next, first, others⟩ := calls_cons_eq_ok.mp accepted
      exact ih (sound.call first) others

/-- A `Sound` builder accepts exactly the calls that its stage `Accepts`. -/
theorem Sound.accepted_iff {builder : StatementBuilder} (sound : builder.Sound) (c : BuilderCall) :
    (∃ next, builder.call c = .ok next) ↔ builder.stage.Accepts c := by
  rcases sound.call_cases c with ⟨accepts, next, accepted, -⟩ | ⟨refuses, rejected⟩
  · exact ⟨fun _ => accepts, fun _ => ⟨next, accepted⟩⟩
  · simp [refuses, rejected]

/-- A `Sound` builder rejects a call with its `operation` and the stage. -/
theorem Sound.eq_of_rejected {builder : StatementBuilder} (sound : builder.Sound) (c : BuilderCall)
    (rejection : InvalidState) (rejected : builder.call c = .error rejection) :
    rejection = ⟨c.operation, builder.stage⟩ := by
  rcases sound.call_cases c with ⟨-, next, accepted, -⟩ | ⟨-, same⟩
  · rw [accepted] at rejected
    cases rejected
  · rw [same] at rejected
    cases rejected
    rfl

/-- What a `Sound` builder builds: the statement of its closed clauses if it projects, and otherwise
a rejection with its stage. -/
theorem Sound.build_cases {builder : StatementBuilder} (sound : builder.Sound) :
    (∃ reading clause, builder = ⟨reading.map .reading, none, some clause⟩ ∧ reading ≠ [] ∧
        clause.items ≠ [] ∧ builder.build = .ok (.ofClauses reading clause.close)) ∨
      (builder.stage ≠ .projecting ∧ builder.build = .error ⟨.build, builder.stage⟩) := by
  rcases sound with _ | ⟨closed, clause⟩ | @⟨closed, clause, reads, answers⟩
  · exact .inr ⟨nofun, rfl⟩
  · exact .inr ⟨nofun, rfl⟩
  · refine .inl ⟨closed, clause, rfl, reads, answers, ?_⟩
    exact if_neg fun empty => reads (List.map_eq_nil_iff.mp (List.isEmpty_iff.mp empty))

end StatementBuilder

/-- A finished clause, `OpenReturn.close`, never has an order without criteria. -/
theorem OpenReturn.order_close_ne (clause : OpenReturn) : clause.close.order ≠ some [] := by
  rcases same : clause.order with _ | ⟨item, rest⟩ <;> simp [close, same]

namespace StatementBuilder

/-! ## Built statements -/

/-- A `Sound` builder builds a statement exactly if its stage is `projecting`. -/
theorem Sound.built_iff {builder : StatementBuilder} (sound : builder.Sound) :
    (∃ s, builder.build = .ok s) ↔ builder.stage = .projecting := by
  rcases sound.build_cases with ⟨reading, clause, rfl, -, -, built⟩ | ⟨other, rejected⟩
  · exact ⟨fun _ => rfl, fun _ => ⟨_, built⟩⟩
  · simp [other, rejected]

/-- A `Sound` builder that builds nothing is rejected with its own stage:
`⟨.build, builder.stage⟩`. -/
theorem Sound.eq_of_not_built {builder : StatementBuilder} (sound : builder.Sound)
    (rejection : InvalidState) (rejected : builder.build = .error rejection) :
    rejection = ⟨.build, builder.stage⟩ := by
  rcases sound.build_cases with ⟨reading, clause, -, -, -, built⟩ | ⟨-, same⟩
  · rw [built] at rejected
    cases rejected
  · rw [same] at rejected
    cases rejected
    rfl

/-- What a `Sound` builder builds are reading clauses, at least one, and a projecting clause with
items whose order, if there is one, has criteria. -/
theorem Sound.exists_of_built {builder : StatementBuilder} (sound : builder.Sound) {s : Statement}
    (built : builder.build = .ok s) :
    ∃ (reading : List Match) (returning : Return), s = .ofClauses reading returning ∧
      reading ≠ [] ∧ returning.projection.items ≠ [] ∧ returning.order ≠ some [] := by
  rcases sound.build_cases with ⟨reading, clause, -, reads, answers, same⟩ | ⟨-, rejected⟩
  · rw [built] at same
    cases same
    exact ⟨reading, clause.close, rfl, reads, answers, clause.order_close_ne⟩
  · rw [built] at rejected
    cases rejected

/-- Which stage a builder is in, which calls it takes and what it builds, after any sequence of
accepted calls. The stage that a builder names describes it (`BuilderStage.Describes`), and no other
stage does. A call is accepted exactly if the stage `Accepts` it, and a rejection carries the
operation and the stage. What is built has one or more reading clauses and a projecting clause
behind them, and rendering it never fails by a missing or misplaced clause or an empty list. -/
theorem accepting_calls_of_stage (sequence : List BuilderCall) (builder : StatementBuilder)
    (reached : new.calls sequence = .ok builder) :
    (∀ stage : BuilderStage, stage.Describes builder ↔ builder.stage = stage) ∧
    (∀ c, (∃ next, builder.call c = .ok next) ↔ builder.stage.Accepts c) ∧
    (∀ c rejection, builder.call c = .error rejection →
      rejection = ⟨c.operation, builder.stage⟩) ∧
    ((∃ s, builder.build = .ok s) ↔ builder.stage = .projecting) ∧
    (∀ rejection, builder.build = .error rejection → rejection = ⟨.build, builder.stage⟩) ∧
    ∀ s, builder.build = .ok s →
      (∃ (reading : List Match) (returning : Return), reading ≠ [] ∧
        s.clauses = reading.map .reading ++ [.returning returning]) ∧
      ∀ config, ∀ failure ∈ [RenderError.missingReadingClause, .misplacedReturn,
        .emptyProjection, .emptyOrder], Renderer.render ⟨config⟩ s ≠ .error failure := by
  have sound : builder.Sound := Sound.calls .empty reached
  refine ⟨sound.describes_iff, sound.accepted_iff, sound.eq_of_rejected, sound.built_iff,
    sound.eq_of_not_built, fun s built => ?_⟩
  obtain ⟨reading, returning, rfl, reads, answers, ordered⟩ := sound.exists_of_built built
  refine ⟨⟨reading, returning, reads, rfl⟩, fun config failure member failed => ?_⟩
  -- What is left to fail is content, and none of the four errors is about content.
  have content := Renderer.render_failsByContent config reads answers ordered failure failed
  simp only [List.mem_cons, List.not_mem_nil, or_false] at member
  rcases member with rfl | rfl | rfl | rfl <;> cases content

/-- Calls of a builder that opens two clauses and filters the second one in several ways. -/
def repeatedCalls : List BuilderCall :=
  [.matching true ⟨[]⟩, .matching false (.ofNode (.ofLabel "A")), .filterIfPresent none,
    .filter (.variable "a"), .filterIfPresent (some (.variable "b")), .returning true [.asterisk],
    .limit (-1), .orderBy [], .limit 5]

/-- The builder behind `repeatedCalls`. -/
def repeatedBuilder : StatementBuilder where
  completed :=
    [.reading ⟨true, ⟨[]⟩, none⟩,
      .reading ⟨false, .ofNode (.ofLabel "A"),
        some (.logical .and (.variable "a") (.variable "b"))⟩]
  current := none
  projection := some ⟨true, [.asterisk], [], none, some 5⟩

/-- The builder behind `repeatedCalls` takes no further clause, and what it builds is in order
although its first pattern has no elements. -/
theorem accepting_calls_of_repeatedBuilder :
    new.calls repeatedCalls = .ok repeatedBuilder ∧
    (¬∃ next, repeatedBuilder.call (.matching false ⟨[]⟩) = .ok next) ∧
    ∃ s, repeatedBuilder.build = .ok s ∧
      Renderer.render ⟨.plain⟩ s = .error .emptyPattern ∧
      Renderer.render ⟨.plain⟩ s ≠ .error .emptyOrder := by
  have reached : new.calls repeatedCalls = .ok repeatedBuilder := rfl
  obtain ⟨-, accepts, -, built, -, made⟩ :=
    accepting_calls_of_stage repeatedCalls repeatedBuilder reached
  obtain ⟨s, same⟩ := built.mpr rfl
  refine ⟨reached, fun accepted => (accepts _).mp accepted rfl, s, same, ?_,
    (made s same).2 .plain .emptyOrder (by decide)⟩
  cases same
  rfl

end StatementBuilder

end CypherQuery
