import CypherQuery.Build.Call
import CypherQuery.Build.Path

/-! # Checked calls and staged calls

The checked builder and the staged one offer the same operations under partly different names: a
further condition is one more filter for the first and a call of its own for the second. The
functions `BuilderCall.stagedSequence` and `StagedCall.checked?` translate the calls of each builder
into calls of the other, and `StatementBuilder.Matches` relates the states that corresponding calls
lead to: it is kept by a single call (`Matches.staged`, `Matches.checked`) and so by sequences of
them. The main statement is that both build the same statements, `building_checked_as_staged`. -/

namespace CypherQuery

/-! ## Translating calls -/

namespace BuilderCall

/-- The calls of the staged builder that a call of the checked one stands for, depending on whether
the open reading clause has been `filtered`: a further filter is a further condition, `and`, and a
further filter that is missing is no call at all. -/
def staged (filtered : Bool) : BuilderCall → List StagedCall
  | .filter condition =>
      if filtered then [.and condition] else [.common (.filter condition)]
  | .filterIfPresent condition =>
      if filtered then condition.elim [] fun present => [.and present]
      else [.common (.filterIfPresent condition)]
  | c => [.common c]

/-- Whether the open reading clause has been filtered behind a call, if `filtered` says so before
it. -/
def filters (filtered : Bool) : BuilderCall → Bool
  | .matching _ _ => false
  | .filter _ | .filterIfPresent _ => true
  | .returning _ _ | .orderBy _ | .skip _ | .limit _ => filtered

/-- The calls of the staged builder that calls of the checked one stand for, each by `staged` and
the later ones as `filters` says. -/
def stagedSequence (filtered : Bool) : List BuilderCall → List StagedCall
  | [] => []
  | c :: rest => c.staged filtered ++ stagedSequence (c.filters filtered) rest

end BuilderCall

namespace StagedCall

/-- The call of the checked builder that a call of the staged one stands for: `filter` for a further
condition. The checked builder has no alternatives, so none for `or`. -/
def checked? : StagedCall → Option BuilderCall
  | .common c => some c
  | .and condition => some (.filter condition)
  | .or _ => none

/-- Whether the call, if it is `returning`, asks for at least one item, as the checked builder
demands. -/
def AsksForItems : StagedCall → Prop
  | .common (.returning _ items) => items ≠ []
  | _ => True

end StagedCall

/-! ## Corresponding states -/

/-- The checked builder that holds an open reading clause behind closed ones: its `stage` is
`reading`. -/
def StatementBuilder.ofReading (reading : OpenReading) : StatementBuilder :=
  ⟨reading.closed.map .reading, some reading.current, none⟩

/-- The checked builder that holds reading clauses and the items of the answer: its `stage` is
`projecting`. -/
def StatementBuilder.ofProjecting (stage : Projecting) : StatementBuilder :=
  ⟨stage.reading.map .reading, none, some stage.returning⟩

/-- A draft of the staged builder that holds what a checked builder holds, and whether its open
reading clause has been filtered: the relation of the simulation. -/
inductive StatementBuilder.Matches : Bool → StatementBuilder → Draft → Prop where
  /-- Before the first call. -/
  | start : Matches false .new .start
  /-- Behind a reading clause. -/
  | unfiltered (reading : OpenReading) : Matches false (ofReading reading) (.unfiltered ⟨reading⟩)
  /-- Behind a condition. -/
  | filtered (reading : OpenReading) : Matches true (ofReading reading) (.filtered ⟨reading⟩)
  /-- Behind the items of the answer. -/
  | projecting (filtered : Bool) (stage : Projecting) (reads : stage.reading ≠ []) :
      Matches filtered (ofProjecting stage) (.projecting stage)

namespace StatementBuilder

/-- Where the open reading clause is closed for another one, `OpenReading.next`, builder and draft
hold the same. -/
theorem Matches.next (reading : OpenReading) (optional : Bool) (pattern : Pattern) :
    Matches false ⟨reading.closed.map .reading ++ [.reading reading.current.close],
      some (.start optional pattern), none⟩ (.unfiltered ⟨reading.next optional pattern⟩) := by
  have same := Matches.unfiltered (reading.next optional pattern)
  rwa [ofReading, OpenReading.next, List.map_append] at same

/-- Where the open reading clause is closed for the items of an answer, `OpenReading.project`,
builder and draft hold the same. -/
theorem Matches.project (filtered : Bool) (reading : OpenReading) (distinct : Bool)
    (items : List Expression) :
    Matches filtered ⟨reading.closed.map .reading ++ [.reading reading.current.close], none,
      some (.start distinct items)⟩ (.projecting (reading.project distinct items)) := by
  have reads : (reading.project distinct items).reading ≠ [] := List.concat_ne_nil _ _
  have same := Matches.projecting filtered _ reads
  rwa [ofProjecting, OpenReading.project, OpenReading.close, List.map_append] at same

variable {filtered : Bool} {builder : StatementBuilder} {draft : Draft}

/-- Builder and draft that `Matches` relates build the same statement. -/
theorem Matches.build_eq (same : Matches filtered builder draft) {s : Statement} :
    builder.build = .ok s ↔ draft.build? = some s := by
  rcases same with _ | reading | reading | ⟨_, stage, reads⟩
  case projecting =>
    have built : (ofProjecting stage).build = .ok stage.build :=
      if_neg fun empty => reads (List.map_eq_nil_iff.mp (List.isEmpty_iff.mp empty))
    rw [built, Draft.build?, Except.ok.injEq, Option.some.injEq]
  -- Before the items of the answer, neither of them is complete.
  all_goals exact ⟨nofun, nofun⟩

/-! ## From the checked builder to the staged one -/

/-- A call that the checked builder accepts leads the staged one, by the calls that it stands for
(`BuilderCall.staged`), to the draft that holds the same. -/
theorem Matches.staged (same : Matches filtered builder draft) {c : BuilderCall}
    {next : StatementBuilder} (accepted : builder.call c = .ok next) :
    ∃ later, draft.calls? (c.staged filtered) = some later ∧
      Matches (c.filters filtered) next later := by
  rcases same with _ | reading | reading | ⟨_, stage, reads⟩
  case start =>
    -- Only a reading clause can come first.
    rcases c with ⟨optional, pattern⟩ | condition | (_ | condition) | ⟨distinct, items⟩ | items |
      count | count <;> cases accepted
    exact ⟨_, rfl, .unfiltered ⟨[], .start optional pattern⟩⟩
  case projecting =>
    rcases c with ⟨optional, pattern⟩ | condition | (_ | condition) | ⟨distinct, items⟩ | items |
      count | count <;> cases accepted
    case orderBy => exact ⟨_, rfl, .projecting filtered (stage.orderBy items) reads⟩
    case skip => exact ⟨_, rfl, .projecting filtered (stage.skip count) reads⟩
    case limit => exact ⟨_, rfl, .projecting filtered (stage.limit count) reads⟩
  case unfiltered =>
    rcases c with ⟨optional, pattern⟩ | condition | (_ | condition) |
      ⟨distinct, _ | ⟨item, items⟩⟩ | items | count | count <;> cases accepted
    case matching => exact ⟨_, rfl, .next reading optional pattern⟩
    case filter => exact ⟨_, rfl, .filtered (reading.change (·.filter condition))⟩
    case filterIfPresent.none => exact ⟨_, rfl, .filtered reading⟩
    case filterIfPresent.some => exact ⟨_, rfl, .filtered (reading.change (·.filter condition))⟩
    case returning.cons => exact ⟨_, rfl, .project false reading distinct (item :: items)⟩
  case filtered =>
    -- A filter is a further condition here, and a missing one changes neither side.
    rcases c with ⟨optional, pattern⟩ | condition | (_ | condition) |
      ⟨distinct, _ | ⟨item, items⟩⟩ | items | count | count <;> cases accepted
    case matching => exact ⟨_, rfl, .next reading optional pattern⟩
    case filter => exact ⟨_, rfl, .filtered (reading.change (·.filter condition))⟩
    case filterIfPresent.none => exact ⟨_, rfl, .filtered reading⟩
    case filterIfPresent.some => exact ⟨_, rfl, .filtered (reading.change (·.filter condition))⟩
    case returning.cons => exact ⟨_, rfl, .project true reading distinct (item :: items)⟩

/-- Calls that the checked builder accepts lead the staged one, by `BuilderCall.stagedSequence`, to
the draft that holds the same: `Matches.staged` call by call. -/
theorem Matches.stagedSequence (same : Matches filtered builder draft)
    {sequence : List BuilderCall} {last : StatementBuilder}
    (accepted : builder.calls sequence = .ok last) :
    ∃ later behind, draft.calls? (BuilderCall.stagedSequence filtered sequence) = some later ∧
      Matches behind last later := by
  induction sequence generalizing filtered builder draft with
  | nil =>
      cases accepted
      exact ⟨draft, filtered, rfl, same⟩
  | cons c rest ih =>
      obtain ⟨next, first, others⟩ := calls_cons_eq_ok.mp accepted
      obtain ⟨middle, offered, held⟩ := same.staged first
      obtain ⟨later, behind, moreOffered, kept⟩ := ih held others
      refine ⟨later, behind, ?_, kept⟩
      rw [Draft.calls?, BuilderCall.stagedSequence, List.foldlM_append]
      exact (congrArg (· >>= _) offered).trans moreOffered

/-! ## From the staged builder to the checked one -/

/-- A call that the staged builder offers and that is no alternative, as `checked?` tells, is
accepted by the checked one, and leads it to the builder that holds the same. -/
theorem Matches.checked (same : Matches filtered builder draft) {call : StagedCall} {later : Draft}
    (offered : draft.call? call = some later) (asks : call.AsksForItems) {c : BuilderCall}
    (known : call.checked? = some c) :
    ∃ next behind, builder.call c = .ok next ∧ Matches behind next later := by
  rcases same with _ | reading | reading | ⟨_, stage, reads⟩
  case start =>
    rcases call with (⟨optional, pattern⟩ | _ | _ | _ | _ | _ | _) | _ | _ <;> cases offered
    cases known
    exact ⟨_, _, rfl, .unfiltered ⟨[], .start optional pattern⟩⟩
  case projecting =>
    rcases call with (_ | _ | _ | _ | items | count | count) | _ | _ <;> cases offered <;>
      cases known
    case common.orderBy => exact ⟨_, _, rfl, .projecting filtered (stage.orderBy items) reads⟩
    case common.skip => exact ⟨_, _, rfl, .projecting filtered (stage.skip count) reads⟩
    case common.limit => exact ⟨_, _, rfl, .projecting filtered (stage.limit count) reads⟩
  case unfiltered =>
    rcases call with (⟨optional, pattern⟩ | condition | (_ | condition) |
      ⟨distinct, _ | ⟨item, items⟩⟩ | _ | _ | _) | _ | _ <;> cases offered <;> cases known
    case common.matching => exact ⟨_, _, rfl, .next reading optional pattern⟩
    case common.filter => exact ⟨_, _, rfl, .filtered (reading.change (·.filter condition))⟩
    case common.filterIfPresent.none => exact ⟨_, _, rfl, .filtered reading⟩
    case common.filterIfPresent.some =>
      exact ⟨_, _, rfl, .filtered (reading.change (·.filter condition))⟩
    case common.returning.nil => exact absurd rfl asks
    case common.returning.cons =>
      exact ⟨_, _, rfl, .project false reading distinct (item :: items)⟩
  case filtered =>
    rcases call with (⟨optional, pattern⟩ | _ | _ | ⟨distinct, _ | ⟨item, items⟩⟩ | _ | _ | _) |
      condition | _ <;> cases offered <;> cases known
    case common.matching => exact ⟨_, _, rfl, .next reading optional pattern⟩
    case and => exact ⟨_, _, rfl, .filtered (reading.change (·.filter condition))⟩
    case common.returning.nil => exact absurd rfl asks
    case common.returning.cons =>
      exact ⟨_, _, rfl, .project true reading distinct (item :: items)⟩

/-- Calls that the staged builder offers and that are no alternatives are accepted by the checked
one, and lead it to the builder that holds the same: `Matches.checked` call by call. -/
theorem Matches.checkedSequence (same : Matches filtered builder draft)
    {sequence : List StagedCall} {last : Draft} (offered : draft.calls? sequence = some last)
    (plain : ∀ call ∈ sequence, ∀ condition, call ≠ .or condition)
    (asks : ∀ call ∈ sequence, call.AsksForItems) :
    ∃ later behind, builder.calls (sequence.filterMap StagedCall.checked?) = .ok later ∧
      Matches behind later last := by
  induction sequence generalizing filtered builder draft with
  | nil =>
      cases offered
      exact ⟨builder, filtered, rfl, same⟩
  | cons call rest ih =>
      rw [List.forall_mem_cons] at plain asks
      rw [Draft.calls?, List.foldlM_cons] at offered
      obtain ⟨middle, first, others⟩ := Option.bind_eq_some_iff.mp offered
      -- Only an alternative would have no counterpart.
      obtain ⟨c, known⟩ : ∃ c, call.checked? = some c := by
        rcases call with c | condition | condition
        · exact ⟨c, rfl⟩
        · exact ⟨.filter condition, rfl⟩
        · exact absurd rfl (plain.1 condition)
      obtain ⟨next, between, accepted, held⟩ := same.checked first asks.1 known
      obtain ⟨later, behind, reached, kept⟩ := ih held others plain.2 asks.2
      refine ⟨later, behind, ?_, kept⟩
      rw [List.filterMap_cons_some known]
      exact calls_cons_eq_ok.mpr ⟨next, accepted, reached⟩

/-! ## The same statements -/

/-- Checked and staged builder build the same statements. Whatever sequence of calls the checked
builder accepts and builds a statement from, the staged one offers the calls that it stands for,
`BuilderCall.stagedSequence`, and builds that statement from them. Whatever sequence of calls the
staged builder offers, without the alternatives of `or` and with items in every answer, the checked
one accepts, translated by `StagedCall.checked?`, and builds the same statement from. -/
theorem building_checked_as_staged :
    (∀ (sequence : List BuilderCall) (s : Statement),
      (new.calls sequence >>= build) = .ok s →
        Statement.ofCalls? (BuilderCall.stagedSequence false sequence) = some s) ∧
    ∀ (sequence : List StagedCall) (draft : Draft),
      Draft.start.calls? sequence = some draft →
      (∀ call ∈ sequence, ∀ condition, call ≠ .or condition) →
      (∀ call ∈ sequence, call.AsksForItems) →
        ∃ builder, new.calls (sequence.filterMap StagedCall.checked?) = .ok builder ∧
          ∀ s, draft.build? = some s → builder.build = .ok s := by
  constructor
  · intro sequence s built
    rcases reached : new.calls sequence with rejection | builder
    · rw [reached] at built
      cases built
    · rw [reached] at built
      obtain ⟨draft, behind, offered, held⟩ := Matches.start.stagedSequence reached
      rw [Statement.ofCalls?, offered]
      exact held.build_eq.mp built
  · intro sequence draft offered plain asks
    obtain ⟨builder, behind, reached, held⟩ :=
      Matches.start.checkedSequence offered plain asks
    exact ⟨builder, reached, fun s built => held.build_eq.mpr built⟩

/-- Calls of the checked builder that filter two reading clauses in all ways, with and without a
condition. -/
def filteringCalls : List BuilderCall :=
  [.matching true (.ofNode .any), .filterIfPresent none, .filter (.variable "a"),
    .filterIfPresent none, .filterIfPresent (some (.variable "b")),
    .matching false (.ofNode (.ofLabel "A")), .filter (.variable "c"), .filter (.variable "d"),
    .returning true [.asterisk], .skip 1, .orderBy [], .skip 3]

/-- The calls of the staged builder that `filteringCalls` stand for. -/
def conditionCalls : List StagedCall :=
  [.common (.matching true (.ofNode .any)), .common (.filterIfPresent none), .and (.variable "a"),
    .and (.variable "b"), .common (.matching false (.ofNode (.ofLabel "A"))),
    .common (.filter (.variable "c")), .and (.variable "d"), .common (.returning true [.asterisk]),
    .common (.skip 1), .common (.orderBy []), .common (.skip 3)]

/-- Both builders build the same statement, the one from `filteringCalls` and the other from
`conditionCalls`. -/
theorem building_filteringCalls_as_staged :
    BuilderCall.stagedSequence false filteringCalls = conditionCalls ∧
    ∃ s builder, (new.calls filteringCalls >>= build) = .ok s ∧
      Statement.ofCalls? conditionCalls = some s ∧
      new.calls (conditionCalls.filterMap StagedCall.checked?) = .ok builder ∧
      builder.build = .ok s := by
  obtain ⟨s, built⟩ : ∃ s, (new.calls filteringCalls >>= build) = .ok s := ⟨_, rfl⟩
  have made : Statement.ofCalls? conditionCalls = some s :=
    building_checked_as_staged.1 filteringCalls s built
  obtain ⟨draft, offered, complete⟩ := Option.bind_eq_some_iff.mp made
  have plain : ∀ call ∈ conditionCalls, ∀ condition, call ≠ .or condition := by
    simp [conditionCalls]
  have asks : ∀ call ∈ conditionCalls, call.AsksForItems := by
    simp [conditionCalls, StagedCall.AsksForItems]
  obtain ⟨builder, reached, same⟩ :=
    building_checked_as_staged.2 conditionCalls draft offered plain asks
  exact ⟨rfl, s, builder, built, made, reached, same s complete⟩

end StatementBuilder

end CypherQuery
