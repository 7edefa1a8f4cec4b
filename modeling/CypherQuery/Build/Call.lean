import CypherQuery.Build.Checked
import CypherQuery.Build.Stages

/-! # Calls of the builders

The operations of the two builders as data, and what a sequence of calls builds. A call of the
staged builder that the stage does not offer has no outcome in `Draft.call?`; the checked builder
rejects it in `StatementBuilder.call`. -/

namespace CypherQuery

/-- A call that both builders know. -/
inductive BuilderCall where
  /-- A reading clause. -/
  | matching (optional : Bool) (pattern : Pattern)
  /-- A condition. -/
  | filter (condition : Expression)
  /-- A condition if there is one. -/
  | filterIfPresent (condition : Option Expression)
  /-- The items of the answer. -/
  | returning (distinct : Bool) (items : List Expression)
  /-- Criteria of the order. -/
  | orderBy (items : List SortItem)
  /-- A number of rows left out. -/
  | skip (count : Int64)
  /-- A greatest number of rows. -/
  | limit (count : Int64)
  deriving Repr

namespace StatementBuilder

/-- The builder after a `BuilderCall`, by the operation of that name. -/
def call (builder : StatementBuilder) : BuilderCall → Except InvalidState StatementBuilder
  | .matching optional pattern => builder.matching optional pattern
  | .filter condition => builder.filter condition
  | .filterIfPresent condition => builder.filterIfPresent condition
  | .returning distinct items => builder.returning distinct items
  | .orderBy items => builder.orderBy items
  | .skip count => builder.skip count
  | .limit count => builder.limit count

/-- The builder after a sequence of calls, `foldlM` of `call`: none is rejected, or the first
rejection ends it. -/
def calls (builder : StatementBuilder) (sequence : List BuilderCall) :
    Except InvalidState StatementBuilder :=
  sequence.foldlM call builder

/-- The `calls` of a sequence are accepted if the first one is and the others are behind it. -/
theorem calls_cons_eq_ok {builder last : StatementBuilder} {c : BuilderCall}
    {rest : List BuilderCall} :
    builder.calls (c :: rest) = .ok last ↔
      ∃ next, builder.call c = .ok next ∧ next.calls rest = .ok last := by
  rw [calls, List.foldlM_cons]
  rcases builder.call c with rejection | next
  · exact ⟨nofun, nofun⟩
  · constructor
    · intro accepted
      exact ⟨next, rfl, accepted⟩
    · rintro ⟨_, ⟨⟩, accepted⟩
      exact accepted

end StatementBuilder

/-- A call of the staged builder. -/
inductive StagedCall where
  /-- A call that both builders know. -/
  | common (call : BuilderCall)
  /-- A further condition that must hold. -/
  | and (condition : Expression)
  /-- A condition that may hold instead. -/
  | or (condition : Expression)
  deriving Repr

/-- The staged builder in any of its stages. -/
inductive Draft where
  /-- Before the first call. -/
  | start
  /-- Behind a reading clause that has no condition yet. -/
  | unfiltered (stage : Unfiltered)
  /-- Behind the condition of a reading clause. -/
  | filtered (stage : Filtered)
  /-- Behind the items of the answer. -/
  | projecting (stage : Projecting)
  deriving Repr

namespace Draft

/-- The draft after a call, if its stage offers the call; the stages are those of `Draft`. -/
def call? : Draft → StagedCall → Option Draft
  | .start, .common (.matching optional pattern) =>
      some (.unfiltered (CypherQuery.matching optional pattern))
  | .unfiltered stage, .common (.matching optional pattern) =>
      some (.unfiltered (stage.matching optional pattern))
  | .unfiltered stage, .common (.filter condition) => some (.filtered (stage.filter condition))
  | .unfiltered stage, .common (.filterIfPresent condition) =>
      some (.filtered (stage.filterIfPresent condition))
  | .unfiltered stage, .common (.returning distinct items) =>
      some (.projecting (stage.returning distinct items))
  | .filtered stage, .and condition => some (.filtered (stage.and condition))
  | .filtered stage, .or condition => some (.filtered (stage.or condition))
  | .filtered stage, .common (.matching optional pattern) =>
      some (.unfiltered (stage.matching optional pattern))
  | .filtered stage, .common (.returning distinct items) =>
      some (.projecting (stage.returning distinct items))
  | .projecting stage, .common (.orderBy items) => some (.projecting (stage.orderBy items))
  | .projecting stage, .common (.skip count) => some (.projecting (stage.skip count))
  | .projecting stage, .common (.limit count) => some (.projecting (stage.limit count))
  | _, _ => none

/-- The draft after a sequence of calls, `foldlM` of `call?`, if the stages offer them one after the
other. -/
def calls? (draft : Draft) (sequence : List StagedCall) : Option Draft :=
  sequence.foldlM call? draft

/-- The statement of a draft, if it is complete: in the stage `projecting`. -/
def build? : Draft → Option Statement
  | .projecting stage => some stage.build
  | .start | .unfiltered _ | .filtered _ => none

end Draft

namespace Statement

/-- The statement that a sequence of calls of the staged builder makes, from `Draft.start` on. -/
def ofCalls? (sequence : List StagedCall) : Option Statement :=
  (Draft.start.calls? sequence).bind Draft.build?

end Statement

end CypherQuery
