import CypherQuery.Build.Open
import CypherQuery.Error.Diagnostic

/-! # Statements with checks at run time

A `StatementBuilder` takes every operation at any time, and rejects those that its `stage` does not
allow with an `InvalidState`. It is for statements whose shape is not known beforehand. -/

namespace CypherQuery

/-- How far a builder has come. -/
inductive BuilderStage where
  /-- Nothing has been added. -/
  | empty
  /-- A reading clause is open. -/
  | reading
  /-- The items of the answer are given. -/
  | projecting
  deriving DecidableEq, Repr

/-- A stage in words. -/
def BuilderStage.word : BuilderStage → String
  | .empty => "empty"
  | .reading => "reading"
  | .projecting => "projecting"

/-- The operations of a builder that can be rejected. -/
inductive BuilderOperation where
  /-- A reading clause. -/
  | matching
  /-- A condition. -/
  | filter
  /-- The items of the answer. -/
  | returning
  /-- Criteria of the order. -/
  | orderBy
  /-- A number of rows left out. -/
  | skip
  /-- A greatest number of rows. -/
  | limit
  /-- The end of the statement. -/
  | build
  deriving DecidableEq, Repr

/-- The name of an operation. -/
def BuilderOperation.word : BuilderOperation → String
  | .matching => "match"
  | .filter => "where"
  | .returning => "returning"
  | .orderBy => "order_by"
  | .skip => "skip"
  | .limit => "limit"
  | .build => "build"

/-- An operation that the stage of a builder does not allow. -/
structure InvalidState where
  /-- The operation. -/
  operation : BuilderOperation
  /-- The stage. -/
  stage : BuilderStage
  deriving DecidableEq, Repr

namespace InvalidState

/-- How an operation can be made legal; nothing is said of operations that come too late. -/
def help (error : InvalidState) : Option String :=
  match error.operation, error.stage with
  | .filter, .empty => some "add a MATCH before filtering"
  | .returning, .empty | .build, .empty => some "a statement needs at least one reading clause"
  | .returning, .reading => some "`returning` needs at least one item"
  | .orderBy, .reading | .skip, .reading | .limit, .reading | .build, .reading =>
      some "call `returning` first"
  | .orderBy, .empty | .skip, .empty | .limit, .empty =>
      some "add a MATCH and call `returning` first"
  | _, _ => none

/-- The presentation of a rejected operation. -/
def diagnostic (error : InvalidState) : Diagnostic :=
  { message := "`" ++ error.operation.word ++ "` is not allowed while the statement builder is " ++
      error.stage.word
    code := "cypher::invalid_state"
    help := error.help }

end InvalidState

/-- A statement under construction whose operations are checked. -/
structure StatementBuilder where
  /-- The closed clauses. -/
  completed : List Clause
  /-- The open reading clause. -/
  current : Option OpenMatch
  /-- The projecting clause. -/
  projection : Option OpenReturn
  deriving Repr

namespace StatementBuilder

/-- The builder before any operation. -/
def new : StatementBuilder :=
  ⟨[], none, none⟩

/-- How far the builder has come: a `projection` counts more than a reading clause that is
`current`. -/
def stage (builder : StatementBuilder) : BuilderStage :=
  if builder.projection.isSome then .projecting
  else if builder.current.isSome then .reading
  else .empty

/-- The builder rejects an operation, with the `stage` it is in. -/
def reject {α : Type} (builder : StatementBuilder) (operation : BuilderOperation) :
    Except InvalidState α :=
  .error ⟨operation, builder.stage⟩

/-- Whether the reading clause that is `current` has a condition. -/
def hasCondition (builder : StatementBuilder) : Bool :=
  builder.current.any fun clause => clause.condition.isSome

/-- A reading clause; one that is open is closed before it. Rejected once the builder is
`projecting`. -/
def matching (builder : StatementBuilder) (optional : Bool) (pattern : Pattern) :
    Except InvalidState StatementBuilder :=
  match builder.projection with
  | some _ => builder.reject .matching
  | none =>
      let closed := match builder.current with
        | some clause => builder.completed ++ [.reading clause.close]
        | none => builder.completed
      .ok ⟨closed, some (.start optional pattern), none⟩

/-- A condition, joined by `OpenMatch.filter` to the ones that the open reading clause has; rejected
unless the builder is `reading`. -/
def filter (builder : StatementBuilder) (condition : Expression) :
    Except InvalidState StatementBuilder :=
  match builder.projection, builder.current with
  | none, some clause => .ok { builder with current := some (clause.filter condition) }
  | _, _ => builder.reject .filter

/-- A condition if there is one, by `filter`; without one the stage is checked all the same. -/
def filterIfPresent (builder : StatementBuilder) :
    Option Expression → Except InvalidState StatementBuilder
  | some condition => builder.filter condition
  | none => if builder.stage = .reading then .ok builder else builder.reject .filter

/-- The items of the answer, at least one; rejected unless the builder is `reading`. -/
def returning (builder : StatementBuilder) (distinct : Bool) (items : List Expression) :
    Except InvalidState StatementBuilder :=
  match builder.projection, builder.current with
  | none, some clause =>
      if items.isEmpty then builder.reject .returning
      else .ok ⟨builder.completed ++ [.reading clause.close], none, some (.start distinct items)⟩
  | _, _ => builder.reject .returning

/-- A change `f` of the projecting clause, once there is one; otherwise `operation` is rejected. -/
def changeProjection (builder : StatementBuilder) (operation : BuilderOperation)
    (f : OpenReturn → OpenReturn) : Except InvalidState StatementBuilder :=
  match builder.projection with
  | some clause => .ok { builder with projection := some (f clause) }
  | none => builder.reject operation

/-- Further criteria of the order, by `changeProjection`. -/
def orderBy (builder : StatementBuilder) (items : List SortItem) :
    Except InvalidState StatementBuilder :=
  builder.changeProjection .orderBy (·.orderBy items)

/-- Another number of rows left out, by `changeProjection`. -/
def skip (builder : StatementBuilder) (count : Int64) : Except InvalidState StatementBuilder :=
  builder.changeProjection .skip (·.skipping count)

/-- Another greatest number of rows, by `changeProjection`. -/
def limit (builder : StatementBuilder) (count : Int64) : Except InvalidState StatementBuilder :=
  builder.changeProjection .limit (·.limitedTo count)

/-- The statement, once something is read and the items of the answer are given. A rejection names
the `stage` that the builder has without its projecting clause. -/
def build (builder : StatementBuilder) : Except InvalidState Statement :=
  match builder.projection with
  | some clause =>
      if builder.completed.isEmpty then reject { builder with projection := none } .build
      else .ok ⟨builder.completed ++ [.returning clause.close]⟩
  | none => builder.reject .build

end StatementBuilder

end CypherQuery
