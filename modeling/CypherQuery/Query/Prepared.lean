import CypherQuery.Query.Parameters
import CypherQuery.Render.Canvas
import CypherQuery.Traversal.Collect

/-! # Prepared queries

A `PreparedQuery` is the text of a statement with the values of its parameters, ready to be run. -/

namespace CypherQuery

/-- What a query is expected to answer. -/
inductive ResultShape where
  /-- Any number of rows. -/
  | many
  /-- At most one row. -/
  | single
  /-- One row that holds a number. -/
  | count
  /-- At most one row, of which only the presence matters. -/
  | presence
  deriving DecidableEq, Repr

/-- The name of a shape. -/
def ResultShape.word : ResultShape → String
  | .many => "many"
  | .single => "single"
  | .count => "count"
  | .presence => "exists"

/-- A query that is ready to be run. -/
structure PreparedQuery where
  /-- The text. -/
  cypher : String
  /-- The values of the parameters. -/
  parameters : Parameters
  /-- What is expected of the answer. -/
  shape : ResultShape

namespace PreparedQuery

/-- The query of a statement. All `referencedParameters` of the statement must have values; the
first one without is reported before anything is rendered. -/
def prepare (statement : Statement) (parameters : Parameters) (shape : ResultShape)
    (renderer : Renderer) : Except RenderError PreparedQuery :=
  -- The names come in order, so the least name without a value is the one reported.
  match statement.referencedParameters.find? fun name => !parameters.contains name with
  | some name => .error (.unboundParameter name)
  | none => do
      let cypher ← renderer.render statement
      return ⟨cypher, parameters, shape⟩

/-- If all `referencedParameters` have values, a statement becomes a query exactly if it is
rendered. -/
theorem prepare_of_contains {s : Statement} {parameters : Parameters}
    (contains : ∀ name ∈ s.referencedParameters, parameters.contains name = true)
    (shape : ResultShape) (renderer : Renderer) :
    prepare s parameters shape renderer =
      (renderer.render s).map fun cypher => ⟨cypher, parameters, shape⟩ := by
  have all : (s.referencedParameters.find? fun name => !parameters.contains name) = none := by
    rw [List.find?_eq_none]
    intro name mem
    rw [contains name mem]
    exact Bool.false_ne_true
  rw [prepare, all]
  rcases renderer.render s with failure | cypher
  · rfl
  · rfl

end PreparedQuery

end CypherQuery
