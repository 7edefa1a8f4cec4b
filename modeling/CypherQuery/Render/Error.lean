import CypherQuery.Error.Diagnostic
import CypherQuery.Number.Layout

/-! # Errors of rendering

A `RenderError` says why a tree has no text, or a statement makes no query. -/

namespace CypherQuery

/-- What a name in a tree stands for. -/
inductive NameContext where
  /-- The variable of a node. -/
  | node
  /-- The label of a node. -/
  | label
  /-- The variable of a relationship. -/
  | relationship
  /-- The type of a relationship. -/
  | relationshipType
  /-- A variable in an expression. -/
  | variable
  /-- The key of a property. -/
  | property
  /-- The new name of an expression. -/
  | newName
  /-- A parameter. -/
  | parameter
  deriving DecidableEq, Repr

/-- What a name stands for, in words, as `RenderError.message` has them. -/
def NameContext.description : NameContext → String
  | .node => "node"
  | .label => "label"
  | .relationship => "relationship"
  | .relationshipType => "relationship type"
  | .variable => "variable"
  | .property => "property"
  | .newName => "alias"
  | .parameter => "parameter"

/-- The clauses that count rows. -/
inductive CountClause where
  /-- The rows left out. -/
  | skip
  /-- The greatest number of rows. -/
  | limit
  deriving DecidableEq, Repr

/-- A counting clause as it is written. -/
def CountClause.word : CountClause → String
  | .skip => "SKIP"
  | .limit => "LIMIT"

/-- Why a tree has no text, or a statement makes no query; each with the name, value or clause it is
about. -/
inductive RenderError where
  /-- A statement reads nothing. -/
  | missingReadingClause
  /-- A projecting clause is not the last one. -/
  | misplacedReturn
  /-- A pattern has no elements. -/
  | emptyPattern
  /-- A projection has no items. -/
  | emptyProjection
  /-- An order has no criteria. -/
  | emptyOrder
  /-- A name has no characters. -/
  | emptyName (context : NameContext)
  /-- A literal is an infinity, or not a number. -/
  | nonFiniteLiteral (value : Binary64)
  /-- A number of rows is negative. -/
  | negativeCount (clause : CountClause) (value : Int64)
  /-- A parameter has no value. -/
  | unboundParameter (name : String)
  deriving DecidableEq, Repr

namespace RenderError

/-- What went wrong. -/
def message : RenderError → String
  | missingReadingClause => "statement has no reading clause"
  | misplacedReturn => "RETURN must be the last clause of a statement"
  | emptyPattern => "pattern has no elements"
  | emptyProjection => "RETURN has no projection items"
  | emptyOrder => "ORDER BY has no sort items"
  | emptyName context => "empty " ++ context.description ++ " name"
  | nonFiniteLiteral value => "float literal " ++ String.ofList value.text ++ " is not finite"
  | negativeCount clause value =>
      clause.word ++ " count " ++ String.ofList (signedDigits value.toInt) ++ " is negative"
  | unboundParameter name => "parameter `$" ++ name ++ "` is referenced but not bound"

/-- The stable identification of the kind of error. -/
def code : RenderError → String
  | missingReadingClause => "cypher::render::missing_reading_clause"
  | misplacedReturn => "cypher::render::misplaced_return"
  | emptyPattern => "cypher::render::empty_pattern"
  | emptyProjection => "cypher::render::empty_projection"
  | emptyOrder => "cypher::render::empty_order"
  | emptyName _ => "cypher::render::empty_name"
  | nonFiniteLiteral _ => "cypher::render::non_finite_literal"
  | negativeCount _ _ => "cypher::render::negative_count"
  | unboundParameter _ => "cypher::render::unbound_parameter"

/-- The presentation of an error of rendering: its `message` and `code`. -/
def diagnostic (error : RenderError) : Diagnostic :=
  ⟨error.message, error.code, none⟩

end RenderError

end CypherQuery
