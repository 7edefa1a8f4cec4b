import CypherQuery.Build.Stages
import CypherQuery.Example.Matcher
import CypherQuery.Example.Schema
import CypherQuery.Query.Parameters

/-! # Predicates

An example is turned into a `Predicate`, a condition on the node that it looks for. The values of
the probe only become parameters; the condition refers to them by name. -/

namespace CypherQuery

/-- What a field of a probe asks of its property. -/
inductive Criterion where
  /-- The property has no value. -/
  | absent
  /-- The property compares with a value. -/
  | compared (op : Comparison) (value : Value)
  deriving Repr

namespace Criterion

/-- What a field asks of its property, if anything: the value of `property` in a probe, `none` if
the field is not set. A value can be asked neither of a relationship nor by an object. -/
def ofField (matcher : ExampleMatcher) (typeName : String) (property : PropertyDescription) :
    Option Value → Except ExampleError (Option Criterion)
  | none => .ok none
  | some value =>
      if value.isNull then
        .ok (if matcher.nullHandling = .matched ∧ !property.isAssociation then some .absent
          else none)
      else if property.isAssociation then .error (.association typeName property.field)
      else if value.isObject then .error (.nestedValue typeName property.field)
      else
        let op := if value.isString ∧ !property.isInternalId then matcher.stringMatcher.comparison
          else .equal
        .ok (some (.compared op value))

end Criterion

/-- The stored value that a field is compared with: a property of the node, or its `elementId`. -/
def NodeDescription.subject (description : NodeDescription) (property : PropertyDescription) :
    Expression :=
  let root := description.rootNode
  if property.isInternalId then root.asVariable.elementId else root.property property.graphName

/-- The connective of a mode: `and` for all conditions, `or` for any of them. -/
def MatchMode.connective : MatchMode → Connective
  | .all => .and
  | .any => .or

/-- The combination of conditions from left to right by `Expression.combine`; none if there are
none. -/
def Expression.combineAll? (op : Connective) : List Expression → Option Expression
  | [] => none
  | first :: rest => some (rest.foldl (Expression.combine op) first)

/-- The condition and the parameters of an example. -/
structure Predicate where
  /-- The description of the type of the example. -/
  description : NodeDescription
  /-- The values that the condition refers to. -/
  parameters : Parameters
  /-- The condition, if the example asks for anything. -/
  condition : Option Expression

namespace Predicate

/-- The criteria of the fields of a probe, in the order of the properties, each by
`Criterion.ofField`. -/
def criteria (matcher : ExampleMatcher) (probe : Probe) (description : NodeDescription) :
    Except ExampleError (List (PropertyDescription × Criterion)) := do
  let found ← description.properties.mapM fun property => do
    let criterion ←
      Criterion.ofField matcher description.typeName property (probe.field? property.field)
    return criterion.map fun criterion => (property, criterion)
  return found.filterMap id

/-- The conditions of criteria, and the parameters with their values bound. Each value is bound by
`Parameters.allocate` under a fresh name that resembles its property. -/
def conditions (description : NodeDescription) (parameters : Parameters) :
    List (PropertyDescription × Criterion) → List Expression × Parameters
  | [] => ([], parameters)
  | (property, .absent) :: rest =>
      let (others, parameters) := conditions description parameters rest
      ((description.subject property).isNull :: others, parameters)
  | (property, .compared op value) :: rest =>
      let (name, parameters) := Parameters.allocate parameters property.graphName value
      let (others, parameters) := conditions description parameters rest
      (.comparison op (description.subject property) (.parameter name) :: others, parameters)

/-- The predicate of an example: its options are valid (`ExampleMatcher.validate`), its type is
described, all its fields are described, and each of them can be asked for. -/
def create (schema : Schema) (sample : Example) : Except ExampleError Predicate := do
  sample.matcher.validate
  let probe := sample.probe
  match schema probe.typeName with
  | none => .error (.unknownType probe.typeName)
  | some description =>
      -- A field without a property is an error even if it is set to nothing.
      match probe.fieldNames.find? fun field => (description.property? field).isNone with
      | some field => .error (.unmappedField description.typeName field)
      | none => do
          let criteria ← criteria sample.matcher probe description
          let (conditions, parameters) := conditions description .empty criteria
          return {
            description
            parameters
            condition := Expression.combineAll? sample.matcher.mode.connective conditions }

/-- Hands the description and the condition to a function `entry` that starts a statement. -/
def applyTo {α : Type} (predicate : Predicate)
    (entry : NodeDescription → Option Expression → α) : α :=
  entry predicate.description predicate.condition

end Predicate

/-- A reading clause for the `rootNode` of a description, with a condition if there is one. -/
def matchRoot (description : NodeDescription) (condition : Option Expression) : Filtered :=
  (matching false (.ofNode description.rootNode)).filterIfPresent condition

end CypherQuery
