import CypherQuery.Proofs.Example.Accounting
import CypherQuery.Proofs.Example.Inquiry

/-! # The values of a probe stay out of a query

Of the values of a probe, a query only depends on their kinds, `Value.kind`: whether a value is
absent, a text, an object or anything else. Two probes that differ in nothing but values of the same
kinds, `Probe.Alike`, are followed through the criteria, the predicate and the statement of an
inquiry. The main statement, `querying_ignores_values`, is that all queries about them fail alike,
or come to queries with the same `outline`, that is, to ones that differ in nothing but the values
of their parameters. -/

namespace CypherQuery

/-! ## What is seen -/

/-- The kinds of values that are told apart; `other` are booleans, numbers and lists. -/
inductive Value.Kind where
  /-- The absent value. -/
  | null
  /-- A text. -/
  | string
  /-- An object. -/
  | object
  /-- Any other value. -/
  | other
  deriving DecidableEq, Repr

/-- The kind of a value: booleans, numbers and lists are all `other`. -/
def Value.kind : Value → Value.Kind
  | .null => .null
  | .string _ => .string
  | .object _ => .object
  | .boolean _ | .number _ _ | .list _ => .other

/-- Two probes of one type with the same fields, and values of the same `Value.kind` in them. -/
structure Probe.Alike (one other : Probe) : Prop where
  /-- The type is the same. -/
  type : one.typeName = other.typeName
  /-- Each field is set in both to values of one kind, or in neither. -/
  kinds : ∀ field, (one.field? field).map Value.kind = (other.field? field).map Value.kind

/-- A query without the values of its parameters. -/
structure QueryOutline where
  /-- The text. -/
  cypher : String
  /-- The names of the parameters. -/
  names : List String
  /-- What is expected of the answer. -/
  shape : ResultShape
  deriving DecidableEq, Repr

/-- What is seen of a query without the values of its parameters: the text, the `names` of the
parameters and the shape. -/
def PreparedQuery.outline (query : PreparedQuery) : QueryOutline :=
  ⟨query.cypher, query.parameters.names, query.shape⟩

/-- The queries for a page without the values of their parameters. -/
structure PageOutline where
  /-- The finds of the page. -/
  content : QueryOutline
  /-- The number of all finds. -/
  count : QueryOutline
  /-- The number of the page. -/
  page : UInt64
  /-- The number of rows of a page. -/
  size : UInt64
  deriving DecidableEq, Repr

/-- What is seen of the queries for a page: the `outline` of both, and which page it is. -/
def PagedQuery.outline (query : PagedQuery) : PageOutline :=
  ⟨query.content.outline, query.count.outline, query.page, query.size⟩

/-! ## From values to criteria -/

/-- Values of one `kind` pass the same checks, `isNull`, `isString` and `isObject`. -/
theorem Value.checks_of_kind {one other : Value} (same : one.kind = other.kind) :
    one.isNull = other.isNull ∧ one.isString = other.isString ∧ one.isObject = other.isObject := by
  rcases one with _ | _ | _ | _ | _ | _ <;> rcases other with _ | _ | _ | _ | _ | _
  all_goals first
    | exact ⟨rfl, rfl, rfl⟩
    | cases same

/-- Probes that are `Alike` have the same `fieldNames`. -/
theorem Probe.Alike.fieldNames {one other : Probe} (alike : one.Alike other) :
    one.fieldNames = other.fieldNames := by
  refine Dictionary.names_eq_of_contains fun name => ?_
  have kinds := congrArg Option.isSome (alike.kinds name)
  rw [Option.isSome_map, Option.isSome_map] at kinds
  exact iff_of_eq (congrArg (· = true) kinds)

/-- Every probe is `Alike` itself. -/
theorem Probe.Alike.refl (probe : Probe) : probe.Alike probe :=
  ⟨rfl, fun _ => rfl⟩

/-- Setting a field by `withField` to values of one `kind` leaves probes `Alike`. -/
theorem Probe.Alike.withField {one other : Probe} (alike : one.Alike other) (name : String)
    {value twin : Value} (same : value.kind = twin.kind) :
    (one.withField name value).Alike (other.withField name twin) := by
  refine ⟨alike.type, fun field => ?_⟩
  simp only [field?, Probe.withField]
  by_cases here : field = name
  · subst here
    rw [Dictionary.get?_insert_self, Dictionary.get?_insert_self]
    exact congrArg some same
  · rw [Dictionary.get?_insert_of_ne _ here, Dictionary.get?_insert_of_ne _ here]
    exact alike.kinds field

/-- What is seen of a criterion: the comparison, if it is `compared`. -/
def Criterion.outline : Criterion → Option Comparison
  | .absent => none
  | .compared op _ => some op

/-- Values of one `kind` have the same `outline` of what `ofField` makes of them, failures
included. -/
theorem Criterion.outline_ofField (matcher : ExampleMatcher) (typeName : String)
    (property : PropertyDescription) {one other : Option Value}
    (same : one.map Value.kind = other.map Value.kind) :
    (ofField matcher typeName property one).map (Option.map outline) =
      (ofField matcher typeName property other).map (Option.map outline) := by
  rcases one with _ | value <;> rcases other with _ | twin
  · rfl
  · cases same
  · cases same
  · obtain ⟨nulls, strings, objects⟩ := Value.checks_of_kind (Option.some.inj same)
    rw [ofField, ofField, nulls, strings, objects]
    split
    · rfl
    · split
      · rfl
      · split
        · rfl
        · rfl

/-- What is seen of a criterion and its property: the property and the `outline`. -/
def Criterion.entryOutline (entry : PropertyDescription × Criterion) :
    PropertyDescription × Option Comparison :=
  (entry.1, entry.2.outline)

namespace Predicate

/-- Probes that are `Alike` have the same `criteriaOf` up to `entryOutline`, failures included. -/
theorem outline_criteriaOf {one other : Probe} (alike : one.Alike other) (matcher : ExampleMatcher)
    (typeName : String) (properties : List PropertyDescription) :
    (criteriaOf matcher one typeName properties).map (List.map Criterion.entryOutline) =
      (criteriaOf matcher other typeName properties).map (List.map Criterion.entryOutline) := by
  induction properties with
  | nil => rfl
  | cons property rest ih =>
      refine Attempt.map_bind_eq (Criterion.outline_ofField matcher typeName property
        (alike.kinds property.field)) fun criterion twin same => ?_
      refine Attempt.map_bind_eq ih fun others twins later => congrArg Except.ok ?_
      rw [List.map_append, List.map_append, later]
      rcases criterion with _ | criterion <;> rcases twin with _ | twin
      · rfl
      · cases same
      · cases same
      · have first : Criterion.entryOutline (property, criterion) =
            Criterion.entryOutline (property, twin) :=
          congrArg (Prod.mk property) (Option.some.inj same)
        exact congrArg (· :: _) first

/-- Criteria with the same `entryOutline` make the same `conditions`, and the same names of
parameters. -/
theorem conditions_of_outline (description : NodeDescription)
    {criteria twins : List (PropertyDescription × Criterion)}
    (same : criteria.map Criterion.entryOutline = twins.map Criterion.entryOutline)
    {parameters others : Parameters} (names : parameters.names = others.names) :
    (conditions description parameters criteria).1 = (conditions description others twins).1 ∧
      (conditions description parameters criteria).2.names =
        (conditions description others twins).2.names := by
  induction criteria generalizing twins parameters others with
  | nil =>
      cases List.map_eq_nil_iff.mp same.symm
      exact ⟨rfl, names⟩
  | cons entry rest ih =>
      rcases twins with _ | ⟨twin, later⟩
      · cases same
      obtain ⟨head, tail⟩ := List.cons.inj same
      rcases entry with ⟨property, _ | ⟨op, value⟩⟩ <;>
        rcases twin with ⟨property', _ | ⟨op', value'⟩⟩
      · cases head
        obtain ⟨texts, bound⟩ := ih tail names
        exact ⟨congrArg (_ :: ·) texts, bound⟩
      · cases head
      · cases head
      · cases head
        have fresh := Parameters.freshName_eq_of_names names property.graphName
        have extended : (parameters.insert (parameters.freshName property.graphName) value).names =
            (others.insert (others.freshName property.graphName) value').names := by
          refine Dictionary.names_eq_of_contains fun name => ?_
          rw [Dictionary.contains_insert, Dictionary.contains_insert, fresh,
            Dictionary.contains_eq_of_names names]
        obtain ⟨texts, bound⟩ := ih tail extended
        refine ⟨?_, bound⟩
        simp only [conditions, Parameters.allocate]
        rw [texts, fresh]

/-- What is seen of a predicate: its `description`, its `condition`, and the names of its
`parameters`. -/
def outline (predicate : Predicate) : NodeDescription × Option Expression × List String :=
  (predicate.description, predicate.condition, predicate.parameters.names)

/-- Probes that are `Alike` have the same predicate up to its `outline`, or fail alike in
`create`. -/
theorem outline_create {one other : Probe} (alike : one.Alike other) (schema : Schema)
    (matcher : ExampleMatcher) :
    (create schema ⟨one, matcher⟩).map outline = (create schema ⟨other, matcher⟩).map outline := by
  refine Attempt.map_bind_congr fun _ => ?_
  dsimp only
  -- Up to the criteria, only the type and the names of the fields are looked at.
  rw [alike.type, alike.fieldNames]
  rcases schema other.typeName with _ | description
  · rfl
  dsimp only
  rcases other.fieldNames.find? fun field => (description.property? field).isNone with _ | field
  · have asked :=
      outline_criteriaOf alike matcher description.typeName description.properties
    rw [← criteria_eq, ← criteria_eq] at asked
    refine Attempt.map_bind_eq asked fun criteria twins same => congrArg Except.ok ?_
    obtain ⟨texts, names⟩ :=
      conditions_of_outline description same (Eq.refl (Dictionary.names .empty))
    simp only [outline]
    rw [texts, names]
  · rfl

end Predicate

/-! ## From predicates to queries -/

/-- The `statement` of an inquiry depends on the `outline` of the predicate only. -/
theorem Inquiry.statement_of_outline (inquiry : Inquiry) {one other : Predicate}
    (same : one.outline = other.outline) : inquiry.statement one = inquiry.statement other := by
  obtain ⟨description, parameters, condition⟩ := one
  obtain ⟨description', parameters', condition'⟩ := other
  obtain ⟨rfl, rest⟩ := Prod.mk.inj same
  obtain ⟨rfl, -⟩ := Prod.mk.inj rest
  rcases inquiry with _ | _ | _ | _ | _ | _
  all_goals rfl

/-- Whether `prepare` makes a query of a statement, and with which `outline`, depends on the names
of the parameters only. -/
theorem PreparedQuery.outline_prepare {one other : Parameters} (same : one.names = other.names)
    (statement : Statement) (shape : ResultShape) (renderer : Renderer) :
    (prepare statement one shape renderer).map outline =
      (prepare statement other shape renderer).map outline := by
  have bound : (fun name => !one.contains name) = fun name => !other.contains name :=
    funext fun name => congrArg (!·) (Dictionary.contains_eq_of_names same name)
  rw [prepare, prepare, bound]
  rcases statement.referencedParameters.find? _ with _ | name
  · rcases renderer.render statement with failure | cypher
    · rfl
    · exact congrArg (fun names => Except.ok (QueryOutline.mk cypher names shape)) same
  · rfl

namespace ExampleQueries

variable (queries : ExampleQueries) (matcher : ExampleMatcher) {one other : Probe}

/-- Asking about probes that are `Alike` gives the same query up to its `outline`, or fails
alike. -/
theorem outline_ask (alike : one.Alike other) (inquiry : Inquiry) :
    (queries.ask ⟨one, matcher⟩ inquiry).map PreparedQuery.outline =
      (queries.ask ⟨other, matcher⟩ inquiry).map PreparedQuery.outline := by
  have predicates := Attempt.map_mapError_eq QueryError.sample
    (Predicate.outline_create alike queries.schema matcher)
  refine Attempt.map_bind_eq predicates fun predicate twin same => ?_
  rw [inquiry.statement_of_outline same]
  refine Attempt.map_bind_congr fun statement => ?_
  have names : predicate.parameters.names = twin.parameters.names :=
    (Prod.mk.inj (Prod.mk.inj same).2).2
  exact Attempt.map_mapError_eq QueryError.render
    (PreparedQuery.outline_prepare names statement inquiry.shape queries.renderer)

/-- The queries of `findPage` about probes that are `Alike` are the same up to their `outline`, or
fail alike. -/
theorem outline_findPage (alike : one.Alike other) (request : PageRequest) :
    (queries.findPage ⟨one, matcher⟩ request).map PagedQuery.outline =
      (queries.findPage ⟨other, matcher⟩ request).map PagedQuery.outline := by
  rw [findPage_eq, findPage_eq]
  refine Attempt.map_bind_eq (queries.outline_ask matcher alike (.page request))
    fun content twin same => ?_
  refine Attempt.map_bind_eq (queries.outline_ask matcher alike .count)
    fun count pair equal => congrArg Except.ok ?_
  simp only [PagedQuery.outline]
  rw [same, equal]

end ExampleQueries

/-- The values of a probe never reach a query. For two probes that are `Alike`, all six queries fail
with the same error under every renderer, or succeed with the same `outline`: the same text, the
same names of parameters and the same shape. -/
theorem querying_ignores_values (queries : ExampleQueries) (matcher : ExampleMatcher)
    {one other : Probe} (alike : one.Alike other) :
    (queries.findOne ⟨one, matcher⟩).map PreparedQuery.outline =
        (queries.findOne ⟨other, matcher⟩).map PreparedQuery.outline ∧
      (queries.findAll ⟨one, matcher⟩).map PreparedQuery.outline =
        (queries.findAll ⟨other, matcher⟩).map PreparedQuery.outline ∧
      (∀ sort, (queries.findAllSorted ⟨one, matcher⟩ sort).map PreparedQuery.outline =
        (queries.findAllSorted ⟨other, matcher⟩ sort).map PreparedQuery.outline) ∧
      (∀ request, (queries.findPage ⟨one, matcher⟩ request).map PagedQuery.outline =
        (queries.findPage ⟨other, matcher⟩ request).map PagedQuery.outline) ∧
      (queries.count ⟨one, matcher⟩).map PreparedQuery.outline =
        (queries.count ⟨other, matcher⟩).map PreparedQuery.outline ∧
      (queries.findAny ⟨one, matcher⟩).map PreparedQuery.outline =
        (queries.findAny ⟨other, matcher⟩).map PreparedQuery.outline := by
  have asked := queries.outline_ask matcher alike
  simp only [ExampleQueries.findOne_eq, ExampleQueries.findAll_eq, ExampleQueries.findAllSorted_eq,
    ExampleQueries.count_eq, ExampleQueries.findAny_eq]
  exact ⟨asked .one, asked .all, fun sort => asked (.sorted sort),
    queries.outline_findPage matcher alike, asked .count, asked .presence⟩

/-- A probe for the fields `name` and `age`. -/
def opaqueProbe (name : String) (age : Value) : Probe :=
  ((Probe.new "Person").withField "name" (.string name)).withField "age" age

/-- Two of the probes `opaqueProbe` are `Alike` for any names, if the ages are of one `kind`. -/
theorem opaqueProbe_alike (name other : String) {age twin : Value} (same : age.kind = twin.kind) :
    (opaqueProbe name age).Alike (opaqueProbe other twin) := by
  have kinds : (Value.string name).kind = (Value.string other).kind := rfl
  exact ((Probe.Alike.refl (.new "Person")).withField "name" kinds).withField "age" same

/-- Queries about people with a name and an age. -/
def opaqueQueries : ExampleQueries :=
  ⟨fun _ => some ⟨"Person", "Person", [], [.simple "name", .simple "age"]⟩, ⟨.plain⟩⟩

/-- Counting people by a name that is made to look like a query has the same `outline` as counting
them by `Ann`: the name stands in no text, only behind `$name`. -/
theorem counting_ignores_hostile_name :
    (opaqueProbe "Ann" (.number 41 0)).Alike
        (opaqueProbe "' OR 1 = 1 RETURN n //" (.list [.null])) ∧
      (opaqueQueries.count
          ⟨opaqueProbe "' OR 1 = 1 RETURN n //" (.list [.null]), .matchingAll⟩).map
          PreparedQuery.outline =
        .ok ⟨"MATCH (n:Person) WHERE n.name = $name AND n.age = $age RETURN count(*)",
          ["age", "name"], .count⟩ := by
  have alike : (opaqueProbe "Ann" (.number 41 0)).Alike
      (opaqueProbe "' OR 1 = 1 RETURN n //" (.list [.null])) :=
    opaqueProbe_alike _ _ rfl
  have same := (querying_ignores_values opaqueQueries .matchingAll alike).2.2.2.2.1
  exact ⟨alike, same.symm.trans rfl⟩

end CypherQuery
