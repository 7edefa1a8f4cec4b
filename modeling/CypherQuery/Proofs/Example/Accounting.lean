import CypherQuery.Example.Predicate
import CypherQuery.Proofs.Attempt
import CypherQuery.Proofs.Query.FreshName

/-! # What a predicate asks for

A predicate has one condition for every field of the probe that asks for something, in the order of
the properties, and one parameter for every value. The relation `Accounts` says what the conditions
of a probe are without saying how the names of the parameters are found. The main statement,
`predicate_accounts_for_fields`, is that an example has a predicate exactly if its options and its
fields allow it (`Example.AskableBy`), and that the predicate then accounts for every property of
the description, once and with the value of its own field (`Predicate.AccountsFor`). -/

namespace CypherQuery

/-! ## What is asked -/

/-- What is stored for a property of the node that is looked for, the variable `n`. -/
def PropertyDescription.stored (property : PropertyDescription) : Expression :=
  if property.isInternalId then .call "id" false [.variable "n"]
  else .property (.variable "n") property.graphName

/-- How what is stored for a property has to compare with a value: `stringMatcher` is for texts that
are no identifiers. -/
def ExampleMatcher.comparison (matcher : ExampleMatcher) (property : PropertyDescription) :
    Value → Comparison
  | .string _ => if property.isInternalId then .equal else matcher.stringMatcher.comparison
  | _ => .equal

/-- The properties, one after the other, with the conditions that they make and the names of the
parameters in these conditions. There is one case for each way a field can be set. -/
inductive Accounts (matcher : ExampleMatcher) (probe : Probe) (parameters : Parameters) :
    List PropertyDescription → List Expression → List String → Prop where
  /-- Without properties there are no conditions. -/
  | none : Accounts matcher probe parameters [] [] []
  /-- A field that is not set asks for nothing. -/
  | unset {property : PropertyDescription} {rest : List PropertyDescription}
      {conditions : List Expression} {names : List String}
      (unset : probe.field? property.field = .none)
      (others : Accounts matcher probe parameters rest conditions names) :
      Accounts matcher probe parameters (property :: rest) conditions names
  /-- A field that is set to nothing asks for nothing if that is ignored, and never about another
  node. -/
  | ignored {property : PropertyDescription} {rest : List PropertyDescription}
      {conditions : List Expression} {names : List String}
      (null : probe.field? property.field = some .null)
      (ignored : matcher.nullHandling = .ignored ∨ property.kind = .association)
      (others : Accounts matcher probe parameters rest conditions names) :
      Accounts matcher probe parameters (property :: rest) conditions names
  /-- Otherwise it asks that nothing is stored. -/
  | absent {property : PropertyDescription} {rest : List PropertyDescription}
      {conditions : List Expression} {names : List String}
      (null : probe.field? property.field = some .null)
      (matched : matcher.nullHandling = .matched) (simple : property.kind = .simple)
      (others : Accounts matcher probe parameters rest conditions names) :
      Accounts matcher probe parameters (property :: rest)
        (.unary .isNull property.stored :: conditions) names
  /-- A field with a value asks that what is stored compares with the parameter that has the
  value. -/
  | compared {property : PropertyDescription} {rest : List PropertyDescription}
      {conditions : List Expression} {names : List String} {name : String} {value : Value}
      (set : probe.field? property.field = some value) (present : value ≠ .null)
      (bound : parameters.get? name = some value)
      (others : Accounts matcher probe parameters rest conditions names) :
      Accounts matcher probe parameters (property :: rest)
        (.comparison (matcher.comparison property value) property.stored (.parameter name) ::
          conditions) (name :: names)

/-- Conditions joined from left to right by the connective `op`; none if there are none. -/
def Expression.joined? (op : Connective) : List Expression → Option Expression
  | [] => none
  | first :: rest => some (rest.foldl (.logical op) first)

/-- What a predicate is of an example: its condition joins conditions that account for the
properties (`Accounts`), and its parameters have the names in them, no name twice. -/
structure Predicate.AccountsFor (predicate : Predicate) (sample : Example)
    (conditions : List Expression) (names : List String) : Prop where
  /-- Every property is accounted for. -/
  accounts : Accounts sample.matcher sample.probe predicate.parameters
    predicate.description.properties conditions names
  /-- The condition joins the conditions. -/
  joined : predicate.condition = Expression.joined? sample.matcher.mode.connective conditions
  /-- The names are those of the parameters. -/
  bound : predicate.parameters.names.Perm names
  /-- No two conditions share a parameter. -/
  distinct : names.Nodup

/-- A property can be asked for what a field holds: for `null`, or for a value that is no object if
the property belongs to the node itself. -/
def PropertyDescription.Allows (property : PropertyDescription) (field : Option Value) : Prop :=
  ∀ value, field = some value → value ≠ .null →
    property.kind = .simple ∧ ∀ fields, value ≠ .object fields

/-- What it takes for an example to be asked for by a description: valid options, and fields that
the properties allow, `PropertyDescription.Allows`. -/
structure Example.AskableBy (sample : Example) (description : NodeDescription) : Prop where
  /-- Letter case is not ignored. -/
  letterCase : sample.matcher.ignoreCase = false
  /-- No properties are ignored. -/
  paths : sample.matcher.ignoredPaths = []
  /-- Every field that is set is described. -/
  described : ∀ field value, sample.probe.field? field = some value →
    ∃ property ∈ description.properties, property.field = field
  /-- Every property can be asked for what its field holds. -/
  allowed : ∀ property ∈ description.properties,
    property.Allows (sample.probe.field? property.field)

/-! ## Options and properties -/

/-- The node that is looked for, `rootNode`, has the name `n` and the labels of the description, and
nothing is asked of its properties. -/
theorem NodeDescription.rootNode_eq (description : NodeDescription) :
    description.rootNode =
      ⟨some "n", description.primaryLabel :: description.additionalLabels, none⟩ := by
  have labeled (labels : List String) (node : Node) :
      labels.foldl Node.labeled node = { node with labels := node.labels ++ labels } := by
    induction labels generalizing node with
    | nil => rw [List.foldl_nil, List.append_nil]
    | cons label rest ih =>
        rw [List.foldl_cons, ih, Node.labeled, List.append_assoc, List.singleton_append]
  rw [rootNode, labeled]
  rfl

/-- What a field is compared with, `subject`, is what is `stored` for its property. -/
theorem NodeDescription.subject_eq (description : NodeDescription)
    (property : PropertyDescription) : description.subject property = property.stored := by
  rw [subject, rootNode_eq]
  rfl

/-- What is `stored` for a property is read without parentheses. -/
theorem PropertyDescription.isNull_stored (property : PropertyDescription) :
    property.stored.isNull = .unary .isNull property.stored := by
  rw [stored]
  split
  · rfl
  · rfl

/-- A property that does not lead to another node, `isAssociation`, is `simple`. -/
theorem PropertyDescription.not_isAssociation_iff {property : PropertyDescription} :
    property.isAssociation = false ↔ property.kind = .simple := by
  rw [isAssociation]
  rcases property.kind with _ | _
  · exact ⟨fun _ => rfl, fun _ => rfl⟩
  · constructor
    · rintro ⟨⟩
    · rintro ⟨⟩

/-- Options are valid, `validate`, if letter case counts and no properties are ignored. -/
theorem ExampleMatcher.validate_eq_ok_iff {matcher : ExampleMatcher} :
    matcher.validate = .ok () ↔ matcher.ignoreCase = false ∧ matcher.ignoredPaths = [] := by
  rcases matcher with ⟨mode, nulls, strings, _ | _, _ | ⟨path, paths⟩⟩
  all_goals simp [validate]

/-! ## Criteria -/

namespace Criterion

variable {matcher : ExampleMatcher} {typeName : String} {property : PropertyDescription}

/-- A field that is set to `null` is no error, whatever its property. -/
theorem ofField_null : ofField matcher typeName property (some .null) =
    .ok (if matcher.nullHandling = .matched ∧ property.kind = .simple then some .absent
      else none) := by
  simp [ofField, Value.isNull, PropertyDescription.not_isAssociation_iff]

/-- A field with a value has a criterion, by `ofField`, if it belongs to the node itself and the
value is no object. -/
theorem ofField_eq_ok_iff {value : Value} {criterion : Option Criterion} (present : value ≠ .null) :
    ofField matcher typeName property (some value) = .ok criterion ↔
      (property.kind = .simple ∧ ∀ fields, value ≠ .object fields) ∧
        some (.compared (matcher.comparison property value) value) = criterion := by
  rw [← PropertyDescription.not_isAssociation_iff]
  rcases value with _ | _ | _ | _ | _ | _
  case null => exact absurd rfl present
  all_goals
    rcases association : property.isAssociation with _ | _
    all_goals
      rcases identifier : property.isInternalId with _ | _
      all_goals
        simp [ofField, Value.isNull, Value.isObject, Value.isString, ExampleMatcher.comparison,
          association, identifier]

/-- A field has a criterion, or none, exactly if the property `Allows` what it holds. -/
theorem exists_ofField_iff {field : Option Value} :
    (∃ criterion, ofField matcher typeName property field = .ok criterion) ↔
      property.Allows field := by
  rcases field with _ | value
  · exact ⟨fun _ => nofun, fun _ => ⟨none, rfl⟩⟩
  · by_cases null : value = .null
    · subst null
      exact ⟨fun _ _ same present => absurd (Option.some.inj same).symm present,
        fun _ => ⟨_, ofField_null⟩⟩
    · constructor
      · rintro ⟨criterion, found⟩ _ ⟨⟩ present
        exact ((ofField_eq_ok_iff present).mp found).1
      · intro allowed
        exact ⟨_, (ofField_eq_ok_iff null).mpr ⟨allowed value rfl null, rfl⟩⟩

end Criterion

/-! ## Joined conditions -/

/-- No condition that accounts for a property is a combination of others: `groupedIn` leaves it as
it is. -/
theorem Accounts.groupedIn {matcher : ExampleMatcher} {probe : Probe} {parameters : Parameters}
    {properties : List PropertyDescription} {conditions : List Expression} {names : List String}
    (accounts : Accounts matcher probe parameters properties conditions names) (op : Connective) :
    ∀ condition ∈ conditions, condition.groupedIn op = condition := by
  induction accounts with
  | none => exact List.forall_mem_nil _
  | unset _ _ ih => exact ih
  | ignored _ _ _ ih => exact ih
  | absent _ _ _ _ ih => exact List.forall_mem_cons.mpr ⟨rfl, ih⟩
  | compared _ _ _ _ ih => exact List.forall_mem_cons.mpr ⟨rfl, ih⟩

namespace Expression

/-- A combination of conditions by `op` is combined further by `op` without parentheses. -/
theorem groupedIn_logical (op : Connective) (left right : Expression) :
    (logical op left right).groupedIn op = logical op left right :=
  if_pos rfl

/-- Conditions of which none is a combination are joined by `combine` without parentheses. -/
theorem foldl_combine {op : Connective} {first : Expression} {rest : List Expression}
    (alone : first.groupedIn op = first)
    (others : ∀ condition ∈ rest, condition.groupedIn op = condition) :
    rest.foldl (combine op) first = rest.foldl (logical op) first := by
  induction rest generalizing first with
  | nil => rfl
  | cons next rest ih =>
      obtain ⟨own, later⟩ := List.forall_mem_cons.mp others
      rw [List.foldl_cons, List.foldl_cons, combine, alone, own]
      exact ih (groupedIn_logical op first next) later

/-- The combination `combineAll?` of conditions of which none is a combination itself is
`joined?`. -/
theorem combineAll?_eq_joined? {op : Connective} {conditions : List Expression}
    (single : ∀ condition ∈ conditions, condition.groupedIn op = condition) :
    combineAll? op conditions = joined? op conditions := by
  rcases conditions with _ | ⟨first, rest⟩
  · rfl
  · obtain ⟨alone, others⟩ := List.forall_mem_cons.mp single
    exact congrArg some (foldl_combine alone others)

end Expression

namespace Predicate

/-- The criteria of some properties, in their order: `criteria` as a recursion on them. -/
def criteriaOf (matcher : ExampleMatcher) (probe : Probe) (typeName : String) :
    List PropertyDescription → Except ExampleError (List (PropertyDescription × Criterion))
  | [] => .ok []
  | property :: rest => do
      let criterion ← Criterion.ofField matcher typeName property (probe.field? property.field)
      let others ← criteriaOf matcher probe typeName rest
      return (criterion.map fun criterion => (property, criterion)).toList ++ others

/-- The `criteria` of a probe are the `criteriaOf` all properties. -/
theorem criteria_eq (matcher : ExampleMatcher) (probe : Probe) (description : NodeDescription) :
    criteria matcher probe description =
      criteriaOf matcher probe description.typeName description.properties := by
  rw [criteria]
  induction description.properties with
  | nil => rfl
  | cons property rest ih =>
      rw [List.mapM_cons, criteriaOf, ← ih]
      simp only [bind_assoc, pure_bind]
      congr 1
      funext criterion
      congr 1
      funext found
      -- A missing criterion is left out here, and by the filter at the end there.
      rcases criterion with _ | criterion
      · rfl
      · rfl

/-- All properties have their criteria exactly if each `Allows` what its field holds. -/
theorem exists_criteriaOf_iff {matcher : ExampleMatcher} {probe : Probe} {typeName : String}
    {properties : List PropertyDescription} :
    (∃ found, criteriaOf matcher probe typeName properties = .ok found) ↔
      ∀ property ∈ properties, property.Allows (probe.field? property.field) := by
  induction properties with
  | nil => exact ⟨fun _ => List.forall_mem_nil _, fun _ => ⟨[], rfl⟩⟩
  | cons property rest ih =>
      rw [List.forall_mem_cons, ← ih, ← Criterion.exists_ofField_iff]
      constructor
      · rintro ⟨found, whole⟩
        obtain ⟨criterion, first, later⟩ := Attempt.bind_eq_ok.mp whole
        obtain ⟨others, found, -⟩ := Attempt.bind_eq_ok.mp later
        exact ⟨⟨criterion, first⟩, others, found⟩
      · rintro ⟨⟨criterion, first⟩, others, found⟩
        exact ⟨_, Attempt.bind_eq_ok.mpr ⟨criterion, first,
          Attempt.bind_eq_ok.mpr ⟨others, found, rfl⟩⟩⟩

/-! ## Conditions -/

/-- Binding the values of criteria, by `conditions`, leaves what is bound. -/
theorem get?_conditions (description : NodeDescription) {parameters : Parameters} {name : String}
    {value : Value} (bound : parameters.get? name = some value)
    (criteria : List (PropertyDescription × Criterion)) :
    (conditions description parameters criteria).2.get? name = some value := by
  induction criteria generalizing parameters with
  | nil => exact bound
  | cons first rest ih =>
      rcases first with ⟨property, _ | ⟨op, own⟩⟩
      · exact ih bound
      · refine ih ?_
        -- What is fresh is not bound yet.
        have apart : name ≠ parameters.freshName property.graphName := by
          rintro rfl
          rw [Parameters.get?_freshName] at bound
          cases bound
        exact (Dictionary.get?_insert_of_ne parameters apart own).trans bound

/-- The `conditions` of criteria account for the properties, `Accounts`, and bind their own names
only. -/
theorem accounts_of_criteriaOf {matcher : ExampleMatcher} {probe : Probe} {typeName : String}
    {properties : List PropertyDescription} {criteria : List (PropertyDescription × Criterion)}
    (found : criteriaOf matcher probe typeName properties = .ok criteria)
    (description : NodeDescription) (parameters : Parameters) :
    ∃ names,
      Accounts matcher probe (conditions description parameters criteria).2 properties
        (conditions description parameters criteria).1 names ∧
      (conditions description parameters criteria).2.names.Perm (names ++ parameters.names) := by
  induction properties generalizing criteria parameters with
  | nil =>
      cases found
      exact ⟨[], .none, .refl _⟩
  | cons property rest ih =>
      obtain ⟨criterion, first, later⟩ := Attempt.bind_eq_ok.mp found
      obtain ⟨others, remaining, same⟩ := Attempt.bind_eq_ok.mp later
      cases same
      rcases set : probe.field? property.field with _ | value
      · rw [set] at first
        cases first
        obtain ⟨names, accounts, bound⟩ := ih remaining parameters
        exact ⟨names, .unset set accounts, bound⟩
      rw [set] at first
      by_cases null : value = .null
      · subst null
        rw [Criterion.ofField_null] at first
        obtain ⟨names, accounts, bound⟩ := ih remaining parameters
        by_cases asked : matcher.nullHandling = .matched ∧ property.kind = .simple
        · rw [if_pos asked] at first
          cases first
          refine ⟨names, ?_, bound⟩
          have absent := Accounts.absent set asked.1 asked.2 accounts
          rwa [← property.isNull_stored, ← description.subject_eq] at absent
        · rw [if_neg asked] at first
          cases first
          have ignored : matcher.nullHandling = .ignored ∨ property.kind = .association := by
            rcases nulls : matcher.nullHandling with _ | _
            · exact .inl rfl
            · rcases kind : property.kind with _ | _
              · exact absurd ⟨nulls, kind⟩ asked
              · exact .inr rfl
          exact ⟨names, .ignored set ignored accounts, bound⟩
      · obtain ⟨⟨simple, -⟩, rfl⟩ := (Criterion.ofField_eq_ok_iff null).mp first
        obtain ⟨names, accounts, bound⟩ := ih remaining
          (parameters.insert (parameters.freshName property.graphName) value)
        -- The parameters only grow, so this value is still bound in the end.
        have own := get?_conditions description
          (parameters.get?_insert_self (parameters.freshName property.graphName) value) others
        have compared := Accounts.compared set null own accounts
        rw [← description.subject_eq] at compared
        have extended := (Dictionary.perm_names_insert
          (parameters.get?_freshName property.graphName) value).append_left names
        exact ⟨_, compared, (bound.trans extended).trans List.perm_middle⟩

/-! ## Predicates -/

/-- Every field that is set has a property, `property?`, exactly if no field is without one. -/
theorem find?_fieldNames_eq_none_iff {probe : Probe} {description : NodeDescription} :
    (probe.fieldNames.find? fun field => (description.property? field).isNone) = none ↔
      ∀ field value, probe.field? field = some value →
        ∃ property ∈ description.properties, property.field = field := by
  have described (field : String) : ¬(description.property? field).isNone = true ↔
      ∃ property ∈ description.properties, property.field = field := by
    simp [NodeDescription.property?]
  simp only [List.find?_eq_none, described, Probe.fieldNames, Dictionary.mem_names_iff,
    Dictionary.contains_iff, Probe.field?, forall_exists_index]

/-- A predicate is made, by `create`, of a description that allows for the example, and of the
criteria of its properties. -/
theorem create_eq_ok_iff {schema : Schema} {sample : Example} {predicate : Predicate} :
    create schema sample = .ok predicate ↔ ∃ description criteria,
      schema sample.probe.typeName = some description ∧ sample.AskableBy description ∧
      criteriaOf sample.matcher sample.probe description.typeName description.properties =
        .ok criteria ∧
      ⟨description, (conditions description .empty criteria).2,
        Expression.combineAll? sample.matcher.mode.connective
          (conditions description .empty criteria).1⟩ = predicate := by
  constructor
  · intro made
    obtain ⟨⟨⟩, valid, rest⟩ := Attempt.bind_eq_ok.mp made
    dsimp only at rest
    rcases known : schema sample.probe.typeName with _ | description
    · rw [known] at rest
      cases rest
    rw [known] at rest
    dsimp only at rest
    rcases described : sample.probe.fieldNames.find?
      fun field => (description.property? field).isNone with _ | field
    · rw [described] at rest
      obtain ⟨criteria, found, same⟩ := Attempt.bind_eq_ok.mp rest
      rw [criteria_eq] at found
      obtain ⟨letterCase, paths⟩ := ExampleMatcher.validate_eq_ok_iff.mp valid
      exact ⟨description, criteria, rfl, ⟨letterCase, paths,
        find?_fieldNames_eq_none_iff.mp described, exists_criteriaOf_iff.mp ⟨criteria, found⟩⟩,
        found, Attempt.pure_eq_ok.mp same⟩
    · rw [described] at rest
      cases rest
  · rintro ⟨description, criteria, known, askable, found, rfl⟩
    refine Attempt.bind_eq_ok.mpr
      ⟨(), ExampleMatcher.validate_eq_ok_iff.mpr ⟨askable.letterCase, askable.paths⟩, ?_⟩
    dsimp only
    rw [known]
    dsimp only
    rw [find?_fieldNames_eq_none_iff.mpr askable.described]
    rw [← criteria_eq] at found
    exact Attempt.bind_eq_ok.mpr ⟨criteria, found, rfl⟩

/-- The predicate of an example is made of the description of its type, and `AccountsFor` the
example. -/
theorem accountsFor_of_create {schema : Schema} {sample : Example} {predicate : Predicate}
    (made : create schema sample = .ok predicate) :
    schema sample.probe.typeName = some predicate.description ∧
      ∃ conditions names, predicate.AccountsFor sample conditions names := by
  obtain ⟨description, criteria, known, -, found, rfl⟩ := create_eq_ok_iff.mp made
  obtain ⟨names, accounts, bound⟩ := accounts_of_criteriaOf found description .empty
  rw [Dictionary.names_empty, List.append_nil] at bound
  exact ⟨known, _, names, accounts, Expression.combineAll?_eq_joined? (accounts.groupedIn _),
    bound, bound.nodup_iff.mp (Dictionary.nodup_names _)⟩

/-- An example has a predicate exactly if its type is known and it is `AskableBy` the
description. -/
theorem exists_create_iff {schema : Schema} {sample : Example} :
    (∃ predicate, create schema sample = .ok predicate) ↔ ∃ description,
      schema sample.probe.typeName = some description ∧ sample.AskableBy description := by
  constructor
  · rintro ⟨predicate, made⟩
    obtain ⟨description, -, known, askable, -⟩ := create_eq_ok_iff.mp made
    exact ⟨description, known, askable⟩
  · rintro ⟨description, known, askable⟩
    obtain ⟨criteria, found⟩ := exists_criteriaOf_iff.mpr askable.allowed
    exact ⟨_, create_eq_ok_iff.mpr ⟨description, criteria, known, askable, found, rfl⟩⟩

end Predicate

/-- An example has a predicate exactly if its options are valid, its type is known, its fields are
described and its properties can be asked for their values (`Example.AskableBy`). The predicate is
made of the description of its type, accounts for every property once (`Predicate.AccountsFor`), and
binds each value that it compares with and no other. -/
theorem predicate_accounts_for_fields (schema : Schema) (sample : Example) :
    ((∃ predicate, Predicate.create schema sample = .ok predicate) ↔ ∃ description,
      schema sample.probe.typeName = some description ∧ sample.AskableBy description) ∧
    ∀ predicate, Predicate.create schema sample = .ok predicate →
      schema sample.probe.typeName = some predicate.description ∧
      ∃ conditions names, predicate.AccountsFor sample conditions names :=
  ⟨Predicate.exists_create_iff, fun _ made => Predicate.accountsFor_of_create made⟩

/-- People, with properties whose names make the same parameter. -/
def clashingDescription : NodeDescription :=
  ⟨"Person", "Person", ["Known"],
    [(PropertyDescription.simple "full name").internalId,
      .mapped "name" "full-name", .mapped "nick" "full_name", .simple "gone",
      (PropertyDescription.simple "friend").association]⟩

/-- A person with an identifier and a nickname, and with two fields that are `null`, one of them a
friend. -/
def clashingExample : Example :=
  ⟨((((Probe.new "Person").withField "full name" (.string "7")).withField "nick" (.string "$x"
      )).withField "gone" .null).withField "friend" .null,
    (ExampleMatcher.matchingAny.includingNull).withStringMatcher .startsWith⟩

/-- In the predicate of `clashingExample` each value has a parameter of its own, and the friend is
not asked for. -/
theorem predicate_of_clashingNames :
    ∃ predicate conditions names,
      Predicate.create (fun _ => some clashingDescription) clashingExample = .ok predicate ∧
      predicate.AccountsFor clashingExample conditions names ∧
      predicate.parameters.entries =
        [("full_name", .string "7"), ("full_name_1", .string "$x")] ∧
      predicate.condition = some (.logical .or
        (.logical .or
          (.comparison .equal (.call "id" false [.variable "n"]) (.parameter "full_name"))
          (.comparison .startsWith (.property (.variable "n") "full_name")
            (.parameter "full_name_1")))
        (.unary .isNull (.property (.variable "n") "gone"))) := by
  obtain ⟨-, conditions, names, accounts⟩ :=
    (predicate_accounts_for_fields (fun _ => some clashingDescription) clashingExample).2 _ rfl
  exact ⟨_, conditions, names, rfl, accounts, rfl, rfl⟩

end CypherQuery
