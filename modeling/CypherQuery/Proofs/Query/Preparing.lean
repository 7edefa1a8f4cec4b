import CypherQuery.Proofs.Render.Parallel
import CypherQuery.Proofs.Traversal.Collecting
import CypherQuery.Query.Prepared

/-! # The parameters of a prepared query

Whether all parameters have values is asked of the tree, and what is run is the text. The main
statement, `PreparedQuery.preparing_binds_parameters`, is that both have the same parameters: the
`parameter` tokens that `scan` finds in the text of a prepared query are the references in the
`preorder` of the statement, at every place where an expression may stand, and each of them has a
value. -/

namespace CypherQuery

/-- The name of the parameter that a part is, if it `isIdentifier`: only those are read back from
the text as one token. -/
def Part.wordParameter? (part : Part) : Option String :=
  part.parameterName?.filter Name.isIdentifier

/-- The spelling of a `name` is no reference to a parameter. -/
theorem parameter?_name (config : RenderConfig) (own : String) :
    (Spelling.name config own).parameter? = none := by
  rw [Spelling.name]
  split
  · rfl
  · rfl

/-- The parameters among the pieces of `Parallel` lists are those of the parts that the pieces are
written for, in the same order. -/
theorem Parallel.parameters_eq {config other : RenderConfig} {parts twins : List Piece}
    {listed : List Part} (parallel : Parallel config other parts twins listed) :
    parts.filterMap Piece.parameter? = listed.filterMap Part.wordParameter? := by
  induction parallel with
  | nil => rfl
  | fixed plain _ ih => rw [List.filterMap_cons_none plain, ih]
  | gap _ ih => rw [List.filterMap_cons_none rfl, ih]
  | name own _ ih => rw [List.filterMap_cons_none (parameter?_name config own), ih]
  | listed plain _ ih =>
      rw [List.filterMap_cons, Part.wordParameter?, plain]
      exact ih
  | parameter own _ ih =>
      rw [List.filterMap_append, List.filterMap_cons, ih, Spelling.parameter,
        Part.wordParameter?, Part.parameterName?, Expression.parameterName?, Option.filter_some]
      split
      · rfl
      · rfl

/-- The `parameter` tokens of the text of a statement are the references in its `preorder` that are
identifiers, in the same order. -/
theorem parameters_scan_render {config : RenderConfig} {s : Statement} {text : String}
    (built : ∀ part ∈ s.preorder, part.callsBuilt = true)
    (rendered : Renderer.render ⟨config⟩ s = .ok text) :
    ((scan text).tokens.map Located.value).filterMap Token.parameter? =
      s.preorder.filterMap Part.wordParameter? := by
  rw [tokens_scan, pieces_render built rendered, tokensOf, List.filterMap_filterMap]
  exact (parallel_statement config config s).parameters_eq

/-- If all `referencedParameters` are identifiers, `wordParameter?` leaves none of them out. -/
theorem wordParameters_eq {s : Statement}
    (identifiers : ∀ name ∈ s.referencedParameters, Name.isIdentifier name = true) :
    s.preorder.filterMap Part.wordParameter? = s.preorder.filterMap Part.parameterName? := by
  refine List.filterMap_congr fun part member => ?_
  rw [Part.wordParameter?]
  rcases found : part.parameterName? with _ | name
  · rfl
  · have same := Part.parameterName?_eq_some_iff.mp found
    have referenced := Statement.mem_referencedParameters.mpr (same ▸ member)
    rw [Option.filter_some, if_pos (identifiers name referenced)]

/-- The references in the `preorder` of a statement are to its `referencedParameters`. -/
theorem mem_filterMap_parameterName? {s : Statement} {name : String} :
    name ∈ s.preorder.filterMap Part.parameterName? ↔ name ∈ s.referencedParameters := by
  rw [List.mem_filterMap, Statement.mem_referencedParameters]
  simp only [Part.parameterName?_eq_some_iff, exists_eq_right]

namespace PreparedQuery

variable {s : Statement} {parameters : Parameters}

/-- If a parameter has no value, `prepare` fails by `unboundParameter` with the least one
without. -/
theorem prepare_of_unbound {name : String} (referenced : name ∈ s.referencedParameters)
    (unbound : parameters.contains name = false) (shape : ResultShape) (renderer : Renderer) :
    ∃ least ∈ s.referencedParameters, parameters.contains least = false ∧
      (∀ other ∈ s.referencedParameters, parameters.contains other = false →
        other = least ∨ least < other) ∧
      prepare s parameters shape renderer = .error (.unboundParameter least) := by
  have ascending : s.referencedParameters.Pairwise (· < ·) := Dictionary.ascending_names _
  rcases found : s.referencedParameters.find? (fun name => !parameters.contains name) with _ | least
  · have bound := List.find?_eq_none.mp found name referenced
    rw [unbound] at bound
    exact absurd rfl bound
  · obtain ⟨missing, before, behind, split, earlier⟩ := List.find?_eq_some_iff_append.mp found
    refine ⟨least, List.mem_of_find?_eq_some found, by simpa using missing, ?_, ?_⟩
    · -- What stands before the first one without a value has one, and what is behind is greater.
      intro other member without
      rw [split] at member ascending
      rcases List.mem_append.mp member with sooner | later
      · have has := earlier other sooner
        rw [without] at has
        cases has
      · rcases List.mem_cons.mp later with same | last
        · exact .inl same
        · exact .inr (List.rel_of_pairwise_cons (List.pairwise_append.mp ascending).2.1 last)
    · rw [prepare, found]

/-- A query is made by `prepare` exactly if all `referencedParameters` have values and the statement
can be rendered; it is then the text with the values. -/
theorem prepare_eq_ok_iff {shape : ResultShape} {renderer : Renderer} {query : PreparedQuery} :
    prepare s parameters shape renderer = .ok query ↔
      (∀ name ∈ s.referencedParameters, parameters.contains name = true) ∧
        ∃ text, renderer.render s = .ok text ∧ query = ⟨text, parameters, shape⟩ := by
  by_cases bound : ∀ name ∈ s.referencedParameters, parameters.contains name = true
  · rw [prepare_of_contains bound]
    rcases renderer.render s with failure | text
    · exact ⟨nofun, fun ⟨_, _, rendered, _⟩ => nomatch rendered⟩
    · refine ⟨fun made => ?_, fun ⟨_, _, rendered, made⟩ => ?_⟩
      · exact ⟨bound, text, rfl, (Except.ok.inj made).symm⟩
      · rw [made, ← Except.ok.inj rendered]
        rfl
  · obtain ⟨name, referenced, unbound⟩ : ∃ name ∈ s.referencedParameters,
        parameters.contains name = false := by simpa using bound
    obtain ⟨least, -, -, -, failed⟩ := prepare_of_unbound referenced unbound shape renderer
    rw [failed]
    exact ⟨nofun, fun made => absurd made.1 bound⟩

/-- A statement that calls functions of the builders (`callsBuilt`), and whose parameters are
identifiers, is made a query by `prepare` exactly if all `referencedParameters` have values and it
can be rendered. The `parameter` tokens of the text are then its references to parameters, in the
order of writing, so that each of them has a value and no other text is taken for a reference. If a
parameter has no value, `unboundParameter` reports the least one without. -/
theorem preparing_binds_parameters (s : Statement) (parameters : Parameters) (shape : ResultShape)
    (renderer : Renderer) (built : ∀ part ∈ s.preorder, part.callsBuilt = true)
    (identifiers : ∀ name ∈ s.referencedParameters, Name.isIdentifier name = true) :
    ((∃ query, prepare s parameters shape renderer = .ok query) ↔
      (∀ name ∈ s.referencedParameters, parameters.contains name = true) ∧
        ∃ text, renderer.render s = .ok text) ∧
    (∀ query, prepare s parameters shape renderer = .ok query →
      renderer.render s = .ok query.cypher ∧
      query.parameters = parameters ∧ query.shape = shape ∧
      ((scan query.cypher).tokens.map Located.value).filterMap Token.parameter? =
        s.preorder.filterMap Part.parameterName? ∧
      ∀ name, Token.parameter name ∈ (scan query.cypher).tokens.map Located.value ↔
        name ∈ s.referencedParameters) ∧
    ((∃ name ∈ s.referencedParameters, parameters.contains name = false) →
      ∃ least ∈ s.referencedParameters, parameters.contains least = false ∧
        (∀ other ∈ s.referencedParameters, parameters.contains other = false →
          other = least ∨ least < other) ∧
        prepare s parameters shape renderer = .error (.unboundParameter least)) := by
  refine ⟨⟨?_, ?_⟩, fun query made => ?_, ?_⟩
  · rintro ⟨query, made⟩
    obtain ⟨bound, text, rendered, -⟩ := prepare_eq_ok_iff.mp made
    exact ⟨bound, text, rendered⟩
  · rintro ⟨bound, text, rendered⟩
    exact ⟨_, prepare_eq_ok_iff.mpr ⟨bound, text, rendered, rfl⟩⟩
  · obtain ⟨-, text, rendered, rfl⟩ := prepare_eq_ok_iff.mp made
    have tokens := parameters_scan_render built rendered
    rw [wordParameters_eq identifiers] at tokens
    refine ⟨rendered, rfl, rfl, tokens, fun name => ?_⟩
    rw [← mem_filterMap_parameterName?, ← tokens, List.mem_filterMap]
    simp only [Token.parameter?_eq_some_iff, exists_eq_right]
  · rintro ⟨name, referenced, unbound⟩
    exact prepare_of_unbound referenced unbound shape renderer

/-- A statement with parameters at all places, and with `$quoted`, `$n` and `$alias` in strings and
names. -/
def parameterStatement : Statement :=
  ⟨[.reading
      ⟨false,
        ⟨[.chain
          ⟨⟨some "$n", ["L"], some ⟨[⟨"k", .parameter "inNode"⟩]⟩⟩,
            [⟨⟨none, [], some ⟨[⟨"k", .parameter "inLine"⟩]⟩, .outgoing⟩,
              ⟨some "m", [], none⟩⟩]⟩]⟩,
        some (.comparison .equal (.literal (.string "it is '$quoted'")) (.parameter "inFilter"))⟩,
    .returning
      ⟨⟨false, [.aliased (.call "count" false [.parameter "inCall"]) "$alias"]⟩,
        some [⟨.parameter "inNode", none⟩, ⟨.parameter "inOrder", none⟩], none, none⟩]⟩

/-- Values for all parameters of `parameterStatement`, and for `spare`. -/
def boundParameters : Parameters :=
  .ofList (["inOrder", "inCall", "inFilter", "inLine", "inNode", "spare"].map fun name =>
    (name, .null))

/-- Values for some of the parameters of `parameterStatement`; `inFilter` and `inLine` have none. -/
def someParameters : Parameters :=
  .ofList (["inOrder", "inCall", "inNode"].map fun name => (name, .null))

/-- The statement `parameterStatement` is prepared with `boundParameters`; with `someParameters` the
lesser one of those without a value, `inFilter`, is reported. -/
theorem preparing_binds_parameterStatement :
    (∀ part ∈ parameterStatement.preorder, part.callsBuilt = true) ∧
    (∀ name ∈ parameterStatement.referencedParameters, Name.isIdentifier name = true) ∧
    (∃ query, prepare parameterStatement boundParameters .many ⟨.plain⟩ = .ok query ∧
      ((scan query.cypher).tokens.map Located.value).filterMap Token.parameter? =
        ["inNode", "inLine", "inFilter", "inCall", "inNode", "inOrder"] ∧
      Token.parameter "quoted" ∉ (scan query.cypher).tokens.map Located.value) ∧
    prepare parameterStatement someParameters .many ⟨.plain⟩ =
      .error (.unboundParameter "inFilter") := by
  have built : ∀ part ∈ parameterStatement.preorder, part.callsBuilt = true := by decide
  have referenced : parameterStatement.referencedParameters =
      ["inCall", "inFilter", "inLine", "inNode", "inOrder"] := by decide +kernel
  have identifiers : ∀ name ∈ parameterStatement.referencedParameters,
      Name.isIdentifier name = true := by
    rw [referenced]
    decide
  have all : ∀ name ∈ parameterStatement.referencedParameters,
      boundParameters.contains name = true := by
    rw [referenced]
    decide +kernel
  obtain ⟨text, rendered⟩ :
      ∃ text, Renderer.render ⟨.plain⟩ parameterStatement = .ok text := ⟨_, rfl⟩
  obtain ⟨prepares, tokens, -⟩ :=
    preparing_binds_parameters parameterStatement boundParameters .many ⟨.plain⟩ built identifiers
  obtain ⟨query, made⟩ := prepares.mpr ⟨all, text, rendered⟩
  obtain ⟨-, -, -, mentioned, carried⟩ := tokens query made
  refine ⟨built, identifiers, ⟨query, made, mentioned, fun quoted => ?_⟩, ?_⟩
  · have member := (carried "quoted").mp quoted
    rw [referenced] at member
    exact absurd member (by decide)
  · have missing : ∃ name ∈ parameterStatement.referencedParameters,
        someParameters.contains name = false := by
      rw [referenced]
      exact ⟨"inLine", by decide, by decide +kernel⟩
    have determined : ∀ name ∈ ["inCall", "inFilter", "inLine", "inNode", "inOrder"],
        someParameters.contains name = false → "inFilter" = name ∨ name < "inFilter" →
        name = "inFilter" := by
      decide +kernel
    obtain ⟨least, member, unbound, first, failed⟩ :=
      (preparing_binds_parameters parameterStatement someParameters .many ⟨.plain⟩ built
        identifiers).2.2 missing
    rw [referenced] at member first
    have same := determined least member unbound
      (first "inFilter" (by decide) (by decide +kernel))
    rw [failed, same]

end PreparedQuery

end CypherQuery
