import CypherQuery.Proofs.Example.Binding

/-! # Queries by example agree

All queries about an example read what its predicate looks for, and differ only in what they project
of it. The main statement, `inquiries_agree`, is that the queries without an order fail together,
`FailTogether`, or share the text that reads and the parameters, `Share`; that those with an order
or a page continue the same text; and that each query binds exactly what its statement refers to. -/

namespace CypherQuery

namespace ExampleQueries

/-- The query that answers an inquiry, by `findOne` and its siblings; of the two queries of
`findPage`, the one for the finds. -/
def answer (queries : ExampleQueries) (sample : Example) :
    Inquiry → Except QueryError PreparedQuery
  | .one => queries.findOne sample
  | .all => queries.findAll sample
  | .sorted sort => queries.findAllSorted sample sort
  | .page request => (queries.findPage sample request).map PagedQuery.content
  | .count => queries.count sample
  | .presence => queries.findAny sample

/-- The text `reading`, the separator of clauses, and the text `projecting`. -/
def joined (queries : ExampleQueries) (reading projecting : String) : String :=
  reading ++ String.ofList queries.renderer.config.clauseSeparator ++ projecting

/-- The queries about an example fail: those without an order all with the one `failure`. -/
structure FailTogether (queries : ExampleQueries) (sample : Example) (failure : QueryError) :
    Prop where
  /-- The only find. -/
  one : queries.findOne sample = .error failure
  /-- All finds. -/
  all : queries.findAll sample = .error failure
  /-- The number of finds. -/
  count : queries.count sample = .error failure
  /-- Whether there is a find. -/
  presence : queries.findAny sample = .error failure
  /-- All finds in an order. -/
  sorted : ∀ sort query, queries.findAllSorted sample sort ≠ .ok query
  /-- A page of finds. -/
  page : ∀ request pages, queries.findPage sample request ≠ .ok pages

/-- The queries about an example share the text `reading` and the parameters. Those without an order
differ in the projection that is joined to it; those with one go on with `more` behind
`RETURN *`. -/
structure Share (queries : ExampleQueries) (sample : Example) (reading : String)
    (parameters : Parameters) : Prop where
  /-- The only find. -/
  one : queries.findOne sample = .ok ⟨queries.joined reading "RETURN *", parameters, .single⟩
  /-- All finds. -/
  all : queries.findAll sample = .ok ⟨queries.joined reading "RETURN *", parameters, .many⟩
  /-- The number of finds. -/
  count : queries.count sample = .ok ⟨queries.joined reading "RETURN count(*)", parameters, .count⟩
  /-- Whether there is a find. -/
  presence : queries.findAny sample =
    .ok ⟨queries.joined reading "RETURN * LIMIT 1", parameters, .presence⟩
  /-- All finds in an order. -/
  sorted : ∀ sort query, queries.findAllSorted sample sort = .ok query →
    ∃ more, query = ⟨queries.joined reading "RETURN *" ++ more, parameters, .many⟩
  /-- A page of finds, with their number. -/
  page : ∀ request pages, queries.findPage sample request = .ok pages →
    (∃ more, pages.content = ⟨queries.joined reading "RETURN *" ++ more, parameters, .many⟩) ∧
      queries.count sample = .ok pages.count

end ExampleQueries

/-! ## Texts -/

/-- The text of a statement with one reading and one projecting clause: that of the reading clause
on its own, the `clauseSeparator`, and that of the projecting one. -/
theorem Renderer.render_reading_returning (config : RenderConfig) (clause : Match)
    (returning : Return) :
    render ⟨config⟩ (.ofClauses [clause] returning) = do
      let reading ← render ⟨config⟩ ⟨[.reading clause]⟩
      let projecting ← (Print.returning config returning).map String.ofList
      return reading ++ String.ofList config.clauseSeparator ++ projecting := by
  have alone : Print.statement config ⟨[.reading clause]⟩ = Print.reading config clause := rfl
  have both : Print.statement config (.ofClauses [clause] returning) = do
      let reading ← Print.reading config clause
      let projecting ← Print.returning config returning
      return reading ++ (config.clauseSeparator ++ projecting) := rfl
  rw [render_eq_print, render_eq_print, alone, both]
  rcases Print.reading config clause with failure | reading
  · rfl
  · rcases Print.returning config returning with failure | projecting
    · rfl
    · refine congrArg Except.ok ?_
      rw [String.ofList_append, String.ofList_append, String.append_assoc]

/-- A clause that projects the star alone is printed as `RETURN *` with `more` behind it. -/
theorem Print.exists_returning_star (config : RenderConfig) {clause : Return} {text : List Char}
    (whole : clause.projection = ⟨false, [.asterisk]⟩)
    (printed : Print.returning config clause = .ok text) :
    ∃ more, text = "RETURN *".toList ++ more := by
  rw [Print.returning, whole] at printed
  obtain ⟨items, star, printed⟩ := Attempt.bind_eq_ok.mp printed
  obtain ⟨sorted, -, printed⟩ := Attempt.bind_eq_ok.mp printed
  obtain ⟨skipped, -, printed⟩ := Attempt.bind_eq_ok.mp printed
  obtain ⟨limited, -, printed⟩ := Attempt.bind_eq_ok.mp printed
  cases star
  cases printed
  exact ⟨sorted ++ (skipped ++ limited), rfl⟩

/-! ## Queries without an order -/

/-- What an inquiry without an order projects, as text; `sorted` and `page` have no such text. -/
inductive Inquiry.Projection : Inquiry → String → Prop where
  /-- The only find. -/
  | one : Projection .one "RETURN *"
  /-- All finds. -/
  | all : Projection .all "RETURN *"
  /-- The number of finds. -/
  | count : Projection .count "RETURN count(*)"
  /-- Whether there is a find. -/
  | presence : Projection .presence "RETURN * LIMIT 1"

/-- The statement of an inquiry with a `Projection` is the `reading` clause of the predicate with a
clause that is printed as its text under all options. -/
theorem Inquiry.Projection.exists_statement {inquiry : Inquiry} {text : String}
    (projection : inquiry.Projection text) (predicate : Predicate) :
    ∃ clause, inquiry.statement predicate = .ok (.ofClauses [predicate.reading] clause) ∧
      ∀ config, (Print.returning config clause).map String.ofList = .ok text := by
  rcases projection with _ | _ | _ | _
  case one | all | presence =>
    rw [statement, ExampleQueries.returningAll, predicate.returning_eq]
    exact ⟨_, rfl, fun config => rfl⟩
  case count =>
    rw [statement, predicate.returning_eq]
    exact ⟨_, rfl, fun config => rfl⟩

/-! ## Agreement -/

namespace ExampleQueries

variable {queries : ExampleQueries} {sample : Example} {predicate : Predicate}

/-- An example without a predicate makes `ask` fail for every inquiry. -/
theorem ask_of_create_error {failure : ExampleError}
    (failed : Predicate.create queries.schema sample = .error failure) (inquiry : Inquiry) :
    queries.ask sample inquiry = .error (.sample failure) := by
  rw [ask, ExampleQueries.predicate, failed]
  rfl

/-- The query of an inquiry is the text of its statement, with the parameters of the predicate:
`prepare` finds all of them bound. -/
theorem ask_of_create (made : Predicate.create queries.schema sample = .ok predicate)
    {inquiry : Inquiry} {s : Statement} (asked : inquiry.statement predicate = .ok s) :
    queries.ask sample inquiry =
      ((queries.renderer.render s).map fun cypher =>
        PreparedQuery.mk cypher predicate.parameters inquiry.shape).mapError .render := by
  obtain ⟨-, conditions, names, accountsFor⟩ := Predicate.accountsFor_of_create made
  have bound := Inquiry.referencedParameters_statement asked accountsFor
  rw [← PreparedQuery.prepare_of_bound bound, ask, ExampleQueries.predicate, made]
  exact congrArg (fun result : Except ExampleError Statement =>
    (result.mapError QueryError.sample).bind fun s =>
      queries.prepare s predicate inquiry.shape) asked

/-- The text of an inquiry is that of the `reading` clause, joined with that of the projecting one,
and it fails with the former. -/
theorem ask_eq_text (made : Predicate.create queries.schema sample = .ok predicate)
    {inquiry : Inquiry} {clause : Return}
    (asked : inquiry.statement predicate = .ok (.ofClauses [predicate.reading] clause)) :
    queries.ask sample inquiry = (do
      let reading ← queries.renderer.render ⟨[.reading predicate.reading]⟩
      let projecting ← (Print.returning queries.renderer.config clause).map String.ofList
      return PreparedQuery.mk (queries.joined reading projecting) predicate.parameters
        inquiry.shape).mapError .render := by
  rw [ask_of_create made asked, Renderer.render_reading_returning]
  rcases queries.renderer.render ⟨[.reading predicate.reading]⟩ with failure | reading
  · rfl
  · rcases Print.returning queries.renderer.config clause with failure | projecting
    · rfl
    · rfl

/-- If the `reading` clause cannot be rendered, no inquiry has a query. -/
theorem ask_of_reading_error (made : Predicate.create queries.schema sample = .ok predicate)
    {failure : RenderError}
    (failed : queries.renderer.render ⟨[.reading predicate.reading]⟩ = .error failure)
    {inquiry : Inquiry} {s : Statement} (asked : inquiry.statement predicate = .ok s) :
    queries.ask sample inquiry = .error (.render failure) := by
  obtain ⟨clause, rfl, -⟩ := Inquiry.exists_of_statement asked
  rw [ask_eq_text made asked, failed]
  rfl

/-- If the `reading` clause can be rendered, an inquiry with a `Projection` has a query: its text is
`joined` to that of the clause. -/
theorem ask_of_projection (made : Predicate.create queries.schema sample = .ok predicate)
    {reading : String}
    (rendered : queries.renderer.render ⟨[.reading predicate.reading]⟩ = .ok reading)
    {inquiry : Inquiry} {text : String} (projection : inquiry.Projection text) :
    queries.ask sample inquiry =
      .ok ⟨queries.joined reading text, predicate.parameters, inquiry.shape⟩ := by
  obtain ⟨clause, asked, printed⟩ := projection.exists_statement predicate
  rw [ask_eq_text made asked, rendered, printed]
  rfl

/-- A query of `ask` comes from a predicate and from a statement. -/
theorem exists_of_ask {inquiry : Inquiry} {query : PreparedQuery}
    (asked : queries.ask sample inquiry = .ok query) : ∃ predicate s,
      Predicate.create queries.schema sample = .ok predicate ∧
        inquiry.statement predicate = .ok s := by
  rcases made : Predicate.create queries.schema sample with failure | predicate
  · rw [ask_of_create_error made] at asked
    cases asked
  · obtain ⟨twin, same, whole⟩ := Attempt.bind_eq_ok.mp asked
    rw [ExampleQueries.predicate, made] at same
    cases same
    rcases stated : inquiry.statement predicate with failure | s
    · rw [stated] at whole
      cases whole
    · exact ⟨predicate, s, rfl, stated⟩

/-- If the `reading` clause can be rendered, the query of an inquiry whose `items` are the star goes
on with `RETURN *`. -/
theorem exists_of_ask_whole (made : Predicate.create queries.schema sample = .ok predicate)
    {reading : String}
    (rendered : queries.renderer.render ⟨[.reading predicate.reading]⟩ = .ok reading)
    {inquiry : Inquiry} (whole : inquiry.items = [.asterisk]) {query : PreparedQuery}
    (asked : queries.ask sample inquiry = .ok query) :
    ∃ more, query =
      ⟨queries.joined reading "RETURN *" ++ more, predicate.parameters, inquiry.shape⟩ := by
  obtain ⟨twin, s, same, stated⟩ := exists_of_ask asked
  rw [made] at same
  cases same
  obtain ⟨clause, rfl, projects⟩ := Inquiry.exists_of_statement stated
  rw [ask_eq_text made stated, rendered] at asked
  rcases printed : Print.returning queries.renderer.config clause.close with failure | text
  · rw [printed] at asked
    cases asked
  · rw [printed] at asked
    cases asked
    have items : clause.close.projection = ⟨false, [.asterisk]⟩ := by
      rw [OpenReturn.close, projects.distinct, projects.items, whole]
    obtain ⟨more, rfl⟩ := Print.exists_returning_star _ items printed
    refine ⟨String.ofList more, ?_⟩
    simp only [joined, String.ofList_append, String.ofList_toList, String.append_assoc]

/-- The queries of `findPage` are those that `ask` has for `Inquiry.page` and `Inquiry.count`. -/
theorem findPage_eq_ok {request : PageRequest} {pages : PagedQuery}
    (found : queries.findPage sample request = .ok pages) :
    queries.ask sample (.page request) = .ok pages.content ∧
      queries.ask sample .count = .ok pages.count := by
  rw [findPage_eq] at found
  obtain ⟨content, first, found⟩ := Attempt.bind_eq_ok.mp found
  obtain ⟨count, second, found⟩ := Attempt.bind_eq_ok.mp found
  cases found
  exact ⟨first, second⟩

/-- If `ask` fails alike for every inquiry with a `Projection`, and has no query for the others, the
queries `FailTogether`. -/
theorem failTogether_of_ask {failure : QueryError}
    (plain : ∀ {inquiry text}, Inquiry.Projection inquiry text →
      queries.ask sample inquiry = .error failure)
    (none : ∀ inquiry query, queries.ask sample inquiry ≠ .ok query) :
    queries.FailTogether sample failure where
  one := (queries.findOne_eq sample).trans (plain .one)
  all := (queries.findAll_eq sample).trans (plain .all)
  count := (queries.count_eq sample).trans (plain .count)
  presence := (queries.findAny_eq sample).trans (plain .presence)
  sorted := fun sort query found =>
    none (.sorted sort) query ((queries.findAllSorted_eq sample sort).symm.trans found)
  page := fun request pages found => none (.page request) pages.content (findPage_eq_ok found).1

/-- If the `reading` clause can be rendered, the queries `Share` its text and the parameters of the
predicate. -/
theorem share_of_reading (made : Predicate.create queries.schema sample = .ok predicate)
    {reading : String}
    (rendered : queries.renderer.render ⟨[.reading predicate.reading]⟩ = .ok reading) :
    queries.Share sample reading predicate.parameters where
  one := (queries.findOne_eq sample).trans (ask_of_projection made rendered .one)
  all := (queries.findAll_eq sample).trans (ask_of_projection made rendered .all)
  count := (queries.count_eq sample).trans (ask_of_projection made rendered .count)
  presence := (queries.findAny_eq sample).trans (ask_of_projection made rendered .presence)
  sorted := fun sort _ found =>
    exists_of_ask_whole made rendered rfl ((queries.findAllSorted_eq sample sort).symm.trans found)
  page := fun _ _ found =>
    ⟨exists_of_ask_whole made rendered rfl (findPage_eq_ok found).1,
      (queries.count_eq sample).trans (findPage_eq_ok found).2⟩

/-- The queries about an example `FailTogether`, or `Share` the text that reads and the parameters:
what decides is whether there is a predicate whose `reading` clause can be rendered. -/
theorem failTogether_or_share (queries : ExampleQueries) (sample : Example) :
    (∃ failure, queries.FailTogether sample failure) ∨
      ∃ predicate reading, Predicate.create queries.schema sample = .ok predicate ∧
        queries.renderer.render ⟨[.reading predicate.reading]⟩ = .ok reading ∧
        queries.Share sample reading predicate.parameters := by
  rcases made : Predicate.create queries.schema sample with failure | predicate
  · refine .inl ⟨.sample failure, failTogether_of_ask (fun _ => ask_of_create_error made _) ?_⟩
    intro inquiry query found
    rw [ask_of_create_error made] at found
    cases found
  · rcases rendered : queries.renderer.render ⟨[.reading predicate.reading]⟩ with failure | reading
    · refine .inl ⟨.render failure, failTogether_of_ask (fun projection => ?_) ?_⟩
      · obtain ⟨clause, stated, -⟩ := projection.exists_statement predicate
        exact ask_of_reading_error made rendered stated
      · intro inquiry query found
        obtain ⟨twin, s, same, stated⟩ := exists_of_ask found
        rw [made] at same
        cases same
        rw [ask_of_reading_error made rendered stated] at found
        cases found
    · exact .inr ⟨predicate, reading, rfl, rendered, share_of_reading made rendered⟩

/-! ## Bound parameters -/

/-- The query of an inquiry is prepared from a statement whose `referencedParameters` are the names
of the parameters that the query binds. -/
theorem ask_binds {inquiry : Inquiry} {query : PreparedQuery}
    (asked : queries.ask sample inquiry = .ok query) : ∃ predicate s,
      Predicate.create queries.schema sample = .ok predicate ∧
      inquiry.statement predicate = .ok s ∧
      PreparedQuery.prepare s predicate.parameters inquiry.shape queries.renderer = .ok query ∧
      s.referencedParameters = query.parameters.names := by
  obtain ⟨predicate, s, made, stated⟩ := exists_of_ask asked
  obtain ⟨-, conditions, names, accountsFor⟩ := Predicate.accountsFor_of_create made
  have bound := Inquiry.referencedParameters_statement stated accountsFor
  have prepared := PreparedQuery.prepare_of_bound bound inquiry.shape queries.renderer
  rw [ask_of_create made stated] at asked
  rcases rendered : queries.renderer.render s with failure | cypher
  · rw [rendered] at asked
    cases asked
  · rw [rendered] at asked prepared
    cases asked
    exact ⟨predicate, s, made, stated, prepared, bound⟩

/-- No inquiry fails by `unboundParameter`. -/
theorem ask_ne_unbound (queries : ExampleQueries) (sample : Example) (inquiry : Inquiry)
    (name : String) : queries.ask sample inquiry ≠ .error (.render (.unboundParameter name)) := by
  intro asked
  rcases made : Predicate.create queries.schema sample with failure | predicate
  · rw [ask_of_create_error made] at asked
    cases asked
  rcases stated : inquiry.statement predicate with failure | s
  · rw [ask, ExampleQueries.predicate, made] at asked
    rcases Attempt.bind_eq_error.mp asked with ⟨⟨⟩⟩ | ⟨twin, ⟨⟩, whole⟩
    rw [stated] at whole
    cases whole
  rw [ask_of_create made stated] at asked
  rcases rendered : queries.renderer.render s with failure | cypher
  · rw [rendered] at asked
    cases asked
    obtain ⟨clause, rfl, projects⟩ := Inquiry.exists_of_statement stated
    -- Rendering a statement of this form only fails by names, numbers and patterns.
    have items : clause.close.projection.items ≠ [] := by
      rw [OpenReturn.close, projects.items]
      rcases inquiry with _ | _ | _ | _ | _ | _
      all_goals exact List.cons_ne_nil _ _
    have content := Renderer.render_failsByContent queries.renderer.config
      (List.cons_ne_nil predicate.reading []) items clause.order_close_ne _ rendered
    cases content
  · rw [rendered] at asked
    cases asked

/-- An `answer` that is a query is the one that `ask` has for the inquiry. -/
theorem ask_of_answer {inquiry : Inquiry} {query : PreparedQuery}
    (answered : queries.answer sample inquiry = .ok query) :
    queries.ask sample inquiry = .ok query := by
  rcases inquiry with _ | _ | sort | request | _ | _
  case one => exact (queries.findOne_eq sample).symm.trans answered
  case all => exact (queries.findAll_eq sample).symm.trans answered
  case sorted => exact (queries.findAllSorted_eq sample sort).symm.trans answered
  case page =>
    rw [answer] at answered
    rcases found : queries.findPage sample request with failure | pages
    · rw [found] at answered
      cases answered
    · rw [found] at answered
      cases answered
      exact (findPage_eq_ok found).1
  case count => exact (queries.count_eq sample).symm.trans answered
  case presence => exact (queries.findAny_eq sample).symm.trans answered

/-- An `answer` that fails does so by `ask` for some inquiry, which for a page may be that for the
number of finds. -/
theorem exists_ask_of_answer_error {inquiry : Inquiry} {failure : QueryError}
    (answered : queries.answer sample inquiry = .error failure) :
    ∃ other, queries.ask sample other = .error failure := by
  rcases inquiry with _ | _ | sort | request | _ | _
  case one => exact ⟨_, (queries.findOne_eq sample).symm.trans answered⟩
  case all => exact ⟨_, (queries.findAll_eq sample).symm.trans answered⟩
  case sorted => exact ⟨_, (queries.findAllSorted_eq sample sort).symm.trans answered⟩
  case page =>
    rw [answer, findPage_eq] at answered
    rcases content : queries.ask sample (.page request) with failure | query
    · rw [content] at answered
      cases answered
      exact ⟨_, content⟩
    · rcases count : queries.ask sample .count with failure | total
      · rw [content, count] at answered
        cases answered
        exact ⟨_, count⟩
      · rw [content, count] at answered
        cases answered
  case count => exact ⟨_, (queries.count_eq sample).symm.trans answered⟩
  case presence => exact ⟨_, (queries.findAny_eq sample).symm.trans answered⟩

end ExampleQueries

/-- The queries about an example agree. Either those without an order all fail with one error, and
the others fail too (`FailTogether`), or they `Share` the text that reads what the predicate looks
for and the parameters, and those with an order or a page go on with a star; the number of finds of
a page is asked for as always. Every query is prepared from a statement whose `referencedParameters`
are those that it binds, and no query fails by `unboundParameter`. -/
theorem inquiries_agree (queries : ExampleQueries) (sample : Example) :
    ((∃ failure, queries.FailTogether sample failure) ∨
      ∃ predicate reading, Predicate.create queries.schema sample = .ok predicate ∧
        queries.renderer.render ⟨[.reading predicate.reading]⟩ = .ok reading ∧
        queries.Share sample reading predicate.parameters) ∧
    (∀ inquiry query, queries.answer sample inquiry = .ok query → ∃ predicate s,
      Predicate.create queries.schema sample = .ok predicate ∧
      inquiry.statement predicate = .ok s ∧
      PreparedQuery.prepare s predicate.parameters inquiry.shape queries.renderer = .ok query ∧
      s.referencedParameters = query.parameters.names) ∧
    ∀ inquiry name, queries.answer sample inquiry ≠ .error (.render (.unboundParameter name)) := by
  refine ⟨queries.failTogether_or_share sample, fun inquiry query answered =>
    ExampleQueries.ask_binds (ExampleQueries.ask_of_answer answered), ?_⟩
  intro inquiry name answered
  obtain ⟨other, asked⟩ := ExampleQueries.exists_ask_of_answer_error answered
  exact queries.ask_ne_unbound sample other name asked

/-- Queries about people, rendered `multiline`, with each clause on a line of its own. -/
def startsWithQueries : ExampleQueries :=
  ⟨fun _ => some ⟨"Person", "Person", [], [.simple "name"]⟩, ⟨.multiline⟩⟩

/-- Somebody whose name starts with `A`. -/
def startsWithExample : Example :=
  ⟨(Probe.new "Person").withField "name" (.string "A"),
    ExampleMatcher.matchingAll.withStringMatcher .startsWith⟩

/-- The queries about `startsWithExample` `Share` the text that reads, a `MATCH` with the condition
on `$name`, which has the value `A`. -/
theorem queries_share_reading :
    ∃ parameters, startsWithQueries.Share startsWithExample
        "MATCH (n:Person) WHERE n.name STARTS WITH $name" parameters ∧
      parameters.entries = [("name", .string "A")] := by
  obtain ⟨failing | sharing, -, -⟩ := inquiries_agree startsWithQueries startsWithExample
  · obtain ⟨failure, fails⟩ := failing
    cases fails.one
  · obtain ⟨predicate, reading, made, rendered, share⟩ := sharing
    cases made
    cases rendered
    exact ⟨_, share, rfl⟩

end CypherQuery
