import CypherQuery.Example.Queries

/-! # Inquiries

The queries by example differ in the statement that they make of a predicate. Apart from that, each
of them derives the predicate, makes the statement and prepares it. So all of them are `ask` of an
`Inquiry` (`findOne_eq`, `findAll_eq`, `findAllSorted_eq`, `count_eq`, `findAny_eq`), and a page,
`findPage_eq`, is two of them. -/

namespace CypherQuery

/-- What can be asked about the finds of an example. -/
inductive Inquiry where
  /-- The only find. -/
  | one
  /-- All finds. -/
  | all
  /-- All finds in an order. -/
  | sorted (sort : SortOrders)
  /-- A page of finds. -/
  | page (request : PageRequest)
  /-- The number of finds. -/
  | count
  /-- Whether there is a find. -/
  | presence
  deriving DecidableEq, Repr

namespace Inquiry

/-- The statement that asks about the finds of a predicate. It is made of `returningAll`, except for
`count`, which returns `count(*)`. -/
def statement (predicate : Predicate) : Inquiry → Except ExampleError Statement
  | one | all => .ok (ExampleQueries.returningAll predicate).build
  | sorted sort => do
      let items ← sort.toSortItems predicate.description
      return ((ExampleQueries.returningAll predicate).orderBy items).build
  | page request => do
      let stage ←
        (ExampleQueries.returningAll predicate).addPaging predicate.description request
      return stage.build
  | count =>
      .ok ((predicate.applyTo matchRoot).returning false [Expression.asterisk.count]).build
  | presence => .ok ((ExampleQueries.returningAll predicate).limit 1).build

/-- What is expected of the answer, as a `ResultShape`. -/
def shape : Inquiry → ResultShape
  | one => .single
  | all | sorted _ | page _ => .many
  | count => .count
  | presence => .presence

end Inquiry

namespace ExampleQueries

/-- The query of an inquiry about an example: the predicate of the example, the `statement` of the
inquiry, and that statement prepared. -/
def ask (queries : ExampleQueries) (sample : Example) (inquiry : Inquiry) :
    Except QueryError PreparedQuery := do
  let predicate ← queries.predicate sample
  let statement ← (inquiry.statement predicate).mapError .sample
  queries.prepare statement predicate inquiry.shape

variable (queries : ExampleQueries) (sample : Example)

/-- An inquiry whose `statement` cannot fail fails only by the predicate or by its text. -/
theorem ask_of_statement (inquiry : Inquiry) (statement : Predicate → Statement)
    (stated : ∀ predicate, inquiry.statement predicate = .ok (statement predicate)) :
    queries.ask sample inquiry = (do
      let predicate ← queries.predicate sample
      queries.prepare (statement predicate) predicate inquiry.shape) := by
  refine bind_congr fun predicate => ?_
  rw [stated]
  rfl

/-- The query `findOne` is `ask` of `Inquiry.one`. -/
theorem findOne_eq : queries.findOne sample = queries.ask sample .one :=
  (queries.ask_of_statement sample .one (fun predicate =>
    (returningAll predicate).build) fun _ => rfl).symm

/-- The query `findAll` is `ask` of `Inquiry.all`. -/
theorem findAll_eq : queries.findAll sample = queries.ask sample .all :=
  (queries.ask_of_statement sample .all (fun predicate =>
    (returningAll predicate).build) fun _ => rfl).symm

/-- The query `count` is `ask` of `Inquiry.count`. -/
theorem count_eq : queries.count sample = queries.ask sample .count :=
  (queries.ask_of_statement sample .count (fun predicate =>
    ((predicate.applyTo matchRoot).returning false [Expression.asterisk.count]).build)
    fun _ => rfl).symm

/-- The query `findAny` is `ask` of `Inquiry.presence`. -/
theorem findAny_eq : queries.findAny sample = queries.ask sample .presence :=
  (queries.ask_of_statement sample .presence (fun predicate =>
    ((returningAll predicate).limit 1).build) fun _ => rfl).symm

/-- The query `findAllSorted` is `ask` of `Inquiry.sorted`. -/
theorem findAllSorted_eq (sort : SortOrders) :
    queries.findAllSorted sample sort = queries.ask sample (.sorted sort) := by
  rw [findAllSorted, ask]
  congr 1
  funext predicate
  rw [Inquiry.statement]
  rcases sort.toSortItems predicate.description with failure | items
  · rfl
  · rfl

/-- The queries of `findPage` are `ask` of `Inquiry.page` and then `ask` of `Inquiry.count`. -/
theorem findPage_eq (request : PageRequest) :
    queries.findPage sample request = do
      let content ← queries.ask sample (.page request)
      let count ← queries.ask sample .count
      return ⟨content, count, request.number, request.size⟩ := by
  rw [findPage, ask, ← count_eq]
  simp only [bind_assoc]
  congr 1
  funext predicate
  rw [Inquiry.statement]
  rcases (returningAll predicate).addPaging predicate.description request with failure | stage
  · rfl
  · rfl

end ExampleQueries

end CypherQuery
