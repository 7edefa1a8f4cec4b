import CypherQuery.Example.Paging
import CypherQuery.Query.Prepared

/-! # Queries by example

The queries that look for what resembles an example: all finds, one find, a page of finds, their
number, and whether there is any. Each is made from the `Predicate` of the example and prepared with
its parameters. -/

namespace CypherQuery

/-- Why an example makes no query. -/
inductive QueryError where
  /-- The example, the order or the page is at fault. -/
  | sample (error : ExampleError)
  /-- The statement cannot be made a query. -/
  | render (error : RenderError)
  deriving DecidableEq, Repr

/-- The query for a page of finds, and the one for their number. -/
structure PagedQuery where
  /-- The finds of the page. -/
  content : PreparedQuery
  /-- The number of all finds. -/
  count : PreparedQuery
  /-- The number of the page. -/
  page : UInt64
  /-- The number of rows of a page; zero if there are no pages. -/
  size : UInt64

/-- The number of pages that hold `total` finds. Without pages, all finds together make one. -/
def PagedQuery.totalPages (query : PagedQuery) (total : UInt64) : UInt64 :=
  if query.size = 0 then (if total = 0 then 0 else 1)
  else total / query.size + (if total % query.size = 0 then 0 else 1)

/-- What queries by example are made with. -/
structure ExampleQueries where
  /-- The descriptions of types. -/
  schema : Schema
  /-- The renderer. -/
  renderer : Renderer

namespace ExampleQueries

/-- The predicate of an example, `Predicate.create`; its errors are those of a sample. -/
def predicate (queries : ExampleQueries) (sample : Example) : Except QueryError Predicate :=
  (Predicate.create queries.schema sample).mapError .sample

/-- The query of a statement with the parameters of a predicate, `PreparedQuery.prepare`. -/
def prepare (queries : ExampleQueries) (statement : Statement) (predicate : Predicate)
    (shape : ResultShape) : Except QueryError PreparedQuery :=
  (PreparedQuery.prepare statement predicate.parameters shape queries.renderer).mapError .render

/-- The finds of a predicate, whole: a reading clause for it, and the `asterisk` as the only
item. -/
def returningAll (predicate : Predicate) : Projecting :=
  (predicate.applyTo matchRoot).returning false [.asterisk]

/-- The find of an example, of which there is at most one: `returningAll`, as a `single` row. -/
def findOne (queries : ExampleQueries) (sample : Example) : Except QueryError PreparedQuery := do
  let predicate ← queries.predicate sample
  queries.prepare (returningAll predicate).build predicate .single

/-- All finds of an example: `returningAll`, as `many` rows. -/
def findAll (queries : ExampleQueries) (sample : Example) : Except QueryError PreparedQuery := do
  let predicate ← queries.predicate sample
  queries.prepare (returningAll predicate).build predicate .many

/-- All finds of an example in an order: `returningAll` with its `toSortItems`. -/
def findAllSorted (queries : ExampleQueries) (sample : Example) (sort : SortOrders) :
    Except QueryError PreparedQuery := do
  let predicate ← queries.predicate sample
  let items ← (sort.toSortItems predicate.description).mapError .sample
  queries.prepare ((returningAll predicate).orderBy items).build predicate .many

/-- The number of finds of an example: `count(*)`. -/
def count (queries : ExampleQueries) (sample : Example) : Except QueryError PreparedQuery := do
  let predicate ← queries.predicate sample
  let stage := (predicate.applyTo matchRoot).returning false [Expression.asterisk.count]
  queries.prepare stage.build predicate .count

/-- Whether an example has a find: `returningAll` with a limit of one row. -/
def findAny (queries : ExampleQueries) (sample : Example) : Except QueryError PreparedQuery := do
  let predicate ← queries.predicate sample
  queries.prepare ((returningAll predicate).limit 1).build predicate .presence

/-- A page of the finds of an example, by `addPaging`, with the `count` of all of them. -/
def findPage (queries : ExampleQueries) (sample : Example) (request : PageRequest) :
    Except QueryError PagedQuery := do
  let predicate ← queries.predicate sample
  let stage ←
    ((returningAll predicate).addPaging predicate.description request).mapError .sample
  let content ← queries.prepare stage.build predicate .many
  let count ← queries.count sample
  return ⟨content, count, request.number, request.size⟩

end ExampleQueries

end CypherQuery
