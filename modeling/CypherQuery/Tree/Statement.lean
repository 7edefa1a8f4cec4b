import CypherQuery.Tree.Pattern

/-! # Statements

A `Statement` is a sequence of clauses: those that read from the graph (`Match`) and the one that
projects what was read (`Return`). -/

namespace CypherQuery

/-- A clause that looks for a pattern. -/
structure Match where
  /-- Whether the query goes on when nothing is found. -/
  optional : Bool
  /-- What is looked for. -/
  pattern : Pattern
  /-- The condition that a find must meet. -/
  condition : Option Expression
  deriving Repr

/-- The items that a query answers with. -/
structure Projection where
  /-- Whether equal rows are answered once. -/
  distinct : Bool
  /-- The items of each row. -/
  items : List Expression
  deriving Repr

/-- Which end of an order comes first. -/
inductive SortDirection where
  /-- The smallest value first. -/
  | ascending
  /-- The greatest value first. -/
  | descending
  deriving DecidableEq, Repr

/-- A criterion that rows are sorted by. Without a direction the database decides. -/
structure SortItem where
  /-- What is compared. -/
  expression : Expression
  /-- Which end comes first. -/
  direction : Option SortDirection
  deriving Repr

/-- The clause that projects what was read, with its order and its window of rows; `skip` and
`limit` are expressions, as the text has them. -/
structure Return where
  /-- The items of the answer. -/
  projection : Projection
  /-- The criteria of the order, if there is one. -/
  order : Option (List SortItem)
  /-- How many rows are left out at the start. -/
  skip : Option Expression
  /-- How many rows are answered at most. -/
  limit : Option Expression
  deriving Repr

/-- A clause. -/
inductive Clause where
  /-- A clause that reads. -/
  | reading (clause : Match)
  /-- A clause that projects. -/
  | returning (clause : Return)
  deriving Repr

/-- A statement is a sequence of clauses. -/
structure Statement where
  /-- The clauses as they are written. -/
  clauses : List Clause
  deriving Repr

/-- A sort direction as it is written. -/
def SortDirection.word : SortDirection → String
  | .ascending => "ASC"
  | .descending => "DESC"

namespace Clause

/-- The reading clause that a clause is, if it is one. -/
def reading? : Clause → Option Match
  | .reading clause => some clause
  | .returning _ => none

/-- The projecting clause that a clause is, if it is one. -/
def returning? : Clause → Option Return
  | .reading _ => none
  | .returning clause => some clause

end Clause

namespace Statement

/-- The reading clauses in order, those of which `Clause.reading?` knows. -/
def readingClauses (s : Statement) : List Match :=
  s.clauses.filterMap Clause.reading?

/-- The first projecting clause, by `Clause.returning?`. -/
def returnClause? (s : Statement) : Option Return :=
  s.clauses.findSome? Clause.returning?

end Statement

/-! ## Equality

As for patterns: trees are the `same` if they are built alike from expressions that are. -/

/-- Whether two reading clauses are the same: `Pattern.same`, and `Expression.same` of the
conditions. -/
def Match.same (a b : Match) : Bool :=
  a.optional == b.optional && a.pattern.same b.pattern &&
    samePart Expression.same a.condition b.condition

/-- Whether two sort criteria are the same: `Expression.same`, and the directions. -/
def SortItem.same (a b : SortItem) : Bool :=
  a.expression.same b.expression && a.direction == b.direction

/-- Whether two projections are the same, item by item (`sameItems`). -/
def Projection.same (a b : Projection) : Bool :=
  a.distinct == b.distinct && sameItems Expression.same a.items b.items

/-- Whether two projecting clauses are the same: `Projection.same`, criterion by criterion, and the
counts. -/
def Return.same (a b : Return) : Bool :=
  a.projection.same b.projection && samePart (sameItems SortItem.same) a.order b.order &&
    samePart Expression.same a.skip b.skip && samePart Expression.same a.limit b.limit

/-- Whether two clauses are the same: of one kind, and `same` in it. -/
def Clause.same : Clause → Clause → Bool
  | .reading a, .reading b => a.same b
  | .returning a, .returning b => a.same b
  | _, _ => false

/-- Whether two statements are the same, clause by clause (`sameItems`). -/
def Statement.same (a b : Statement) : Bool :=
  sameItems Clause.same a.clauses b.clauses

end CypherQuery
