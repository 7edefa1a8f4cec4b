import CypherQuery.Build.Condition

/-! # Clauses under construction

A clause that is still open, `OpenMatch` or `OpenReturn`, collects what later calls add to it, and
becomes a clause of a statement by `close`. -/

namespace CypherQuery

/-- A reading clause under construction. -/
structure OpenMatch where
  /-- Whether the query goes on when nothing is found. -/
  optional : Bool
  /-- What is looked for. -/
  pattern : Pattern
  /-- The condition so far. -/
  condition : Option Expression
  deriving Repr

namespace OpenMatch

/-- A reading clause without a condition. -/
def start (optional : Bool) (pattern : Pattern) : OpenMatch :=
  ⟨optional, pattern, none⟩

/-- The clause with a condition joined by `Expression.combine` to the one so far, or as the only
one. -/
def join (op : Connective) (clause : OpenMatch) (condition : Expression) : OpenMatch :=
  { clause with
    condition := some (match clause.condition with
      | some earlier => earlier.combine op condition
      | none => condition) }

/-- The clause with a further condition that must hold: `join` with the connective `and`. -/
def filter (clause : OpenMatch) (condition : Expression) : OpenMatch :=
  clause.join .and condition

/-- The clause with a condition that may hold instead: `join` with the connective `or`. -/
def alternative (clause : OpenMatch) (condition : Expression) : OpenMatch :=
  clause.join .or condition

/-- The clause with a further condition, by `filter`, if there is one. -/
def filterIfPresent (clause : OpenMatch) : Option Expression → OpenMatch
  | none => clause
  | some condition => clause.filter condition

/-- The finished clause, a `Match`. -/
def close (clause : OpenMatch) : Match :=
  ⟨clause.optional, clause.pattern, clause.condition⟩

end OpenMatch

/-- A projecting clause under construction. -/
structure OpenReturn where
  /-- Whether equal rows are answered once. -/
  distinct : Bool
  /-- The items of each row. -/
  items : List Expression
  /-- The criteria of the order so far. -/
  order : List SortItem
  /-- How many rows are left out. -/
  skip : Option Int64
  /-- How many rows are answered at most. -/
  limit : Option Int64
  deriving Repr

namespace OpenReturn

/-- A projecting clause without an order and without a window of rows. -/
def start (distinct : Bool) (items : List Expression) : OpenReturn :=
  ⟨distinct, items, [], none, none⟩

/-- The clause with further criteria behind those it has; `skipping` and `limitedTo` replace
instead. -/
def orderBy (clause : OpenReturn) (items : List SortItem) : OpenReturn :=
  { clause with order := clause.order ++ items }

/-- The clause with another number of rows left out. -/
def skipping (clause : OpenReturn) (count : Int64) : OpenReturn :=
  { clause with skip := some count }

/-- The clause with another greatest number of rows. -/
def limitedTo (clause : OpenReturn) (count : Int64) : OpenReturn :=
  { clause with limit := some count }

/-- A number of rows as an expression, an `integer` literal. -/
def countLiteral (count : Int64) : Expression :=
  .literal (.integer count)

/-- The finished clause; without criteria there is no order, `none`. -/
def close (clause : OpenReturn) : Return :=
  { projection := ⟨clause.distinct, clause.items⟩
    order := if clause.order.isEmpty then none else some clause.order
    skip := clause.skip.map countLiteral
    limit := clause.limit.map countLiteral }

end OpenReturn

namespace Statement

/-- The statement of reading clauses and the projecting clause behind them. -/
def ofClauses (reading : List Match) (returning : Return) : Statement :=
  ⟨reading.map .reading ++ [.returning returning]⟩

end Statement

end CypherQuery
