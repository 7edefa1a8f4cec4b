import CypherQuery.Tree.Statement

/-! # Composing expressions

Operations that put parentheses around an operand, by `grouped` and `groupedIn`, where the written
text would otherwise be read with another grouping, and the calls of the functions that queries
commonly use. -/

namespace CypherQuery.Expression

/-- Parentheses, by `nested`, around what binds more loosely than a comparison. -/
def grouped : Expression → Expression
  | e@(.logical _ _ _) | e@(.comparison _ _ _) | e@(.unary .not _) => .nested e
  | e => e

/-- Parentheses, by `nested`, around a combination of conditions with another connective than
`op`. -/
def groupedIn (op : Connective) : Expression → Expression
  | e@(.logical own _ _) => if own = op then e else .nested e
  | e => e

/-- A comparison of two expressions, each of them `grouped`. -/
def compare (op : Comparison) (left right : Expression) : Expression :=
  .comparison op left.grouped right.grouped

/-- The condition that an expression, `grouped`, has no value. -/
def isNull (e : Expression) : Expression :=
  .unary .isNull e.grouped

/-- The condition that an expression, `grouped`, has a value. -/
def isNotNull (e : Expression) : Expression :=
  .unary .isNotNull e.grouped

/-- A combination of two conditions, each of them `groupedIn` the connective. -/
def combine (op : Connective) (left right : Expression) : Expression :=
  .logical op (left.groupedIn op) (right.groupedIn op)

/-- The condition that two conditions hold: `combine` with the connective `and`. -/
def and (left right : Expression) : Expression :=
  combine .and left right

/-- The condition that at least one of two conditions holds: `combine` with the connective `or`. -/
def or (left right : Expression) : Expression :=
  combine .or left right

/-- The condition that exactly one of two conditions holds: `combine` with the connective `xor`. -/
def xor (left right : Expression) : Expression :=
  combine .xor left right

/-- The condition that a condition does not hold; a `logical` one is put into parentheses. -/
def negation : Expression → Expression
  | e@(.logical _ _ _) => .unary .not (.nested e)
  | e => .unary .not e

/-! ## Sort criteria -/

/-- Sorting by an expression, the smallest value first. -/
def ascending (e : Expression) : SortItem :=
  ⟨e, some .ascending⟩

/-- Sorting by an expression, the greatest value first. -/
def descending (e : Expression) : SortItem :=
  ⟨e, some .descending⟩

/-- Sorting by an expression in the order that the database prefers. -/
def unordered (e : Expression) : SortItem :=
  ⟨e, none⟩

/-! ## Functions -/

/-- The `call` of a function with one argument, not on distinct values only. -/
def callOne (function : String) (argument : Expression) : Expression :=
  .call function false [argument]

/-- The number of values, `count(e)`; of the star, the number of rows. -/
def count : Expression → Expression :=
  callOne "count"

/-- The number of different values, `count(DISTINCT e)`. -/
def countDistinct (e : Expression) : Expression :=
  .call "count" true [e]

/-- The identifier that the database gave to a node or a relationship, `id(e)`. -/
def elementId : Expression → Expression :=
  callOne "id"

/-- A text in lower case, `toLower(e)`. -/
def toLower : Expression → Expression :=
  callOne "toLower"

/-- The list of all values, `collect(e)`. -/
def collectValues : Expression → Expression :=
  callOne "collect"

/-- The sum of all values, `sum(e)`. -/
def sum : Expression → Expression :=
  callOne "sum"

/-- The smallest value, `min(e)`. -/
def min : Expression → Expression :=
  callOne "min"

/-- The greatest value, `max(e)`. -/
def max : Expression → Expression :=
  callOne "max"

/-- The mean of all values, `avg(e)`. -/
def avg : Expression → Expression :=
  callOne "avg"

end CypherQuery.Expression
