import CypherQuery.Tree.Statement

/-! # Events of a traversal

A traversal enters and leaves every part of a tree once, in the order of writing. The whole
traversal of a tree is the sequence of its events, from `Expression.events` to `Statement.events`:
those of the parts inside, between `enter` and `leave` of the part itself (`Part.around`). -/

namespace CypherQuery

/-- A part of a tree that a traversal stops at, with the tree itself. -/
inductive Part where
  /-- A statement. -/
  | statement (statement : Statement)
  /-- A clause that reads. -/
  | reading (clause : Match)
  /-- A pattern. -/
  | pattern (pattern : Pattern)
  /-- An element of a pattern. -/
  | element (element : PatternElement)
  /-- A path. -/
  | chain (chain : Chain)
  /-- A node. -/
  | node (node : Node)
  /-- A relationship. -/
  | relationship (relationship : Relationship)
  /-- A property map. -/
  | properties (properties : PropertyMap)
  /-- An entry of a property map. -/
  | entry (entry : PropertyEntry)
  /-- The condition of a reading clause. -/
  | condition (condition : Expression)
  /-- An expression. -/
  | expression (expression : Expression)
  /-- An operator between or beside its operands. -/
  | operator (operator : Operator)
  /-- A clause that projects. -/
  | returning (clause : Return)
  /-- The items of a projecting clause. -/
  | projection (projection : Projection)
  /-- The criteria of an order. -/
  | order (items : List SortItem)
  /-- One criterion of an order. -/
  | sortItem (item : SortItem)
  /-- The number of rows left out. -/
  | skip (count : Expression)
  /-- The greatest number of rows. -/
  | limit (count : Expression)
  deriving Repr

/-- A step of a traversal: a part is entered or left. -/
inductive Event where
  /-- A part begins. -/
  | enter (part : Part)
  /-- A part ends. -/
  | leave (part : Part)
  deriving Repr

/-- The events of a part, given those of what is `inside`: `enter` before them and `leave`
behind. -/
def Part.around (part : Part) (inside : List Event) : List Event :=
  .enter part :: inside ++ [.leave part]

namespace Operator

/-- The events of an operator, which has no parts inside: it is entered and left by
`Part.around`. -/
def events (op : Operator) : List Event :=
  Part.around (.operator op) []

end Operator

namespace Expression

mutual

/-- The events of an expression: the operator of a binary expression stands between its operands,
that of a unary one on the side on which it is written, `UnaryOperator.precedesOperand`. -/
def events : Expression → List Event
  | e@(.literal _) | e@(.parameter _) | e@(.variable _) | e@.asterisk =>
      Part.around (.expression e) []
  | e@(.property subject _) => Part.around (.expression e) subject.events
  | e@(.call _ _ arguments) => Part.around (.expression e) (eventsAll arguments)
  | e@(.comparison op left right) =>
      Part.around (.expression e)
        (left.events ++ ((Operator.comparison op).events ++ right.events))
  | e@(.logical op left right) =>
      Part.around (.expression e)
        (left.events ++ ((Operator.logical op).events ++ right.events))
  | e@(.unary op operand) =>
      Part.around (.expression e)
        (if op.precedesOperand then (Operator.unary op).events ++ operand.events
        else operand.events ++ (Operator.unary op).events)
  | e@(.nested inner) | e@(.aliased inner _) => Part.around (.expression e) inner.events

/-- The events of expressions one after the other: `events` of each. -/
def eventsAll : List Expression → List Event
  | [] => []
  | e :: rest => e.events ++ eventsAll rest

end

/-- The events of expressions, `eventsAll`, are those of each one after the other. -/
theorem eventsAll_eq_flatMap (es : List Expression) : eventsAll es = es.flatMap events := by
  induction es with
  | nil => rfl
  | cons e rest ih => rw [eventsAll, List.flatMap_cons, ih]

end Expression

/-- The events of an entry: inside is its value, a key is no part. -/
def PropertyEntry.events (entry : PropertyEntry) : List Event :=
  Part.around (.entry entry) entry.value.events

/-- The events of a property map: inside are its entries. -/
def PropertyMap.events (properties : PropertyMap) : List Event :=
  Part.around (.properties properties) (properties.entries.flatMap PropertyEntry.events)

/-- The events of a part that may be missing; there are none for `none`. -/
def eventsOfPart {α : Type} (events : α → List Event) (part : Option α) : List Event :=
  part.elim [] events

/-- The events of a node: inside is its property map, names and labels are no parts. -/
def Node.events (node : Node) : List Event :=
  Part.around (.node node) (eventsOfPart PropertyMap.events node.properties)

/-- The events of a relationship: inside is its property map, names and types are no parts. -/
def Relationship.events (relationship : Relationship) : List Event :=
  Part.around (.relationship relationship)
    (eventsOfPart PropertyMap.events relationship.properties)

/-- The events of a step: the relationship, then the node; the step itself is no part. -/
def Hop.events (hop : Hop) : List Event :=
  hop.relationship.events ++ hop.node.events

/-- The events of a path: the start, then each step. -/
def Chain.events (chain : Chain) : List Event :=
  Part.around (.chain chain) (chain.start.events ++ chain.hops.flatMap Hop.events)

/-- The events of an element. -/
def PatternElement.events : PatternElement → List Event
  | e@(.node single) => Part.around (.element e) single.events
  | e@(.chain path) => Part.around (.element e) path.events

/-- The events of a pattern: inside are its elements. -/
def Pattern.events (pattern : Pattern) : List Event :=
  Part.around (.pattern pattern) (pattern.elements.flatMap PatternElement.events)

/-- The events of a condition: inside is the expression. -/
def conditionEvents (condition : Expression) : List Event :=
  Part.around (.condition condition) condition.events

/-- The events of a reading clause: inside are the pattern, then the condition. -/
def Match.events (clause : Match) : List Event :=
  Part.around (.reading clause)
    (clause.pattern.events ++ eventsOfPart conditionEvents clause.condition)

/-- The events of a projection: inside are its items. -/
def Projection.events (projection : Projection) : List Event :=
  Part.around (.projection projection) (projection.items.flatMap Expression.events)

/-- The events of a sort criterion: inside is its expression. -/
def SortItem.events (item : SortItem) : List Event :=
  Part.around (.sortItem item) item.expression.events

/-- The events of an order. -/
def orderEvents (items : List SortItem) : List Event :=
  Part.around (.order items) (items.flatMap SortItem.events)

/-- The events of the number of rows left out. -/
def skipEvents (count : Expression) : List Event :=
  Part.around (.skip count) count.events

/-- The events of the greatest number of rows. -/
def limitEvents (count : Expression) : List Event :=
  Part.around (.limit count) count.events

/-- The events of a projecting clause: inside are projection, order, skip, limit. -/
def Return.events (clause : Return) : List Event :=
  Part.around (.returning clause)
    (clause.projection.events ++
      (eventsOfPart orderEvents clause.order ++
        (eventsOfPart skipEvents clause.skip ++ eventsOfPart limitEvents clause.limit)))

/-- The events of a clause. -/
def Clause.events : Clause → List Event
  | .reading clause => clause.events
  | .returning clause => clause.events

/-- The events of a statement: inside are its clauses. -/
def Statement.events (statement : Statement) : List Event :=
  Part.around (.statement statement) (statement.clauses.flatMap Clause.events)

end CypherQuery
