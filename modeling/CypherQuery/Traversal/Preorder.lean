import CypherQuery.Traversal.Event

/-! # Parts in preorder

The parts of a tree that a reader asks for (`Part.isListed`), each before the parts inside it:
reading clauses, patterns, nodes, relationships, conditions, expressions, projecting clauses and
sort criteria. The lists are made by structure, from `Expression.preorder` to
`Statement.preorder`. -/

namespace CypherQuery

/-- Whether a part is one of those listed in preorder; the parts between them, such as elements and
property maps, are not. -/
def Part.isListed : Part → Bool
  | .reading _ | .pattern _ | .node _ | .relationship _ | .condition _ | .expression _
  | .returning _ | .sortItem _ => true
  | .statement _ | .element _ | .chain _ | .properties _ | .entry _ | .operator _
  | .projection _ | .order _ | .skip _ | .limit _ => false

namespace Expression

mutual

/-- An expression and all its subexpressions, each before those inside it. -/
def preorder : Expression → List Part
  | e@(.literal _) | e@(.parameter _) | e@(.variable _) | e@.asterisk => [.expression e]
  | e@(.property subject _) => .expression e :: subject.preorder
  | e@(.call _ _ arguments) => .expression e :: preorderAll arguments
  | e@(.comparison _ left right) | e@(.logical _ left right) =>
      .expression e :: (left.preorder ++ right.preorder)
  | e@(.unary _ operand) => .expression e :: operand.preorder
  | e@(.nested inner) | e@(.aliased inner _) => .expression e :: inner.preorder

/-- The subexpressions of expressions one after the other, each by `preorder`. -/
def preorderAll : List Expression → List Part
  | [] => []
  | e :: rest => e.preorder ++ preorderAll rest

end

end Expression

/-- The `preorder` of the values in a property map; the map itself is not listed. -/
def PropertyMap.preorder (properties : PropertyMap) : List Part :=
  properties.entries.flatMap fun entry => entry.value.preorder

/-- A node and the `preorder` of its property map. -/
def Node.preorder (node : Node) : List Part :=
  .node node :: node.properties.elim [] PropertyMap.preorder

/-- A relationship and the `preorder` of its property map. -/
def Relationship.preorder (relationship : Relationship) : List Part :=
  .relationship relationship :: relationship.properties.elim [] PropertyMap.preorder

/-- The `preorder` of the relationship of a step, then that of its node. -/
def Hop.preorder (hop : Hop) : List Part :=
  hop.relationship.preorder ++ hop.node.preorder

/-- The `preorder` of the nodes and relationships of an element from left to right; the element
itself is not listed. -/
def PatternElement.preorder : PatternElement → List Part
  | .node single => single.preorder
  | .chain path => path.start.preorder ++ path.hops.flatMap Hop.preorder

/-- A pattern and the `preorder` of its elements. -/
def Pattern.preorder (pattern : Pattern) : List Part :=
  .pattern pattern :: pattern.elements.flatMap PatternElement.preorder

/-- A condition and the `preorder` of its expression. -/
def conditionPreorder (condition : Expression) : List Part :=
  .condition condition :: condition.preorder

/-- A reading clause, the `preorder` of its pattern and that of its condition. -/
def Match.preorder (clause : Match) : List Part :=
  .reading clause :: (clause.pattern.preorder ++ clause.condition.elim [] conditionPreorder)

/-- A sort criterion and the `preorder` of its expression. -/
def SortItem.preorder (item : SortItem) : List Part :=
  .sortItem item :: item.expression.preorder

/-- A projecting clause, and the `preorder` of its items, its criteria and its counts. -/
def Return.preorder (clause : Return) : List Part :=
  .returning clause ::
    (clause.projection.items.flatMap Expression.preorder ++
      ((clause.order.getD []).flatMap SortItem.preorder ++
        (clause.skip.elim [] Expression.preorder ++ clause.limit.elim [] Expression.preorder)))

/-- The `preorder` of the clause that it is. -/
def Clause.preorder : Clause → List Part
  | .reading clause => clause.preorder
  | .returning clause => clause.preorder

/-- The `preorder` of each clause of a statement; the statement itself is not listed. -/
def Statement.preorder (statement : Statement) : List Part :=
  statement.clauses.flatMap Clause.preorder

end CypherQuery
