import CypherQuery.Traversal.Event

/-! # Walking a tree

A visitor is an action for every event, in any monad; walking a tree runs these actions in the
order of the events. A visitor that fails ends the walk at that event. The main statement,
`Statement.walk_eq_forM`, is that a walk is nothing but the visitor run along the list of events. -/

namespace CypherQuery

variable {m : Type → Type} [Monad m]

/-- Walking a part: the action on entering, what is `inside`, and the action on leaving. -/
def Part.walk (visit : Event → m Unit) (part : Part) (inside : m Unit) : m Unit := do
  visit (.enter part)
  inside
  visit (.leave part)

/-- Walking items one after the other, each by `walk`. -/
def walkItems {α : Type} (walk : α → m Unit) : List α → m Unit
  | [] => pure ()
  | item :: rest => do
      walk item
      walkItems walk rest

/-- Walking a part that may be missing. -/
def walkPart {α : Type} (walk : α → m Unit) : Option α → m Unit
  | none => pure ()
  | some part => walk part

/-- Walking an operator: `visit` enters and leaves it. -/
def Operator.walk (visit : Event → m Unit) (op : Operator) : m Unit :=
  Part.walk visit (.operator op) (pure ())

namespace Expression

mutual

/-- Walking an expression: the operator stands where `Expression.events` has it. -/
def walk (visit : Event → m Unit) : Expression → m Unit
  | e@(.literal _) | e@(.parameter _) | e@(.variable _) | e@.asterisk =>
      Part.walk visit (.expression e) (pure ())
  | e@(.property subject _) => Part.walk visit (.expression e) (subject.walk visit)
  | e@(.call _ _ arguments) => Part.walk visit (.expression e) (walkAll visit arguments)
  | e@(.comparison op left right) =>
      Part.walk visit (.expression e) do
        left.walk visit
        (Operator.comparison op).walk visit
        right.walk visit
  | e@(.logical op left right) =>
      Part.walk visit (.expression e) do
        left.walk visit
        (Operator.logical op).walk visit
        right.walk visit
  | e@(.unary op operand) =>
      Part.walk visit (.expression e)
        (if op.precedesOperand then do
          (Operator.unary op).walk visit
          operand.walk visit
        else do
          operand.walk visit
          (Operator.unary op).walk visit)
  | e@(.nested inner) | e@(.aliased inner _) =>
      Part.walk visit (.expression e) (inner.walk visit)

/-- Walking expressions one after the other, each by `walk`. -/
def walkAll (visit : Event → m Unit) : List Expression → m Unit
  | [] => pure ()
  | e :: rest => do
      e.walk visit
      walkAll visit rest

end

end Expression

/-- Walking an entry. -/
def PropertyEntry.walk (visit : Event → m Unit) (entry : PropertyEntry) : m Unit :=
  Part.walk visit (.entry entry) (entry.value.walk visit)

/-- Walking a property map. -/
def PropertyMap.walk (visit : Event → m Unit) (properties : PropertyMap) : m Unit :=
  Part.walk visit (.properties properties)
    (walkItems (PropertyEntry.walk visit) properties.entries)

/-- Walking a node. -/
def Node.walk (visit : Event → m Unit) (node : Node) : m Unit :=
  Part.walk visit (.node node) (walkPart (PropertyMap.walk visit) node.properties)

/-- Walking a relationship. -/
def Relationship.walk (visit : Event → m Unit) (relationship : Relationship) : m Unit :=
  Part.walk visit (.relationship relationship)
    (walkPart (PropertyMap.walk visit) relationship.properties)

/-- Walking a step. -/
def Hop.walk (visit : Event → m Unit) (hop : Hop) : m Unit := do
  hop.relationship.walk visit
  hop.node.walk visit

/-- Walking a path. -/
def Chain.walk (visit : Event → m Unit) (chain : Chain) : m Unit :=
  Part.walk visit (.chain chain) do
    chain.start.walk visit
    walkItems (Hop.walk visit) chain.hops

/-- Walking an element. -/
def PatternElement.walk (visit : Event → m Unit) : PatternElement → m Unit
  | e@(.node single) => Part.walk visit (.element e) (single.walk visit)
  | e@(.chain path) => Part.walk visit (.element e) (path.walk visit)

/-- Walking a pattern. -/
def Pattern.walk (visit : Event → m Unit) (pattern : Pattern) : m Unit :=
  Part.walk visit (.pattern pattern) (walkItems (PatternElement.walk visit) pattern.elements)

/-- Walking a condition. -/
def walkCondition (visit : Event → m Unit) (condition : Expression) : m Unit :=
  Part.walk visit (.condition condition) (condition.walk visit)

/-- Walking a reading clause. -/
def Match.walk (visit : Event → m Unit) (clause : Match) : m Unit :=
  Part.walk visit (.reading clause) do
    clause.pattern.walk visit
    walkPart (walkCondition visit) clause.condition

/-- Walking a projection. -/
def Projection.walk (visit : Event → m Unit) (projection : Projection) : m Unit :=
  Part.walk visit (.projection projection) (walkItems (Expression.walk visit) projection.items)

/-- Walking a sort criterion. -/
def SortItem.walk (visit : Event → m Unit) (item : SortItem) : m Unit :=
  Part.walk visit (.sortItem item) (item.expression.walk visit)

/-- Walking an order. -/
def walkOrder (visit : Event → m Unit) (items : List SortItem) : m Unit :=
  Part.walk visit (.order items) (walkItems (SortItem.walk visit) items)

/-- Walking the number of rows left out. -/
def walkSkip (visit : Event → m Unit) (count : Expression) : m Unit :=
  Part.walk visit (.skip count) (count.walk visit)

/-- Walking the greatest number of rows. -/
def walkLimit (visit : Event → m Unit) (count : Expression) : m Unit :=
  Part.walk visit (.limit count) (count.walk visit)

/-- Walking a projecting clause. -/
def Return.walk (visit : Event → m Unit) (clause : Return) : m Unit :=
  Part.walk visit (.returning clause) do
    clause.projection.walk visit
    walkPart (walkOrder visit) clause.order
    walkPart (walkSkip visit) clause.skip
    walkPart (walkLimit visit) clause.limit

/-- Walking a clause. -/
def Clause.walk (visit : Event → m Unit) : Clause → m Unit
  | .reading clause => clause.walk visit
  | .returning clause => clause.walk visit

/-- Walking a statement. -/
def Statement.walk (visit : Event → m Unit) (statement : Statement) : m Unit :=
  Part.walk visit (.statement statement) (walkItems (Clause.walk visit) statement.clauses)

/-! ## A walk follows the events

By the structure of the tree: `forM` along an append is one `forM` behind the other. -/

section Laws

variable [LawfulMonad m] (visit : Event → m Unit)

/-- Walking a part follows its events, `Part.around`, if walking the inside does. -/
theorem Part.walk_of_inside {part : Part} {inside : m Unit} {events : List Event}
    (follows : inside = events.forM visit) :
    part.walk visit inside = (part.around events).forM visit := by
  simp [Part.walk, Part.around, follows]

/-- Walking items, `walkItems`, follows their events if walking each item does. -/
theorem walkItems_of_each {α : Type} {walk : α → m Unit} {events : α → List Event}
    (follows : ∀ item, walk item = (events item).forM visit) (items : List α) :
    walkItems walk items = (items.flatMap events).forM visit := by
  induction items with
  | nil => simp [walkItems]
  | cons item rest ih => simp [walkItems, follows, ih]

omit [LawfulMonad m] in
/-- Walking a part that may be missing, `walkPart`, follows its events if walking the part does. -/
theorem walkPart_of_each {α : Type} {walk : α → m Unit} {events : α → List Event}
    (follows : ∀ part, walk part = (events part).forM visit) (part : Option α) :
    walkPart walk part = (eventsOfPart events part).forM visit := by
  cases part with
  | none => simp [walkPart, eventsOfPart]
  | some part => simp [walkPart, eventsOfPart, follows]

/-- Walking an operator is `visit` along its `events`. -/
theorem Operator.walk_eq_forM (op : Operator) : op.walk visit = op.events.forM visit :=
  Part.walk_of_inside visit (by simp)

mutual

/-- Walking an expression follows its events: `walk` is `forM` along `events`. -/
theorem Expression.walk_eq_forM (e : Expression) : e.walk visit = e.events.forM visit := by
  match e with
  | .literal _ | .parameter _ | .variable _ | .asterisk =>
      simp only [Expression.walk, Expression.events]
      exact Part.walk_of_inside visit (by simp)
  | .property subject _ =>
      simp only [Expression.walk, Expression.events]
      exact Part.walk_of_inside visit (Expression.walk_eq_forM subject)
  | .call _ _ arguments =>
      simp only [Expression.walk, Expression.events]
      exact Part.walk_of_inside visit (Expression.walkAll_eq_forM arguments)
  | .comparison op left right =>
      simp only [Expression.walk, Expression.events]
      refine Part.walk_of_inside visit ?_
      simp [Expression.walk_eq_forM left, Expression.walk_eq_forM right,
        Operator.walk_eq_forM visit]
  | .logical op left right =>
      simp only [Expression.walk, Expression.events]
      refine Part.walk_of_inside visit ?_
      simp [Expression.walk_eq_forM left, Expression.walk_eq_forM right,
        Operator.walk_eq_forM visit]
  | .unary op operand =>
      simp only [Expression.walk, Expression.events]
      refine Part.walk_of_inside visit ?_
      split <;> simp [Expression.walk_eq_forM operand, Operator.walk_eq_forM visit]
  | .nested inner | .aliased inner _ =>
      simp only [Expression.walk, Expression.events]
      exact Part.walk_of_inside visit (Expression.walk_eq_forM inner)

/-- Walking expressions is `visit` along their `eventsAll`. -/
theorem Expression.walkAll_eq_forM (es : List Expression) :
    Expression.walkAll visit es = (Expression.eventsAll es).forM visit := by
  match es with
  | [] => simp [Expression.walkAll, Expression.eventsAll]
  | e :: rest =>
      simp [Expression.walkAll, Expression.eventsAll, Expression.walk_eq_forM e,
        Expression.walkAll_eq_forM rest]

end

/-- Walking a property map is `visit` along its `events`. -/
theorem PropertyMap.walk_eq_forM (properties : PropertyMap) :
    properties.walk visit = properties.events.forM visit :=
  Part.walk_of_inside visit <| walkItems_of_each visit
    (fun entry => Part.walk_of_inside visit (entry.value.walk_eq_forM visit)) _

/-- Walking a node is `visit` along its `events`. -/
theorem Node.walk_eq_forM (node : Node) : node.walk visit = node.events.forM visit :=
  Part.walk_of_inside visit (walkPart_of_each visit (PropertyMap.walk_eq_forM visit) _)

/-- Walking a relationship is `visit` along its `events`. -/
theorem Relationship.walk_eq_forM (relationship : Relationship) :
    relationship.walk visit = relationship.events.forM visit :=
  Part.walk_of_inside visit (walkPart_of_each visit (PropertyMap.walk_eq_forM visit) _)

/-- Walking a step is `visit` along its `events`. -/
theorem Hop.walk_eq_forM (hop : Hop) : hop.walk visit = hop.events.forM visit := by
  simp [Hop.walk, Hop.events, Node.walk_eq_forM visit, Relationship.walk_eq_forM visit]

/-- Walking a path is `visit` along its `events`. -/
theorem Chain.walk_eq_forM (chain : Chain) : chain.walk visit = chain.events.forM visit := by
  refine Part.walk_of_inside visit ?_
  rw [walkItems_of_each visit (Hop.walk_eq_forM visit)]
  simp [Node.walk_eq_forM visit]

/-- Walking an element is `visit` along its `events`. -/
theorem PatternElement.walk_eq_forM (element : PatternElement) :
    element.walk visit = element.events.forM visit := by
  cases element with
  | node single => exact Part.walk_of_inside visit (single.walk_eq_forM visit)
  | chain path => exact Part.walk_of_inside visit (path.walk_eq_forM visit)

/-- Walking a pattern is `visit` along its `events`. -/
theorem Pattern.walk_eq_forM (pattern : Pattern) :
    pattern.walk visit = pattern.events.forM visit :=
  Part.walk_of_inside visit (walkItems_of_each visit (PatternElement.walk_eq_forM visit) _)

/-- Walking a reading clause is `visit` along its `events`. -/
theorem Match.walk_eq_forM (clause : Match) : clause.walk visit = clause.events.forM visit := by
  refine Part.walk_of_inside visit ?_
  have condition : ∀ e, walkCondition visit e = (conditionEvents e).forM visit := fun e =>
    Part.walk_of_inside visit (e.walk_eq_forM visit)
  simp [Pattern.walk_eq_forM visit, walkPart_of_each visit condition]

/-- Walking a projecting clause is `visit` along its `events`. -/
theorem Return.walk_eq_forM (clause : Return) : clause.walk visit = clause.events.forM visit := by
  refine Part.walk_of_inside visit ?_
  have projection : clause.projection.walk visit = clause.projection.events.forM visit :=
    Part.walk_of_inside visit (walkItems_of_each visit (Expression.walk_eq_forM visit) _)
  have order : ∀ items, walkOrder visit items = (orderEvents items).forM visit := fun items =>
    Part.walk_of_inside visit <| walkItems_of_each visit
      (fun item => Part.walk_of_inside visit (item.expression.walk_eq_forM visit)) _
  have skip : ∀ count, walkSkip visit count = (skipEvents count).forM visit := fun count =>
    Part.walk_of_inside visit (count.walk_eq_forM visit)
  have limit : ∀ count, walkLimit visit count = (limitEvents count).forM visit := fun count =>
    Part.walk_of_inside visit (count.walk_eq_forM visit)
  simp [projection, walkPart_of_each visit order, walkPart_of_each visit skip,
    walkPart_of_each visit limit]

/-- Walking a clause is `visit` along its `events`. -/
theorem Clause.walk_eq_forM (clause : Clause) : clause.walk visit = clause.events.forM visit := by
  cases clause with
  | reading clause => exact clause.walk_eq_forM visit
  | returning clause => exact clause.walk_eq_forM visit

/-- Walking a statement follows its events: `walk` is `forM` along `events`. -/
theorem Statement.walk_eq_forM (statement : Statement) :
    statement.walk visit = statement.events.forM visit :=
  Part.walk_of_inside visit (walkItems_of_each visit (Clause.walk_eq_forM visit) _)

end Laws

end CypherQuery
