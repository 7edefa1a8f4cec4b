import CypherQuery.Proofs.Build.Stage
import CypherQuery.Proofs.Example.Accounting
import CypherQuery.Proofs.Example.Inquiry
import CypherQuery.Proofs.Traversal.Collecting

/-! # Parameters of inquiries

The condition of a predicate refers to exactly the parameters that the predicate binds
(`Predicate.mentions_reading`), and nothing else in the statement of an inquiry refers to any. So
the statement refers to what is bound, `Inquiry.referencedParameters_statement`, and preparing it
comes down to rendering it, `PreparedQuery.prepare_of_bound`. -/

namespace CypherQuery

/-! ## References to parameters -/

namespace Expression

/-- The reference `.parameter name` occurs in the `preorder` of an expression. -/
def Mentions (e : Expression) (name : String) : Prop :=
  Part.expression (.parameter name) ∈ e.preorder

variable {name : String}

/-- A `parameter` is a reference to its `own` name only. -/
@[simp] theorem mentions_parameter {own : String} :
    (parameter own).Mentions name ↔ name = own := by
  simp [Mentions, preorder]

/-- No `variable` refers to a parameter. -/
@[simp] theorem mentions_variable {own : String} : ¬(«variable» own).Mentions name := by
  simp [Mentions, preorder]

/-- The `asterisk` refers to no parameter. -/
@[simp] theorem mentions_asterisk : ¬asterisk.Mentions name := by
  simp [Mentions, preorder]

/-- A `property` refers to what its `subject` refers to. -/
@[simp] theorem mentions_property {subject : Expression} {key : String} :
    (property subject key).Mentions name ↔ subject.Mentions name := by
  simp [Mentions, preorder]

/-- A `call` with one `argument` refers to what the argument refers to. -/
@[simp] theorem mentions_callOne {function : String} {distinct : Bool} {argument : Expression} :
    (call function distinct [argument]).Mentions name ↔ argument.Mentions name := by
  simp [Mentions, preorder, preorderAll]

/-- A `comparison` refers to what `left` or `right` refers to. -/
@[simp] theorem mentions_comparison {op : Comparison} {left right : Expression} :
    (comparison op left right).Mentions name ↔ left.Mentions name ∨ right.Mentions name := by
  simp [Mentions, preorder]

/-- A `logical` combination refers to what `left` or `right` refers to. -/
@[simp] theorem mentions_logical {op : Connective} {left right : Expression} :
    (logical op left right).Mentions name ↔ left.Mentions name ∨ right.Mentions name := by
  simp [Mentions, preorder]

/-- A `unary` operator refers to what its `operand` refers to. -/
@[simp] theorem mentions_unary {op : UnaryOperator} {operand : Expression} :
    (unary op operand).Mentions name ↔ operand.Mentions name := by
  simp [Mentions, preorder]

/-- Conditions that are `joined?` refer to what any of them refers to. -/
theorem mentions_joined {op : Connective} {conditions : List Expression} :
    (∃ condition ∈ joined? op conditions, condition.Mentions name) ↔
      ∃ condition ∈ conditions, condition.Mentions name := by
  have folded (first : Expression) (rest : List Expression) :
      (rest.foldl (logical op) first).Mentions name ↔
        first.Mentions name ∨ ∃ condition ∈ rest, condition.Mentions name := by
    induction rest generalizing first with
    | nil => simp
    | cons next rest ih =>
        rw [List.foldl_cons, ih, mentions_logical, or_assoc, List.exists_mem_cons_iff]
  rcases conditions with _ | ⟨first, rest⟩
  · simp [joined?]
  · rw [List.exists_mem_cons_iff, ← folded]
    simp [joined?]

end Expression

/-! ## The reading clause -/

/-- What is `stored` for a property refers to no parameter. -/
@[simp] theorem PropertyDescription.mentions_stored {property : PropertyDescription}
    {name : String} : ¬property.stored.Mentions name := by
  rw [stored]
  split
  · simp
  · simp

/-- Conditions that account for properties refer to the `names` of their own parameters: `Accounts`
adds the one with the other. -/
theorem Accounts.mentions_iff {matcher : ExampleMatcher} {probe : Probe} {parameters : Parameters}
    {properties : List PropertyDescription} {conditions : List Expression} {names : List String}
    (accounts : Accounts matcher probe parameters properties conditions names) {name : String} :
    (∃ condition ∈ conditions, condition.Mentions name) ↔ name ∈ names := by
  induction accounts with
  | none => simp
  | unset _ _ ih => exact ih
  | ignored _ _ _ ih => exact ih
  | absent _ _ _ _ ih => simp [ih]
  | compared _ _ _ _ ih => simp [ih]

namespace Predicate

/-- The clause that reads what a predicate looks for: the node of its `description` under its
`condition`. -/
def reading (predicate : Predicate) : Match :=
  ⟨false, .ofNode predicate.description.rootNode, predicate.condition⟩

/-- The `reading` clause of a predicate that accounts for a sample refers to the parameters that the
predicate binds. -/
theorem mentions_reading {predicate : Predicate} {sample : Example} {conditions : List Expression}
    {names : List String} (accountsFor : predicate.AccountsFor sample conditions names)
    {name : String} : Part.expression (.parameter name) ∈ predicate.reading.preorder ↔
      name ∈ predicate.parameters.names := by
  rw [accountsFor.bound.mem_iff, ← accountsFor.accounts.mentions_iff,
    ← Expression.mentions_joined, ← accountsFor.joined]
  rcases predicate with ⟨description, parameters, _ | condition⟩
  · simp [reading, Match.preorder, Pattern.ofNode, Pattern.preorder, Pattern.ofElement,
      PatternElement.preorder, Node.preorder, NodeDescription.rootNode_eq]
  · simp [reading, Match.preorder, Pattern.ofNode, Pattern.preorder, Pattern.ofElement,
      PatternElement.preorder, Node.preorder, NodeDescription.rootNode_eq, conditionPreorder,
      Expression.Mentions]

/-- The items of an answer to a predicate stand behind its `reading` clause. -/
theorem returning_eq (predicate : Predicate) (items : List Expression) :
    (predicate.applyTo matchRoot).returning false items =
      ⟨[predicate.reading], .start false items⟩ := by
  rcases predicate with ⟨description, parameters, _ | condition⟩
  · rfl
  · rfl

end Predicate

/-! ## Criteria of an order -/

/-- A criterion of an order, made by `toSortItem`, refers to no parameter. -/
theorem SortOrder.mentions_toSortItem {description : NodeDescription} {order : SortOrder}
    {item : SortItem} (made : order.toSortItem description = .ok item) {name : String} :
    ¬item.expression.Mentions name := by
  rw [toSortItem] at made
  split at made
  · cases made
  · cases made
    dsimp only
    rw [NodeDescription.subject_eq]
    split
    · simp [Expression.toLower, Expression.callOne]
    · simp

/-- The criteria of an order, made by `toSortItems`, refer to no parameter. -/
theorem SortOrders.mentions_toSortItems {description : NodeDescription} {sort : SortOrders}
    {items : List SortItem} (made : sort.toSortItems description = .ok items) {name : String} :
    ∀ item ∈ items, ¬item.expression.Mentions name := by
  intro item mem
  obtain ⟨order, -, same⟩ := Attempt.exists_of_mem_mapM made mem
  exact order.mentions_toSortItem same

/-- A clause that is finished by `close` refers to what its `items` and its criteria refer to; the
numbers of `skip` and `limit` are written out. -/
theorem OpenReturn.mem_preorder_close {clause : OpenReturn} {name : String} :
    Part.expression (.parameter name) ∈ clause.close.preorder ↔
      (∃ item ∈ clause.items, item.Mentions name) ∨
        ∃ item ∈ clause.order, item.expression.Mentions name := by
  have counts (count : Option Int64) : Part.expression (.parameter name) ∉
      (count.map countLiteral).elim [] Expression.preorder := by
    rcases count with _ | count
    · simp
    · simp [countLiteral, Expression.preorder]
  have skip : Part.expression (.parameter name) ∉ clause.close.skip.elim [] Expression.preorder :=
    counts clause.skip
  have limit : Part.expression (.parameter name) ∉ clause.close.limit.elim [] Expression.preorder :=
    counts clause.limit
  have criteria : (clause.close.order.getD []) = clause.order := by
    rcases same : clause.order with _ | _ <;> simp [close, same]
  have items : clause.close.projection.items = clause.items := rfl
  rw [Return.preorder, criteria, items]
  simp [skip, limit, SortItem.preorder, Expression.Mentions]

/-! ## Statements -/

namespace Inquiry

/-- The items of the answer: `count(*)` for `count`, the star otherwise. -/
def items : Inquiry → List Expression
  | count => [Expression.asterisk.count]
  | one | all | sorted _ | page _ | presence => [.asterisk]

/-- What a clause projects for an inquiry: its `items`, in an order that refers to no parameter. -/
structure Projects (inquiry : Inquiry) (clause : OpenReturn) : Prop where
  /-- Equal rows are all answered. -/
  distinct : clause.distinct = false
  /-- The items are those of the inquiry. -/
  items : clause.items = inquiry.items
  /-- No criterion of the order refers to a parameter. -/
  order : ∀ name, ∀ item ∈ clause.order, ¬item.expression.Mentions name

/-- The statement of an inquiry consists of the `reading` clause of the predicate and of a clause
that `Projects`. -/
theorem exists_of_statement {inquiry : Inquiry} {predicate : Predicate} {s : Statement}
    (asked : inquiry.statement predicate = .ok s) :
    ∃ clause, s = .ofClauses [predicate.reading] clause.close ∧ inquiry.Projects clause := by
  rcases inquiry with _ | _ | sort | request | _ | _
  case one | all | presence =>
    cases asked
    rw [ExampleQueries.returningAll, predicate.returning_eq]
    exact ⟨_, rfl, rfl, rfl, fun _ => List.forall_mem_nil _⟩
  case count =>
    cases asked
    rw [predicate.returning_eq]
    exact ⟨_, rfl, rfl, rfl, fun _ => List.forall_mem_nil _⟩
  case sorted =>
    obtain ⟨items, made, same⟩ := Attempt.bind_eq_ok.mp asked
    cases same
    rw [ExampleQueries.returningAll, predicate.returning_eq]
    exact ⟨_, rfl, rfl, rfl, fun _ => SortOrders.mentions_toSortItems made⟩
  case page =>
    obtain ⟨stage, paged, same⟩ := Attempt.bind_eq_ok.mp asked
    cases same
    rw [Projecting.addPaging_eq] at paged
    obtain ⟨items, made, windowed⟩ := Attempt.bind_eq_ok.mp paged
    rw [ExampleQueries.returningAll, predicate.returning_eq] at windowed
    rcases request with ⟨_ | ⟨number, size⟩, sort⟩
    · cases windowed
      exact ⟨_, rfl, rfl, rfl, fun _ => SortOrders.mentions_toSortItems made⟩
    · dsimp only at windowed
      split at windowed
      · cases windowed
        exact ⟨_, rfl, rfl, rfl, fun _ => SortOrders.mentions_toSortItems made⟩
      · cases windowed

/-- The statement of an inquiry refers to exactly the parameters that the predicate binds:
`referencedParameters` are the names of its table. -/
theorem referencedParameters_statement {inquiry : Inquiry} {predicate : Predicate} {s : Statement}
    (asked : inquiry.statement predicate = .ok s) {sample : Example}
    {conditions : List Expression} {names : List String}
    (accountsFor : predicate.AccountsFor sample conditions names) :
    s.referencedParameters = predicate.parameters.names := by
  obtain ⟨clause, rfl, projects⟩ := exists_of_statement asked
  refine Statement.referencedParameters_eq fun name => ?_
  have items : ¬∃ item ∈ clause.items, item.Mentions name := by
    rw [projects.items]
    rcases inquiry with _ | _ | _ | _ | _ | _
    all_goals simp [Inquiry.items, Expression.count, Expression.callOne]
  have order : ¬∃ item ∈ clause.order, item.expression.Mentions name := by
    rintro ⟨item, mem, mentioned⟩
    exact projects.order name item mem mentioned
  have projected : Part.expression (.parameter name) ∉ clause.close.preorder :=
    fun mem => (OpenReturn.mem_preorder_close.mp mem).elim items order
  have parts : (Statement.ofClauses [predicate.reading] clause.close).preorder =
      predicate.reading.preorder ++ (clause.close.preorder ++ []) := rfl
  rw [parts, List.append_nil, List.mem_append, or_iff_left projected,
    Predicate.mentions_reading accountsFor]

end Inquiry

/-! ## Queries -/

/-- A statement whose `referencedParameters` are the names of the table becomes a query exactly if
it is rendered. -/
theorem PreparedQuery.prepare_of_bound {s : Statement} {parameters : Parameters}
    (bound : s.referencedParameters = parameters.names) (shape : ResultShape)
    (renderer : Renderer) : prepare s parameters shape renderer =
      (renderer.render s).map fun cypher => ⟨cypher, parameters, shape⟩ :=
  prepare_of_contains (fun _ mem => Dictionary.mem_names_iff.mp (bound ▸ mem)) shape renderer

end CypherQuery
