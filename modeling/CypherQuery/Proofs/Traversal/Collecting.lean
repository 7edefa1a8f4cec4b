import CypherQuery.Traversal.Collect

/-! # What is collected

A collector keeps what it chooses from the listed parts that a walk enters, and a walk enters the
listed parts of a tree in preorder (`Statement.entered_events`). So what is collected is what is
chosen from the preorder (`Statement.collect_eq`), and the parameters that a statement refers to are
those that occur in it. -/

namespace CypherQuery

variable {α : Type}

/-! ## Entering parts -/

/-- The listed part, `Part.isListed`, that an event enters. -/
def Event.listed? : Event → Option Part
  | .enter part => if part.isListed then some part else none
  | .leave _ => none

/-- The listed parts that are entered along events, in order: those that `listed?` finds. -/
def entered (events : List Event) : List Part :=
  events.filterMap Event.listed?

@[simp] theorem entered_nil : entered [] = [] := rfl

@[simp] theorem entered_append (events others : List Event) :
    entered (events ++ others) = entered events ++ entered others :=
  List.filterMap_append

/-- Around a listed part, `Part.around`, the part is entered first. -/
theorem entered_around {part : Part} (listed : part.isListed = true) (inside : List Event) :
    entered (part.around inside) = part :: entered inside := by
  simp [entered, Part.around, Event.listed?, listed]

/-- Around a part that is not listed, what is inside is `entered`. -/
theorem entered_inside {part : Part} (unlisted : part.isListed = false) (inside : List Event) :
    entered (part.around inside) = entered inside := by
  simp [entered, Part.around, Event.listed?, unlisted]

/-- Of items one after the other, by `flatMap`, the parts of each are `entered`. -/
theorem entered_flatMap {events : α → List Event} {parts : α → List Part}
    (each : ∀ item, entered (events item) = parts item) (items : List α) :
    entered (items.flatMap events) = items.flatMap parts := by
  rw [entered, List.filterMap_flatMap]
  exact congrArg (items.flatMap ·) (funext each)

/-- Of a part that may be missing, `eventsOfPart`, its parts are `entered`. -/
theorem entered_optional {events : α → List Event} {parts : α → List Part}
    (each : ∀ part, entered (events part) = parts part) (part : Option α) :
    entered (eventsOfPart events part) = part.elim [] parts := by
  rcases part with _ | part
  · rfl
  · exact each part

/-! ## The preorder is entered -/

/-- No listed part is `entered` in an operator. -/
@[simp] theorem Operator.entered_events (op : Operator) : entered op.events = [] :=
  entered_inside rfl []

mutual

/-- Of an expression, all subexpressions are entered: its `preorder`. -/
theorem Expression.entered_events (e : Expression) : entered e.events = e.preorder := by
  rcases e with value | name | name | ⟨subject, key⟩ | ⟨function, distinct, arguments⟩ | _ |
    ⟨op, left, right⟩ | ⟨op, left, right⟩ | ⟨op, operand⟩ | inner | ⟨inner, name⟩
  all_goals rw [events, entered_around rfl, preorder]
  case literal | parameter | «variable» | asterisk => exact entered_nil ▸ rfl
  case property => rw [Expression.entered_events subject]
  case call => rw [Expression.entered_eventsAll arguments]
  case comparison | logical =>
    rw [entered_append, entered_append, Operator.entered_events, List.nil_append,
      Expression.entered_events left, Expression.entered_events right]
  case unary =>
    split
    · rw [entered_append, Operator.entered_events, List.nil_append,
        Expression.entered_events operand]
    · rw [entered_append, Operator.entered_events, List.append_nil,
        Expression.entered_events operand]
  case nested | aliased => rw [Expression.entered_events inner]

/-- Of expressions one after the other, all subexpressions are `entered`, in the order of
`preorderAll`. -/
theorem Expression.entered_eventsAll (es : List Expression) :
    entered (Expression.eventsAll es) = Expression.preorderAll es := by
  rcases es with _ | ⟨e, rest⟩
  · rfl
  · rw [eventsAll, preorderAll, entered_append, Expression.entered_events e,
      Expression.entered_eventsAll rest]

end

/-- Of a property map, its `preorder` is `entered`. -/
theorem PropertyMap.entered_events (map : PropertyMap) : entered map.events = map.preorder := by
  have entry (entry : PropertyEntry) : entered entry.events = entry.value.preorder :=
    (entered_inside rfl _).trans entry.value.entered_events
  rw [events, entered_inside rfl, entered_flatMap entry, preorder]

/-- Of a node, its `preorder` is `entered`. -/
theorem Node.entered_events (n : Node) : entered n.events = n.preorder := by
  rw [events, entered_around rfl, entered_optional PropertyMap.entered_events, preorder]

/-- Of a relationship, its `preorder` is `entered`. -/
theorem Relationship.entered_events (r : Relationship) : entered r.events = r.preorder := by
  rw [events, entered_around rfl, entered_optional PropertyMap.entered_events, preorder]

/-- Of a step, its `preorder` is `entered`. -/
theorem Hop.entered_events (hop : Hop) : entered hop.events = hop.preorder := by
  rw [events, entered_append, Relationship.entered_events, Node.entered_events, preorder]

/-- Of an element, its `preorder` is `entered`. -/
theorem PatternElement.entered_events (element : PatternElement) :
    entered element.events = element.preorder := by
  rcases element with single | path
  · rw [events, entered_inside rfl, Node.entered_events, preorder]
  · rw [events, entered_inside rfl, Chain.events, entered_inside rfl, entered_append,
      Node.entered_events, entered_flatMap Hop.entered_events, preorder]

/-- Of a pattern, its `preorder` is `entered`. -/
theorem Pattern.entered_events (p : Pattern) : entered p.events = p.preorder := by
  rw [events, entered_around rfl, entered_flatMap PatternElement.entered_events, preorder]

/-- Of a reading clause, its `preorder` is `entered`. -/
theorem Match.entered_events (clause : Match) : entered clause.events = clause.preorder := by
  have condition (e : Expression) : entered (conditionEvents e) = conditionPreorder e := by
    rw [conditionEvents, entered_around rfl, e.entered_events, conditionPreorder]
  rw [events, entered_around rfl, entered_append, Pattern.entered_events,
    entered_optional condition, preorder]

/-- Of a projecting clause, its `preorder` is `entered`. -/
theorem Return.entered_events (clause : Return) : entered clause.events = clause.preorder := by
  have item (item : SortItem) : entered item.events = item.preorder := by
    rw [SortItem.events, entered_around rfl, item.expression.entered_events, SortItem.preorder]
  have order (items : List SortItem) :
      entered (orderEvents items) = items.flatMap SortItem.preorder := by
    rw [orderEvents, entered_inside rfl, entered_flatMap item]
  have skip (count : Expression) : entered (skipEvents count) = count.preorder :=
    (entered_inside rfl _).trans count.entered_events
  have limit (count : Expression) : entered (limitEvents count) = count.preorder :=
    (entered_inside rfl _).trans count.entered_events
  rw [events, entered_around rfl, entered_append, entered_append, entered_append,
    Projection.events, entered_inside rfl, entered_flatMap Expression.entered_events,
    entered_optional order, entered_optional skip, entered_optional limit, preorder]
  rcases clause.order with _ | items
  · rfl
  · rfl

/-- Of a statement, its parts are entered: its `preorder`. -/
theorem Statement.entered_events (s : Statement) : entered s.events = s.preorder := by
  have clause (clause : Clause) : entered clause.events = clause.preorder := by
    rcases clause with clause | clause
    · exact clause.entered_events
    · exact clause.entered_events
  rw [events, entered_inside rfl, entered_flatMap clause, preorder]

/-! ## Collecting -/

/-- At an event, a `collector` puts what it chooses from the listed part that is entered in front of
what it has. -/
theorem run_collector (choose : Part → Option α) (event : Event) (kept : List α) :
    (collector choose event).run kept = ((), (event.listed?.bind choose).toList ++ kept) := by
  rcases event with part | part
  · rw [collector, Event.listed?]
    split
    · next item chosen =>
        split at chosen
        · next listed => rw [if_pos listed, Option.bind_some, chosen]; rfl
        · cases chosen
    · next nothing =>
        split at nothing
        · next listed => rw [if_pos listed, Option.bind_some, nothing]; rfl
        · next unlisted => rw [if_neg unlisted]; rfl
  · rfl

/-- Along events, a `collector` keeps what it chooses from the listed parts that are entered, by
induction on the events. -/
theorem run_forM_collector (choose : Part → Option α) (events : List Event) (kept : List α) :
    ((events.forM (collector choose)).run kept).2 =
      ((entered events).filterMap choose).reverse ++ kept := by
  induction events generalizing kept with
  | nil => rfl
  | cons event rest ih =>
      -- The rest goes on with what the first step has kept.
      have step : ((event :: rest).forM (collector choose)).run kept =
          (rest.forM (collector choose)).run ((event.listed?.bind choose).toList ++ kept) :=
        congrArg (fun after : Unit × List α => (rest.forM (collector choose)).run after.2)
          (run_collector choose event kept)
      rw [step, ih, entered, entered, List.filterMap_cons]
      rcases event.listed? with _ | part
      · rfl
      · rw [List.filterMap_cons, Option.bind_some]
        rcases choose part with _ | item
        · rfl
        · rw [List.reverse_cons, List.append_assoc]
          rfl

/-- What is `collected` along events is what is chosen from the listed parts that are `entered`. -/
theorem collected_forM (choose : Part → Option α) (events : List Event) :
    collected (events.forM (collector choose)) = (entered events).filterMap choose := by
  rw [collected, run_forM_collector, List.append_nil, List.reverse_reverse]

/-- What is collected from an expression is what is chosen from its `preorder`. -/
theorem Expression.collect_eq (choose : Part → Option α) (e : Expression) :
    e.collect choose = e.preorder.filterMap choose := by
  rw [collect, e.walk_eq_forM, collected_forM, e.entered_events]

/-- What is collected from a pattern is what is chosen from its `preorder`. -/
theorem Pattern.collect_eq (choose : Part → Option α) (p : Pattern) :
    p.collect choose = p.preorder.filterMap choose := by
  rw [collect, p.walk_eq_forM, collected_forM, p.entered_events]

/-- What is collected from a statement is what is chosen from its `preorder`. -/
theorem Statement.collect_eq (choose : Part → Option α) (s : Statement) :
    s.collect choose = s.preorder.filterMap choose := by
  rw [collect, s.walk_eq_forM, collected_forM, s.entered_events]

/-! ## Parameters -/

/-- The `parameterName?` of a part is a name exactly if the part is that expression,
`.parameter name`. -/
theorem Part.parameterName?_eq_some_iff {part : Part} {name : String} :
    part.parameterName? = some name ↔ part = .expression (.parameter name) := by
  constructor
  · intro found
    rcases part with _ | _ | _ | _ | _ | _ | _ | _ | _ | _ | e | _
    case expression =>
      rcases e with _ | own
      case parameter => rw [Option.some.inj found]
      all_goals cases found
    all_goals cases found
  · rintro rfl
    rfl

/-- A statement refers to the parameters that occur in its `preorder` as expressions. -/
theorem Statement.mem_referencedParameters {s : Statement} {name : String} :
    name ∈ s.referencedParameters ↔ Part.expression (.parameter name) ∈ s.preorder := by
  rw [referencedParameters, Dictionary.mem_names_ofList, s.collect_eq, List.map_map,
    Function.comp_def, List.map_id', List.mem_filterMap]
  constructor
  · rintro ⟨part, mem, found⟩
    rwa [← Part.parameterName?_eq_some_iff.mp found]
  · exact fun mem => ⟨_, mem, rfl⟩

/-- A statement in which exactly the `names` of a dictionary occur refers to these names. -/
theorem Statement.referencedParameters_eq {s : Statement} {d : Dictionary α}
    (same : ∀ name, Part.expression (.parameter name) ∈ s.preorder ↔ name ∈ d.names) :
    s.referencedParameters = d.names := by
  refine Dictionary.names_eq_of_contains fun name => ?_
  rw [← Dictionary.mem_names_iff, ← Dictionary.mem_names_iff, ← same,
    ← Statement.mem_referencedParameters, referencedParameters]

end CypherQuery
