import CypherQuery.Proofs.Render.Nesting

/-! # The protocol of a traversal

A `Visitor` is called when a part begins and when it ends. This module says which calls a traversal
makes and when it stops making them. The calls of a part are its beginning, the calls of its
`children` in their order, and its end (`Part.events_eq`); so they are properly nested. A visitor
may break with a value at any call: it has then seen the calls up to this one and no other
(`Visitor.run_noting`), and the traversal ends with that value. Together this is
`traversal_brackets_and_breaks`. -/

namespace CypherQuery

/-! ## Children -/

/-- The part that a clause is, `reading` or `returning`. -/
def Clause.part : Clause → Part
  | .reading clause => .reading clause
  | .returning clause => .returning clause

/-- What an expression holds: the operator stands between the operands of a binary expression,
before the operand if it is written there (`UnaryOperator.precedesOperand`), and behind it
otherwise. -/
def Expression.children : Expression → List Part
  | .literal _ | .parameter _ | .variable _ | .asterisk => []
  | .property subject _ => [.expression subject]
  | .call _ _ arguments => arguments.map .expression
  | .comparison op left right =>
      [.expression left, .operator (.comparison op), .expression right]
  | .logical op left right => [.expression left, .operator (.logical op), .expression right]
  | .unary op operand =>
      if op.precedesOperand then [.operator (.unary op), .expression operand]
      else [.expression operand, .operator (.unary op)]
  | .nested inner | .aliased inner _ => [.expression inner]

namespace Part

/-- The parts directly inside a part, in the order of writing; a part that is missing (`none`) is
none of them. -/
def children : Part → List Part
  | statement s => s.clauses.map Clause.part
  | reading clause => pattern clause.pattern :: (clause.condition.map condition).toList
  | pattern p => p.elements.map element
  | element (.node single) => [node single]
  | element (.chain path) => [chain path]
  | chain path => node path.start ::
      path.hops.flatMap fun hop => [relationship hop.relationship, node hop.node]
  | node n => (n.properties.map properties).toList
  | relationship r => (r.properties.map properties).toList
  | properties map => map.entries.map entry
  | entry e => [expression e.value]
  | condition e => [expression e]
  | expression e => e.children
  | operator _ => []
  | returning clause => projection clause.projection ::
      ((clause.order.map order).toList ++
        ((clause.skip.map skip).toList ++ (clause.limit.map limit).toList))
  | projection p => p.items.map expression
  | order items => items.map sortItem
  | sortItem item => [expression item.expression]
  | skip count | limit count => [expression count]

/-- The `events` of the tree that a part is. -/
def events : Part → List Event
  | statement s => s.events
  | reading clause => clause.events
  | pattern p => p.events
  | element e => e.events
  | chain path => path.events
  | node n => n.events
  | relationship r => r.events
  | properties map => map.events
  | entry e => e.events
  | condition e => conditionEvents e
  | expression e => e.events
  | operator op => op.events
  | returning clause => clause.events
  | projection p => p.events
  | order items => orderEvents items
  | sortItem item => item.events
  | skip count => skipEvents count
  | limit count => limitEvents count

/-- The traversal of a part: `walk` along the tree that it is. -/
def traverse {m : Type → Type} [Monad m] (visit : Event → m Unit) : Part → m Unit
  | statement s => s.walk visit
  | reading clause => clause.walk visit
  | pattern p => p.walk visit
  | element e => e.walk visit
  | chain path => path.walk visit
  | node n => n.walk visit
  | relationship r => r.walk visit
  | properties map => map.walk visit
  | entry e => e.walk visit
  | condition e => walkCondition visit e
  | expression e => e.walk visit
  | operator op => op.walk visit
  | returning clause => clause.walk visit
  | projection p => p.walk visit
  | order items => walkOrder visit items
  | sortItem item => item.walk visit
  | skip count => walkSkip visit count
  | limit count => walkLimit visit count

end Part

/-- A clause is traversed as the `Clause.part` that it is: it gets no calls of its own. -/
theorem Clause.walk_eq_traverse {m : Type → Type} [Monad m] (visit : Event → m Unit)
    (clause : Clause) : clause.walk visit = clause.part.traverse visit := by
  cases clause <;> rfl

/-! ## The calls of a part -/

namespace Part

/-- Items of a list have the events of the parts that they are: `flatMap` along either. -/
theorem flatMap_events_map {α : Type} {part : α → Part} {eventsOf : α → List Event}
    (same : ∀ item, (part item).events = eventsOf item) (items : List α) :
    (items.map part).flatMap events = items.flatMap eventsOf := by
  rw [List.flatMap_map]
  exact congrArg (items.flatMap ·) (funext same)

/-- A part that may be missing has the events, `eventsOfPart`, of the part that it is. -/
theorem flatMap_events_toList {α : Type} {part : α → Part} {eventsOf : α → List Event}
    (same : ∀ item, (part item).events = eventsOf item) (item : Option α) :
    (item.map part).toList.flatMap events = eventsOfPart eventsOf item := by
  cases item with
  | none => rfl
  | some item => exact (List.append_nil _).trans (same item)

/-- The events of an expression are its own around those of its `children`. -/
theorem events_expression (e : Expression) :
    e.events = (expression e).around (e.children.flatMap events) := by
  cases e with
  | literal _ | parameter _ | «variable» _ | asterisk => rfl
  | property subject _ | nested subject | aliased subject _ =>
      rw [Expression.events, Expression.children, List.flatMap_singleton, events]
  | call _ _ arguments =>
      have same : ∀ e : Expression, (expression e).events = e.events := fun _ => rfl
      rw [Expression.events, Expression.children, Expression.eventsAll_eq_flatMap,
        flatMap_events_map same]
  | comparison op left right | logical op left right =>
      simp only [Expression.events, Expression.children, List.flatMap_cons, List.flatMap_nil,
        List.append_nil, events]
  | unary op operand =>
      rw [Expression.events, Expression.children]
      split
      all_goals simp only [List.flatMap_cons, List.flatMap_nil, List.append_nil, events]

/-- The events of a part are its beginning, the events of its `children`, and its end. -/
theorem events_eq (part : Part) : part.events = part.around (part.children.flatMap events) := by
  cases part with
  | statement s =>
      have clauses : ∀ clause : Clause, clause.part.events = clause.events := by
        rintro (_ | _) <;> rfl
      rw [children, flatMap_events_map clauses]
      rfl
  | reading clause =>
      rw [children, List.flatMap_cons, flatMap_events_toList fun _ => rfl]
      rfl
  | pattern p =>
      rw [children, flatMap_events_map fun _ => rfl]
      rfl
  | element e =>
      rcases e with single | path
      all_goals rw [children, List.flatMap_singleton]; rfl
  | chain path =>
      have steps : (path.hops.flatMap fun hop =>
          [relationship hop.relationship, node hop.node]).flatMap events =
          path.hops.flatMap Hop.events := by
        rw [List.flatMap_assoc]
        simp only [List.flatMap_cons, List.flatMap_nil, List.append_nil]
        rfl
      rw [children, List.flatMap_cons, steps]
      rfl
  | node n | relationship r =>
      rw [children, flatMap_events_toList fun _ => rfl]
      rfl
  | properties map | projection p | order items =>
      rw [children, flatMap_events_map fun _ => rfl]
      rfl
  | entry e | condition e | sortItem e | skip e | limit e =>
      rw [children, List.flatMap_singleton]
      rfl
  | expression e => exact events_expression e
  | operator op => rfl
  | returning clause =>
      rw [children, List.flatMap_cons, List.flatMap_append, List.flatMap_append,
        flatMap_events_toList fun _ => rfl, flatMap_events_toList fun _ => rfl,
        flatMap_events_toList fun _ => rfl]
      rfl

/-- The events of a part are `Complete`. -/
theorem complete_events (part : Part) : Complete part.events := by
  cases part with
  | statement s => exact s.complete_events
  | reading clause => exact (Clause.reading clause).complete_events
  | pattern p => exact p.complete_events
  | element e => exact e.complete_events
  | chain path =>
      have steps (hop : Hop) : Complete hop.events :=
        hop.relationship.complete_events.append hop.node.complete_events
      exact .around _ (path.start.complete_events.append (.flatMap steps _))
  | node n => exact n.complete_events
  | relationship r => exact r.complete_events
  | properties map => exact map.complete_events
  | entry e => exact .around _ e.value.complete_events
  | condition e | skip e | limit e => exact .around _ e.complete_events
  | expression e => exact e.complete_events
  | operator op => exact op.complete_events
  | returning clause => exact (Clause.returning clause).complete_events
  | projection p => exact .around _ (.flatMap Expression.complete_events _)
  | order items =>
      exact .around _ (.flatMap (fun item => .around _ item.expression.complete_events) _)
  | sortItem item => exact .around _ item.expression.complete_events

/-- The traversal of a part makes the calls of its events, in any monad: `traverse` is `forM` along
`events`. -/
theorem traverse_eq_forM {m : Type → Type} [Monad m] [LawfulMonad m] (visit : Event → m Unit)
    (part : Part) : part.traverse visit = part.events.forM visit := by
  have sort (item : SortItem) : item.walk visit = item.events.forM visit :=
    walk_of_inside visit (item.expression.walk_eq_forM visit)
  cases part with
  | statement s => exact s.walk_eq_forM visit
  | reading clause => exact clause.walk_eq_forM visit
  | pattern p => exact p.walk_eq_forM visit
  | element e => exact e.walk_eq_forM visit
  | chain path => exact path.walk_eq_forM visit
  | node n => exact n.walk_eq_forM visit
  | relationship r => exact r.walk_eq_forM visit
  | properties map => exact map.walk_eq_forM visit
  | entry e => exact walk_of_inside visit (e.value.walk_eq_forM visit)
  | condition e | skip e | limit e => exact walk_of_inside visit (e.walk_eq_forM visit)
  | expression e => exact e.walk_eq_forM visit
  | operator op => exact op.walk_eq_forM visit
  | returning clause => exact clause.walk_eq_forM visit
  | projection p =>
      exact walk_of_inside visit (walkItems_of_each visit (Expression.walk_eq_forM visit) _)
  | order items => exact walk_of_inside visit (walkItems_of_each visit sort _)
  | sortItem item => exact sort item

end Part

/-! ## Breaking -/

/-- A visitor that keeps a state and may break with a value: an action for every event. -/
abbrev Visitor (State Break : Type) : Type :=
  Event → ExceptT Break (StateM State) Unit

namespace Visitor

variable {State Break : Type}

/-- One call in a state: whether the visitor breaks, and its state behind the call. -/
def call (visit : Visitor State Break) (state : State) (event : Event) :
    Except Break Unit × State :=
  (visit event).run.run state

/-- Calls one after the other, from a state on: `forM` over the events. -/
def run (visit : Visitor State Break) (start : State) (events : List Event) :
    Except Break Unit × State :=
  (events.forM visit).run.run start

/-- The traversal of a part by a visitor, `Part.traverse`, from a state on. -/
def traverse (visit : Visitor State Break) (start : State) (part : Part) :
    Except Break Unit × State :=
  (part.traverse visit).run.run start

/-- A visitor that notes each call that it gets, also the one at which it breaks, behind those seen
before. -/
def noting (visit : Visitor State Break) : Visitor (State × List Event) Break := fun event =>
  ExceptT.mk fun (state, seen) =>
    let (result, next) := visit.call state event
    (result, next, seen ++ [event])

/-- A visitor that lets `count` calls pass and breaks at the next one with `value`. -/
def breakingAfter (count : Nat) (value : Break) : Visitor Nat Break := fun _ =>
  ExceptT.mk fun calls => (if calls = count then .error value else .ok (), calls + 1)

/-- A traversal makes the calls of the events of the part: `traverse` is `run` along them. -/
theorem traverse_eq_run (visit : Visitor State Break) (start : State) (part : Part) :
    visit.traverse start part = visit.run start part.events := by
  rw [traverse, part.traverse_eq_forM visit, run]

/-- Behind a call that continues come the other calls; behind one that breaks comes no other: `run`
on a first event. -/
theorem run_cons (visit : Visitor State Break) (start : State) (event : Event)
    (rest : List Event) :
    visit.run start (event :: rest) =
      match visit.call start event with
      | (.ok (), next) => visit.run next rest
      | (.error value, last) => (.error value, last) := by
  have first : (event :: rest).forM visit = visit event >>= fun _ => rest.forM visit := rfl
  rw [run, call, first, ExceptT.run_bind, StateT.run_bind]
  rcases (visit event).run.run start with ⟨_ | _, next⟩
  · rfl
  · rfl

/-- A call that is noted by `noting` has the result of the call. -/
theorem call_noting (visit : Visitor State Break) (state : State) (seen : List Event)
    (event : Event) :
    visit.noting.call (state, seen) event =
      ((visit.call state event).1, (visit.call state event).2, seen ++ [event]) := rfl

/-- Calls one after the other all continue, and then `noting` has seen all events; or they continue
up to one that breaks, and then just those up to this one are seen. This is by induction on the
events. -/
theorem run_noting (visit : Visitor State Break) (events : List Event) :
    ∀ (start : State) (seen : List Event),
      (∃ last, visit.run start events = (.ok (), last) ∧
        visit.noting.run (start, seen) events = (.ok (), last, seen ++ events)) ∨
      ∃ before event after middle value last, events = before ++ event :: after ∧
        visit.run start before = (.ok (), middle) ∧
        visit.call middle event = (.error value, last) ∧
        visit.run start events = (.error value, last) ∧
        visit.noting.run (start, seen) events =
          (.error value, last, seen ++ before ++ [event]) := by
  induction events with
  | nil =>
      intro start seen
      exact .inl ⟨start, rfl, by rw [List.append_nil]; rfl⟩
  | cons event rest ih =>
      intro start seen
      rcases first : visit.call start event with ⟨value | ⟨⟩, next⟩
      · refine .inr ⟨[], event, rest, start, value, next, rfl, rfl, first, ?_, ?_⟩
        · rw [run_cons, first]
        · rw [run_cons, call_noting, first, List.append_nil]
      · have whole (events : List Event) :
            visit.run start (event :: events) = visit.run next events := by
          rw [run_cons, first]
        have noted : visit.noting.run (start, seen) (event :: rest) =
            visit.noting.run (next, seen ++ [event]) rest := by
          rw [run_cons, call_noting, first]
        rw [whole, noted]
        rcases ih next (seen ++ [event]) with ⟨last, continues, all⟩ |
          ⟨before, breaking, after, middle, value, last, rfl, continues, breaks, ends, upTo⟩
        · exact .inl ⟨last, continues, by rw [all, List.append_assoc, List.singleton_append]⟩
        · refine .inr ⟨event :: before, breaking, after, middle, value, last, rfl,
            (whole before).trans continues, breaks, ends, ?_⟩
          rw [upTo, List.append_assoc seen, List.singleton_append]

/-- The visitor `breakingAfter count` sees as many calls and the one at which it breaks. -/
theorem run_breakingAfter (count : Nat) (value : Break) (events : List Event) :
    ∀ (calls : Nat) (seen : List Event), calls ≤ count →
      (breakingAfter count value).noting.run (calls, seen) events =
        if calls + events.length ≤ count then (.ok (), calls + events.length, seen ++ events)
        else (.error value, count + 1, seen ++ events.take (count + 1 - calls)) := by
  induction events with
  | nil =>
      intro calls seen few
      rw [if_pos (by simpa using few), List.append_nil]
      rfl
  | cons event rest ih =>
      intro calls seen few
      have single : (breakingAfter count value).call calls event =
          (if calls = count then .error value else .ok (), calls + 1) := rfl
      rw [run_cons, call_noting, single]
      by_cases last : calls = count
      · subst last
        rw [if_pos rfl, if_neg (by rw [List.length_cons]; omega), Nat.add_sub_cancel_left]
        rfl
      · have others : count + 1 - calls = (count + 1 - (calls + 1)) + 1 := by omega
        rw [if_neg last]
        dsimp only
        rw [ih (calls + 1) (seen ++ [event]) (by omega), List.length_cons, others,
          List.take_succ_cons, Nat.add_right_comm, Nat.add_assoc calls]
        simp only [List.append_assoc, List.singleton_append]

end Visitor

/-! ## The protocol -/

/-- The calls that a traversal of a part makes are the beginning of the part, the calls of its
`children` in the order of writing, and the end of the part, so they are properly nested
(`Complete`). A visitor either continues at all of them, or it continues up to one at which it
breaks: then the traversal has made the calls up to this one and no other, and ends with the value
with which the visitor breaks. In particular, a visitor that breaks at a given call,
`breakingAfter`, sees just the calls up to it, and the traversal is finished exactly if there are
not so many calls. All this holds of clauses too, as the traversal of a clause is that of the part
that it is. -/
theorem traversal_brackets_and_breaks :
    (∀ part : Part,
      part.events = part.around (part.children.flatMap Part.events) ∧
      Complete part.events ∧
      (∀ (State Break : Type) (visit : Visitor State Break) (start : State),
        (∃ last, visit.run start part.events = (.ok (), last) ∧
          visit.traverse start part = (.ok (), last) ∧
          visit.noting.traverse (start, []) part = (.ok (), last, part.events)) ∨
        ∃ before event after middle value last, part.events = before ++ event :: after ∧
          visit.run start before = (.ok (), middle) ∧
          visit.call middle event = (.error value, last) ∧
          visit.traverse start part = (.error value, last) ∧
          visit.noting.traverse (start, []) part = (.error value, last, before ++ [event])) ∧
      ∀ (Break : Type) (value : Break) (count : Nat),
        (Visitor.breakingAfter count value).noting.traverse (0, []) part =
          if part.events.length ≤ count then (.ok (), part.events.length, part.events)
          else (.error value, count + 1, part.events.take (count + 1))) ∧
    ∀ (State Break : Type) (visit : Visitor State Break) (start : State) (clause : Clause),
      (clause.walk visit).run.run start = visit.traverse start clause.part := by
  refine ⟨fun part => ⟨part.events_eq, part.complete_events, ?_, ?_⟩, ?_⟩
  · intro State Break visit start
    simp only [Visitor.traverse_eq_run]
    rcases visit.run_noting part.events start [] with ⟨last, continues, all⟩ |
      ⟨before, event, after, middle, value, last, same, continues, breaks, ends, upTo⟩
    · exact .inl ⟨last, continues, continues, all⟩
    · exact .inr ⟨before, event, after, middle, value, last, same, continues, breaks, ends, upTo⟩
  · intro Break value count
    have run := Visitor.run_breakingAfter count value part.events 0 [] (Nat.zero_le count)
    simpa only [Visitor.traverse_eq_run, Nat.zero_add, List.nil_append, Nat.sub_zero] using run
  · intro State Break visit start clause
    rw [clause.walk_eq_traverse visit, Visitor.traverse]

/-- The operator of a negation is entered and left before the operand, at which it breaks. -/
example :
    (Visitor.breakingAfter 3 "enough").noting.traverse (0, [])
        (.expression (.unary .not (.variable "found"))) =
      (.error "enough", 4, [.enter (.expression (.unary .not (.variable "found"))),
        .enter (.operator (.unary .not)), .leave (.operator (.unary .not)),
        .enter (.expression (.variable "found"))]) := rfl

end CypherQuery
