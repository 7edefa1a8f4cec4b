import CypherQuery.Proofs.Render.Visitor

/-! # The nesting of a visit

A canvas keeps a depth and a stack of lists, its `Canvas.nesting`. This module says what they are at
every moment of a walk: they are read off the parts that have begun and not ended,
`OpenPart.nesting` of `OpenPart.after`. One step of the visitor keeps this (`visit_nesting`), so a
whole walk does (`forM_nesting`), and a visit of a part that does not fail leaves the depth and the
lists as it found them, except that it counts the part in the list of which it is an item
(`Visited`). With the printed text this is `rendering_nests`. -/

namespace CypherQuery

/-! ## Complete sequences of events -/

/-- Events of parts one after the other, each of which begins (`enter`), has complete parts inside
and ends (`leave`): a well-bracketed sequence. -/
inductive Complete : List Event → Prop where
  /-- No part at all. -/
  | nil : Complete []
  /-- A part in front of others. -/
  | part (part : Part) {inside rest : List Event} (within : Complete inside)
      (others : Complete rest) : Complete (part.around inside ++ rest)

namespace Complete

/-- Complete parts one after the other are `Complete`. -/
theorem append {first rest : List Event} (one : Complete first) (others : Complete rest) :
    Complete (first ++ rest) := by
  induction one with
  | nil => exact others
  | part part within _ _ ih =>
      rw [List.append_assoc]
      exact .part part within ih

/-- A part with complete parts inside, `Part.around`, is `Complete`. -/
theorem around (part : Part) {inside : List Event} (within : Complete inside) :
    Complete (part.around inside) := by
  rw [← List.append_nil (part.around inside)]
  exact .part part within .nil

/-- Items are `Complete` one after the other if each one is. -/
theorem flatMap {α : Type} {events : α → List Event} (each : ∀ item, Complete (events item))
    (items : List α) : Complete (items.flatMap events) := by
  induction items with
  | nil => exact .nil
  | cons item rest ih =>
      rw [List.flatMap_cons]
      exact (each item).append ih

/-- A part that may be missing, `eventsOfPart`, is `Complete` if it is there. -/
theorem optional {α : Type} {events : α → List Event} (each : ∀ part, Complete (events part))
    (part : Option α) : Complete (eventsOfPart events part) := by
  rcases part with _ | part
  · exact .nil
  · exact each part

end Complete

/-- The `events` of an operator are `Complete`. -/
theorem Operator.complete_events (op : Operator) : Complete op.events :=
  .around _ .nil

namespace Expression

mutual

/-- The events of an expression are `Complete`. -/
theorem complete_events (e : Expression) : Complete e.events := by
  rcases e with value | name | name | ⟨subject, key⟩ | ⟨function, distinct, arguments⟩ | _ |
    ⟨op, left, right⟩ | ⟨op, left, right⟩ | ⟨op, operand⟩ | inner | ⟨inner, name⟩
  case property => exact .around _ (complete_events subject)
  case call => exact .around _ (complete_eventsAll arguments)
  case comparison =>
    exact .around _ ((complete_events left).append
      ((Operator.complete_events _).append (complete_events right)))
  case logical =>
    exact .around _ ((complete_events left).append
      ((Operator.complete_events _).append (complete_events right)))
  case unary =>
    rw [events]
    refine .around _ ?_
    split
    · exact (Operator.complete_events _).append (complete_events operand)
    · exact (complete_events operand).append (Operator.complete_events _)
  case nested => exact .around _ (complete_events inner)
  case aliased => exact .around _ (complete_events inner)
  all_goals exact .around _ .nil

/-- The `eventsAll` of expressions are `Complete`. -/
theorem complete_eventsAll (es : List Expression) : Complete (eventsAll es) := by
  rcases es with _ | ⟨e, rest⟩
  · exact .nil
  · exact (complete_events e).append (complete_eventsAll rest)

end

end Expression

/-- The `events` of a property map are `Complete`. -/
theorem PropertyMap.complete_events (map : PropertyMap) : Complete map.events :=
  .around _ (.flatMap (fun entry => .around _ entry.value.complete_events) _)

/-- The `events` of a node are `Complete`. -/
theorem Node.complete_events (n : Node) : Complete n.events :=
  .around _ (.optional PropertyMap.complete_events _)

/-- The `events` of a relationship are `Complete`. -/
theorem Relationship.complete_events (r : Relationship) : Complete r.events :=
  .around _ (.optional PropertyMap.complete_events _)

/-- The `events` of an element are `Complete`. -/
theorem PatternElement.complete_events (e : PatternElement) : Complete e.events := by
  rcases e with single | path
  · exact .around _ single.complete_events
  · have steps (hop : Hop) : Complete hop.events :=
      hop.relationship.complete_events.append hop.node.complete_events
    exact .around _ (.around _ (path.start.complete_events.append (.flatMap steps _)))

/-- The `events` of a pattern are `Complete`. -/
theorem Pattern.complete_events (p : Pattern) : Complete p.events :=
  .around _ (.flatMap PatternElement.complete_events _)

/-- The `events` of a clause are `Complete`. -/
theorem Clause.complete_events (clause : Clause) : Complete clause.events := by
  rcases clause with clause | clause
  · have filter (condition : Expression) : Complete (conditionEvents condition) :=
      .around _ condition.complete_events
    exact .around _ (clause.pattern.complete_events.append (.optional filter _))
  · have items : Complete clause.projection.events :=
      .around _ (.flatMap Expression.complete_events _)
    have order (items : List SortItem) : Complete (orderEvents items) :=
      .around _ (.flatMap (fun item => .around _ item.expression.complete_events) _)
    have skip (count : Expression) : Complete (skipEvents count) :=
      .around _ count.complete_events
    have limit (count : Expression) : Complete (limitEvents count) :=
      .around _ count.complete_events
    exact .around _ (items.append ((Complete.optional order _).append
      ((Complete.optional skip _).append (.optional limit _))))

/-- The events of a statement are `Complete`. -/
theorem Statement.complete_events (s : Statement) : Complete s.events :=
  .around _ (.flatMap Clause.complete_events _)

/-! ## Trees -/

/-- Something that a renderer has a text for. -/
inductive Tree where
  /-- A statement. -/
  | statement (s : Statement)
  /-- A pattern. -/
  | pattern (p : Pattern)
  /-- An expression. -/
  | expression (e : Expression)
  deriving Repr

namespace Tree

/-- What the renderer makes of a tree: `renderPattern` and its siblings. -/
def render (config : RenderConfig) : Tree → Except RenderError String
  | statement s => Renderer.render ⟨config⟩ s
  | pattern p => Renderer.renderPattern ⟨config⟩ p
  | expression e => Renderer.renderExpression ⟨config⟩ e

/-- The text of a tree by its structure: `Print.pattern` and its siblings. -/
def print (config : RenderConfig) : Tree → Rendered
  | statement s => Print.statement config s
  | pattern p => Print.pattern config p
  | expression e => Print.expression config e

/-- Walking a tree: `Pattern.walk` and its siblings. -/
def walk {m : Type → Type} [Monad m] (visit : Event → m Unit) : Tree → m Unit
  | statement s => s.walk visit
  | pattern p => p.walk visit
  | expression e => e.walk visit

/-- The events of a tree: `Pattern.events` and its siblings. -/
def events : Tree → List Event
  | statement s => s.events
  | pattern p => p.events
  | expression e => e.events

/-- Walking a tree follows its events: `walk` is `forM` along `events`. -/
theorem walk_eq_forM {m : Type → Type} [Monad m] [LawfulMonad m] (visit : Event → m Unit)
    (tree : Tree) : tree.walk visit = tree.events.forM visit := by
  rcases tree with s | p | e
  · exact s.walk_eq_forM visit
  · exact p.walk_eq_forM visit
  · exact e.walk_eq_forM visit

/-- The renderer's text of a tree, `render`, is the printed one. -/
theorem render_eq_print (config : RenderConfig) (tree : Tree) :
    tree.render config = (tree.print config).map String.ofList := by
  rcases tree with s | p | e
  · exact Renderer.render_eq_print config s
  · exact Renderer.renderPattern_eq_print config p
  · exact Renderer.renderExpression_eq_print config e

/-- The events of a tree are `Complete`. -/
theorem complete_events (tree : Tree) : Complete tree.events := by
  rcases tree with s | p | e
  · exact s.complete_events
  · exact p.complete_events
  · exact e.complete_events

end Tree

/-! ## Open parts -/

/-- A part that has begun and not ended. -/
structure OpenPart where
  /-- The part. -/
  part : Part
  /-- How many parts directly inside it have begun. -/
  begun : Nat
  deriving Repr

namespace OpenPart

/-- More parts have begun directly inside the innermost open one: its count `begun` grows by
`more`. -/
def counted (more : Nat) : List OpenPart → List OpenPart
  | [] => []
  | ⟨part, begun⟩ :: outer => ⟨part, begun + more⟩ :: outer

/-- The open parts after an event, the innermost first: a part that begins is `counted` in the one
around it, and a part that ends is taken off. -/
def follow (stack : List OpenPart) : Event → List OpenPart
  | .enter part => ⟨part, 0⟩ :: counted 1 stack
  | .leave _ => stack.tail

/-- The parts that are open after some events, the innermost first: `follow` from no parts on. -/
def after (events : List Event) : List OpenPart :=
  events.foldl follow []

/-- Whether each part that ends is the innermost open one, for events that start with the parts of a
stack open: `follow` is run along them. -/
def Fits : List OpenPart → List Event → Prop
  | _, [] => True
  | stack, .enter part :: rest => Fits (follow stack (.enter part)) rest
  | stack, .leave part :: rest =>
      (∃ begun, stack.head? = some ⟨part, begun⟩) ∧ Fits stack.tail rest

/-- Counting parts by `counted` opens and ends none. -/
@[simp] theorem length_counted (more : Nat) (stack : List OpenPart) :
    (counted more stack).length = stack.length := by
  rcases stack with _ | ⟨top, outer⟩
  · rfl
  · rfl

/-- Counting no part changes nothing: `counted 0` is the identity. -/
@[simp] theorem counted_zero (stack : List OpenPart) : counted 0 stack = stack := by
  rcases stack with _ | ⟨top, outer⟩
  · rfl
  · rfl

/-- Counting parts and then others is counting all of them, `more + further`. -/
@[simp] theorem counted_counted (more further : Nat) (stack : List OpenPart) :
    counted further (counted more stack) = counted (more + further) stack := by
  rcases stack with _ | ⟨top, outer⟩
  · rfl
  · simp [counted, Nat.add_assoc]

/-- A first and a second run of events fit, `Fits`, if the first one does and the second one does
behind it. -/
theorem fits_append {stack : List OpenPart} {first rest : List Event} :
    Fits stack (first ++ rest) ↔ Fits stack first ∧ Fits (first.foldl follow stack) rest := by
  induction first generalizing stack with
  | nil => exact (true_and _).symm ▸ Iff.rfl
  | cons event others ih =>
      rcases event with part | part
      · exact ih
      · rw [List.cons_append, Fits, Fits, ih, and_assoc]
        exact Iff.rfl

/-- Complete parts end the innermost open one each, and all they leave behind is their number in the
part around them: `follow` along them is `counted`. -/
theorem fits_of_complete {events : List Event} (complete : Complete events) :
    ∃ more, ∀ stack, Fits stack events ∧ events.foldl follow stack = counted more stack := by
  induction complete with
  | nil => exact ⟨0, fun stack => ⟨trivial, (counted_zero stack).symm⟩⟩
  | @part part inside rest _ _ within others =>
      obtain ⟨inner, within⟩ := within
      obtain ⟨more, others⟩ := others
      refine ⟨1 + more, fun stack => ?_⟩
      -- When the part ends, it is again the innermost open one.
      have back := (within (follow stack (.enter part))).2
      have same : (part.around inside).foldl follow stack = counted 1 stack := by
        rw [Part.around, List.cons_append, List.foldl_cons, List.foldl_append, back]
        rfl
      constructor
      · rw [fits_append, same]
        refine ⟨fits_append.mpr ⟨(within _).1, ?_⟩, (others _).1⟩
        show Fits (inside.foldl follow (follow stack (.enter part))) [.leave part]
        rw [back]
        exact ⟨⟨0 + inner, rfl⟩, trivial⟩
      · rw [List.foldl_append, same, (others _).2, counted_counted]

/-- A part with `Complete` parts inside only counts in the part around it. -/
theorem foldl_around (part : Part) {inside : List Event} (within : Complete inside)
    (stack : List OpenPart) : (part.around inside).foldl follow stack = counted 1 stack := by
  obtain ⟨inner, within⟩ := fits_of_complete within
  rw [Part.around, List.cons_append, List.foldl_cons, List.foldl_append, (within _).2]
  rfl

end OpenPart

/-! ## Nestings -/

/-- A canvas without its text: what `begin`, `finish`, `openList` and `closeList` change. -/
@[ext] structure Nesting where
  /-- How many parts have begun and not ended. -/
  depth : Nat
  /-- The lists that are being written, the innermost first. -/
  lists : List ListFrame

/-- The nesting of a canvas: its `depth` and its `frames`. -/
def Canvas.nesting (canvas : Canvas) : Nesting :=
  ⟨canvas.depth, canvas.frames⟩

namespace Nesting

/-- A part begins: it is one deeper, and counted in the innermost list if this is its `level`. -/
def begin (nesting : Nesting) : Nesting where
  depth := nesting.depth + 1
  lists := match nesting.lists with
    | [] => []
    | frame :: outer =>
        if frame.level = nesting.depth + 1 then { frame with count := frame.count + 1 } :: outer
        else frame :: outer

/-- A part ends: it was at `depth`, and what is around it is one less deep. -/
def finish (nesting : Nesting) : Nesting :=
  { nesting with depth := nesting.depth - 1 }

/-- A list opens if there is a `separator` for it: its items are one deeper. -/
def openList (nesting : Nesting) : Option (List Char) → Nesting
  | none => nesting
  | some separator => { nesting with lists := ⟨nesting.depth + 1, 0, separator⟩ :: nesting.lists }

/-- A list closes if there is a separator for it: the innermost of `lists` is taken off. -/
def closeList (nesting : Nesting) : Option (List Char) → Nesting
  | none => nesting
  | some _ => { nesting with lists := nesting.lists.tail }

end Nesting

/-- What stands between the parts directly inside a part, if those are the items of a list: the
separator that `enter` opens a list with. -/
def Part.itemSeparator? (config : RenderConfig) : Part → Option (List Char)
  | .statement _ => some config.clauseSeparator
  | .pattern _ | .properties _ | .projection _ | .order _ | .expression (.call _ _ _) =>
      some commaText
  | .reading _ | .element _ | .chain _ | .node _ | .relationship _ | .entry _ | .condition _
  | .expression _ | .operator _ | .returning _ | .sortItem _ | .skip _ | .limit _ => none

namespace OpenPart

variable (config : RenderConfig)

/-- The lists of open parts, those with an `itemSeparator?`. The items of a list are one deeper than
the part that it belongs to. -/
def lists : List OpenPart → List ListFrame
  | [] => []
  | ⟨part, begun⟩ :: outer =>
      match part.itemSeparator? config with
      | none => lists outer
      | some separator => ⟨outer.length + 2, begun, separator⟩ :: lists outer

/-- The nesting in which just these parts are open: as deep as there are parts, with their
`lists`. -/
def nesting (stack : List OpenPart) : Nesting :=
  ⟨stack.length, lists config stack⟩

/-- The `lists` around a part have their items at its depth or above. -/
theorem level_le_of_mem_lists {stack : List OpenPart} {frame : ListFrame}
    (member : frame ∈ lists config stack) : frame.level ≤ stack.length + 1 := by
  induction stack with
  | nil => exact absurd member List.not_mem_nil
  | cons top outer ih =>
      rw [lists] at member
      rw [List.length_cons]
      split at member
      · have := ih member
        omega
      · rcases List.mem_cons.mp member with rfl | member
        · exact Nat.le_refl _
        · have := ih member
          omega

/-- A part that begins is counted in the list of the innermost open part, and in no other one:
`Nesting.begin` and `counted`. -/
theorem begin_nesting (stack : List OpenPart) :
    (nesting config stack).begin = ⟨stack.length + 1, lists config (counted 1 stack)⟩ := by
  rcases stack with _ | ⟨⟨part, begun⟩, outer⟩
  · rfl
  · refine Nesting.ext rfl ?_
    simp only [Nesting.begin, nesting, counted, lists, List.length_cons]
    rcases part.itemSeparator? config with _ | separator
    · -- The innermost list belongs to a part further out, whose items are not so deep.
      simp only
      rcases same : lists config outer with _ | ⟨frame, further⟩
      · rfl
      · have level := level_le_of_mem_lists config (same ▸ List.mem_cons_self)
        exact if_neg (by omega)
    · exact if_pos rfl

/-- After a part has begun, its list opens if it has one: the nesting is that of `follow` on
`enter`. -/
theorem openList_begin_nesting (stack : List OpenPart) (part : Part) :
    (nesting config stack).begin.openList (part.itemSeparator? config)
      = nesting config (follow stack (.enter part)) := by
  rw [begin_nesting, follow]
  refine Nesting.ext ?_ ?_
  · rcases part.itemSeparator? config <;> simp [Nesting.openList, nesting]
  · rw [nesting, lists]
    rcases part.itemSeparator? config <;> simp [Nesting.openList]

/-- When the innermost open part ends, its list closes if it has one: the nesting is that of
`follow` on `leave`. -/
theorem finish_closeList_nesting {stack : List OpenPart} {part : Part} {begun : Nat}
    (top : stack.head? = some ⟨part, begun⟩) :
    ((nesting config stack).closeList (part.itemSeparator? config)).finish
      = nesting config (follow stack (.leave part)) := by
  obtain ⟨outer, rfl⟩ := List.head?_eq_some_iff.mp top
  rw [follow, nesting, nesting, lists]
  rcases part.itemSeparator? config <;>
    simp [Nesting.closeList, Nesting.finish]

end OpenPart

namespace Render

/-! ## What a step does to the nesting -/

/-- Unless it fails, the writer only appends to the text, `<+:`, and changes the nesting by
`move`. -/
def Moves (move : Nesting → Nesting) (writer : Writer Unit) : Prop :=
  ∀ canvas next : Canvas, writer.run canvas = .ok ((), next) →
    canvas.text <+: next.text ∧ next.nesting = move canvas.nesting

/-- Two writers in a row succeed only if both do, with a canvas `middle` between them. -/
theorem run_bind_eq_ok {first second : Writer Unit} {canvas next : Canvas}
    (whole : (do first; second : Writer Unit).run canvas = .ok ((), next)) :
    ∃ middle, first.run canvas = .ok ((), middle) ∧ second.run middle = .ok ((), next) := by
  rw [StateT.run_bind] at whole
  rcases one : first.run canvas with failure | ⟨⟨⟩, middle⟩
  · rw [one] at whole
    cases whole
  · rw [one] at whole
    exact ⟨middle, rfl, whole⟩

/-- Writers one after the other move the nesting one after the other: `Moves` of a composition. -/
theorem Moves.bind {first second : Writer Unit} {move further : Nesting → Nesting}
    (one : Moves move first) (other : Moves further second) :
    Moves (further ∘ move) (do first; second) := by
  intro canvas next whole
  obtain ⟨middle, start, rest⟩ := run_bind_eq_ok whole
  obtain ⟨shorter, moved⟩ := one canvas middle start
  obtain ⟨longer, same⟩ := other middle next rest
  exact ⟨shorter.trans longer, by rw [same, moved]; rfl⟩

/-- A change of the canvas moves the nesting as it does that of every canvas: `Moves` of
`modify`. -/
theorem moves_modify {move : Nesting → Nesting} {change : Canvas → Canvas}
    (appends : ∀ canvas : Canvas, canvas.text <+: (change canvas).text)
    (changes : ∀ canvas : Canvas, (change canvas).nesting = move canvas.nesting) :
    Moves move (modify change) := by
  rintro canvas _ ⟨⟩
  exact ⟨appends canvas, changes canvas⟩

/-- Nothing moves the nesting if nothing is done: `Moves id`. -/
theorem moves_nothing : Moves id (pure ()) := by
  rintro canvas _ ⟨⟩
  exact ⟨List.prefix_rfl, rfl⟩

/-- Writing by `write` does not move the nesting. -/
theorem moves_write (text : List Char) : Moves id (write text) :=
  moves_modify (fun canvas => by rw [Canvas.text_write]; exact List.prefix_append _ _)
    fun _ => rfl

/-- Writing a text that may not exist by `writeRendered` does not move the nesting. -/
theorem moves_rendered (text : Rendered) : Moves id (writeRendered text) := by
  rcases text with failure | text
  · rintro canvas next ⟨⟩
  · exact moves_write text

/-- A `check` does not move the nesting. -/
theorem moves_check (result : Except RenderError Unit) : Moves id (check result) := by
  rcases result with failure | ⟨⟩
  · rintro canvas next ⟨⟩
  · exact moves_nothing

/-- What is written only in some cases does not move the nesting, `id`. -/
theorem moves_optional (choice : Bool) {move : Nesting → Nesting} {writer rest : Writer Unit}
    (sometimes : Moves id writer) (always : Moves move rest) :
    Moves move (if choice then do writer; rest else rest) := by
  rcases choice with _ | _
  · exact always
  · exact sometimes.bind always

/-- Opening a list by `Canvas.openList` puts it inside the others, as `Nesting.openList` does. -/
theorem moves_openList (separator : List Char) :
    Moves (Nesting.openList · (some separator)) (modify (Canvas.openList separator)) :=
  moves_modify (fun _ => List.prefix_rfl) fun _ => rfl

/-- Closing a list by `Canvas.closeList` leaves the others, as `Nesting.closeList` does. -/
theorem moves_closeList (separator : List Char) :
    Moves (Nesting.closeList · (some separator)) (modify Canvas.closeList) :=
  moves_modify (fun _ => List.prefix_rfl) fun _ => rfl

/-- Names behind marks, `writeNames`, do not move the nesting. -/
theorem moves_writeNames (config : RenderConfig) (context : NameContext) (first next : Char)
    (names : List String) : Moves id (writeNames config context first next names) := by
  induction names generalizing first with
  | nil => exact moves_nothing
  | cons name rest ih =>
      exact (moves_write [first]).bind ((moves_rendered _).bind (ih next))

/-- A name that may be missing, `writeOptionalName`, does not move the nesting. -/
theorem moves_writeOptionalName (config : RenderConfig) (context : NameContext)
    (name : Option String) : Moves id (writeOptionalName config context name) := by
  rcases name with _ | name
  · exact moves_nothing
  · exact moves_rendered _

variable (config : RenderConfig)

/-- What is written before the inside of an expression, `writeHead`, opens the list of a call. -/
theorem moves_writeHead (e : Expression) :
    Moves (Nesting.openList · ((Part.expression e).itemSeparator? config))
      (writeHead config e) := by
  rcases e with value | name | name | ⟨subject, key⟩ | ⟨function, distinct, arguments⟩ | _ |
    ⟨op, left, right⟩ | ⟨op, left, right⟩ | ⟨op, operand⟩ | inner | ⟨inner, name⟩
  case literal => exact moves_rendered _
  case parameter => exact moves_rendered _
  case «variable» => exact moves_rendered _
  case call =>
    exact (moves_write _).bind (moves_optional _ (moves_write _) (moves_openList commaText))
  case asterisk => exact moves_write _
  case nested => exact moves_write _
  all_goals exact moves_nothing

/-- What is written behind the inside of an expression, `writeTail`, closes the list of a call. -/
theorem moves_writeTail (e : Expression) :
    Moves (Nesting.closeList · ((Part.expression e).itemSeparator? config))
      (writeTail config e) := by
  rcases e with value | name | name | ⟨subject, key⟩ | ⟨function, distinct, arguments⟩ | _ |
    ⟨op, left, right⟩ | ⟨op, left, right⟩ | ⟨op, operand⟩ | inner | ⟨inner, name⟩
  case property => exact (moves_write _).bind (moves_rendered _)
  case call => exact (moves_closeList commaText).bind (moves_write _)
  case nested => exact moves_write _
  case aliased => exact (moves_write _).bind (moves_rendered _)
  all_goals exact moves_nothing

/-- What is written when a part begins, `enter`, opens its list if it has one. -/
theorem moves_enter (part : Part) :
    Moves (Nesting.openList · (part.itemSeparator? config)) (enter config part) := by
  cases part with
  | statement s => exact (moves_check _).bind (moves_openList _)
  | pattern p => exact (moves_check _).bind (moves_openList _)
  | node n =>
      exact (moves_write _).bind
        ((moves_writeOptionalName config _ _).bind (moves_writeNames config _ _ _ _))
  | relationship r =>
      have details := (moves_write ['[']).bind ((moves_writeOptionalName config .relationship
        r.name).bind (moves_writeNames config .relationshipType ':' '|' r.types))
      have bracketed : Moves id (if !r.isBare then do
          write ['[']
          writeOptionalName config .relationship r.name
          writeNames config .relationshipType ':' '|' r.types
        else pure ()) := by
        rcases r.isBare with _ | _
        · exact details
        · exact moves_nothing
      exact (moves_write _).bind bracketed
  | properties map =>
      -- Whether a blank is written depends on the canvas; the rest does not.
      intro canvas next whole
      exact moves_optional (!canvas.endsWithOpening) (moves_write [' '])
        ((moves_write ['\x7b']).bind (moves_openList commaText)) canvas next whole
  | entry e => exact (moves_rendered _).bind (moves_write _)
  | expression e => exact moves_writeHead config e
  | projection p =>
      exact (moves_check _).bind (moves_optional _ (moves_write _) (moves_openList commaText))
  | order items =>
      exact (moves_check _).bind ((moves_write _).bind (moves_openList _))
  | element _ | chain _ | sortItem _ => exact moves_nothing
  | reading _ | condition _ | operator _ | returning _ | skip _ | limit _ =>
      exact moves_write _

/-- What is written when a part ends, `leave`, closes its list if it has one. -/
theorem moves_leave (part : Part) :
    Moves (Nesting.closeList · (part.itemSeparator? config)) (leave config part) := by
  cases part with
  | statement s => exact moves_closeList config.clauseSeparator
  | pattern _ | projection _ | order _ => exact moves_closeList commaText
  | node _ => exact moves_write _
  | relationship r => exact moves_optional _ (moves_write _) (moves_write _)
  | properties _ => exact (moves_closeList commaText).bind (moves_write _)
  | expression e => exact moves_writeTail config e
  | sortItem _ => exact moves_write _
  | reading _ | element _ | chain _ | entry _ | condition _ | operator _ | returning _ | skip _
  | limit _ => exact moves_nothing

/-- The beginning of a part, `Canvas.begin`, writes at most a separator. -/
theorem moves_begin : Moves Nesting.begin (modify Canvas.begin) := by
  refine moves_modify (fun canvas => ?_) fun canvas => ?_
  · obtain ⟨reversed, depth, frames⟩ := canvas
    rcases frames with _ | ⟨frame, outer⟩
    · exact List.prefix_rfl
    · unfold Canvas.begin
      dsimp only
      split
      · split
        · exact List.prefix_rfl
        · rw [Canvas.text_write]
          exact List.prefix_append _ _
      · exact List.prefix_rfl
  · obtain ⟨reversed, depth, frames⟩ := canvas
    rcases frames with _ | ⟨frame, outer⟩
    · rfl
    · by_cases item : frame.level = depth + 1
      · by_cases first : frame.count = 0 <;>
          simp [Canvas.begin, Canvas.nesting, Nesting.begin, Canvas.write, item, first]
      · simp [Canvas.begin, Canvas.nesting, Nesting.begin, item]

/-- One step of `visit` keeps a canvas whose nesting is that of the open parts. -/
theorem visit_nesting {event : Event} {stack : List OpenPart} {canvas next : Canvas}
    (fits : OpenPart.Fits stack [event]) (nested : canvas.nesting = OpenPart.nesting config stack)
    (step : (visit config event).run canvas = .ok ((), next)) :
    canvas.text <+: next.text ∧
      next.nesting = OpenPart.nesting config (OpenPart.follow stack event) := by
  rcases event with part | part
  · obtain ⟨longer, moved⟩ :=
      ((moves_check _).bind (moves_begin.bind (moves_enter config part))) canvas next step
    refine ⟨longer, moved.trans ?_⟩
    rw [nested, ← OpenPart.openList_begin_nesting]
    rfl
  · obtain ⟨⟨begun, top⟩, -⟩ := fits
    have ends : Moves Nesting.finish (modify Canvas.finish) :=
      moves_modify (fun _ => List.prefix_rfl) fun _ => rfl
    obtain ⟨longer, moved⟩ := ((moves_leave config part).bind ends) canvas next step
    refine ⟨longer, moved.trans ?_⟩
    rw [nested, ← OpenPart.finish_closeList_nesting config top]
    rfl

/-- A run of steps keeps a canvas whose nesting is that of the open parts: `visit_nesting` event by
event. -/
theorem forM_nesting {events : List Event} {stack : List OpenPart} {canvas next : Canvas}
    (fits : OpenPart.Fits stack events) (nested : canvas.nesting = OpenPart.nesting config stack)
    (run : (events.forM (visit config)).run canvas = .ok ((), next)) :
    canvas.text <+: next.text ∧
      next.nesting = OpenPart.nesting config (events.foldl OpenPart.follow stack) := by
  induction events generalizing stack canvas with
  | nil =>
      cases run
      exact ⟨List.prefix_rfl, nested⟩
  | cons event rest ih =>
      obtain ⟨first, others⟩ := OpenPart.fits_append.mp (show OpenPart.Fits stack ([event] ++ rest)
        from fits)
      obtain ⟨middle, step, steps⟩ := run_bind_eq_ok run
      obtain ⟨shorter, moved⟩ := visit_nesting config first nested step
      obtain ⟨longer, same⟩ := ih others moved steps
      exact ⟨shorter.trans longer, same⟩

/-! ## Visits -/

/-- What a visit of a part does to a canvas, given the parts that are open `around` it. -/
structure Visited (around : List OpenPart) (canvas next : Canvas) : Prop where
  /-- The canvas is as deep as there are open parts. -/
  open_parts : canvas.depth = around.length
  /-- The depth is what it was. -/
  depth : next.depth = canvas.depth
  /-- More text at the end. -/
  text : canvas.text <+: next.text
  /-- Directly inside a part with a list, the visited part is one more item of that list, which is
  the innermost one, and no other list changes. -/
  item : ∀ part begun separator, around.head? = some ⟨part, begun⟩ →
    part.itemSeparator? config = some separator → ∃ outer,
      canvas.frames = ⟨canvas.depth + 1, begun, separator⟩ :: outer ∧
      next.frames = ⟨canvas.depth + 1, begun + 1, separator⟩ :: outer
  /-- Anywhere else no list changes. -/
  inner : (∀ part begun, around.head? = some ⟨part, begun⟩ → part.itemSeparator? config = none) →
    next.frames = canvas.frames

/-- Whatever is written with just these parts open, and leaves one more part `counted`, is a
visit. -/
theorem Visited.of_nesting {around : List OpenPart} {canvas next : Canvas}
    (before : canvas.nesting = OpenPart.nesting config around)
    (longer : canvas.text <+: next.text)
    (behind : next.nesting = OpenPart.nesting config (OpenPart.counted 1 around)) :
    Visited config around canvas next := by
  obtain ⟨reversed, depth, frames⟩ := canvas
  obtain ⟨written, deep, lists⟩ := next
  obtain ⟨rfl, rfl⟩ := Nesting.mk.inj before
  obtain ⟨rfl, rfl⟩ := Nesting.mk.inj behind
  refine ⟨rfl, OpenPart.length_counted 1 around, longer, ?_, ?_⟩
  · intro part begun separator top has
    obtain ⟨outer, rfl⟩ := List.head?_eq_some_iff.mp top
    refine ⟨OpenPart.lists config outer, ?_⟩
    simp [OpenPart.lists, OpenPart.counted, has]
  · intro none
    rcases around with _ | ⟨⟨part, begun⟩, outer⟩
    · rfl
    · simp [OpenPart.lists, OpenPart.counted, none part begun rfl]

/-- The renderer's visitor writes the text that the printer reads off the structure,
`tree.print config`, or fails as the printer does, and its walk is `visit` along `tree.events`.
Along the walk, whatever prefix of it has been run, a part that ends has begun before, so the depth
is never lowered below zero; and the visit of a part, the events `part.around inside`, leaves the
depth and the lists as it found them, appends to the text, and counts the part in the innermost list
exactly if the part is an item of that list (`Visited`). -/
theorem rendering_nests (config : RenderConfig) (tree : Tree) :
    tree.render config = (tree.print config).map String.ofList ∧
    tree.walk (visit config) = tree.events.forM (visit config) ∧
    (∀ before (part : Part) after canvas, tree.events = before ++ .leave part :: after →
      (do before.forM (visit config); leave config part : Writer Unit).run Canvas.blank
        = .ok ((), canvas) →
      0 < canvas.depth) ∧
    ∀ before (part : Part) inside after canvas next,
      tree.events = before ++ (part.around inside ++ after) → Complete inside →
      (before.forM (visit config)).run Canvas.blank = .ok ((), canvas) →
      ((part.around inside).forM (visit config)).run canvas = .ok ((), next) →
      Visited config (OpenPart.after before) canvas next := by
  have fits : OpenPart.Fits [] tree.events :=
    ((OpenPart.fits_of_complete tree.complete_events).choose_spec []).1
  refine ⟨tree.render_eq_print config, tree.walk_eq_forM (visit config), ?_, ?_⟩
  · intro before part after canvas same run
    rw [same, OpenPart.fits_append] at fits
    obtain ⟨first, ⟨begun, top⟩, -⟩ := fits
    obtain ⟨middle, start, step⟩ := run_bind_eq_ok run
    have nested := (forM_nesting config first rfl start).2
    have moved := (moves_leave config part middle canvas step).2
    -- The part that ends is still open, and closing its list does not change the depth.
    obtain ⟨outer, opened⟩ := List.head?_eq_some_iff.mp top
    rw [nested, opened] at moved
    have depth : canvas.depth = outer.length + 1 := by
      rw [show canvas.depth = canvas.nesting.depth from rfl, moved]
      rcases part.itemSeparator? config <;> rfl
    omega
  · intro before part inside after canvas next same within start run
    rw [same, OpenPart.fits_append, OpenPart.fits_append] at fits
    obtain ⟨first, visited, -⟩ := fits
    have nested := (forM_nesting config first rfl start).2
    obtain ⟨longer, moved⟩ := forM_nesting config visited nested run
    rw [OpenPart.foldl_around part within] at moved
    exact .of_nesting config nested longer moved

/-- Behind `toUpper` inside `coalesce`, the second argument is the second item of the outer list. -/
theorem rendering_nests_nestedCalls :
    ∃ canvas next inner outer,
      inner = Expression.call "toUpper" false [.variable "n"] ∧
      outer = Expression.call "coalesce" false [inner, .literal .null] ∧
      ((.enter (.expression outer) :: inner.events).forM (visit .plain)).run Canvas.blank
        = .ok ((), canvas) ∧
      ((Expression.literal .null).events.forM (visit .plain)).run canvas = .ok ((), next) ∧
      canvas.text = "coalesce(toUpper(n)".toList ∧
      next.text = "coalesce(toUpper(n), NULL".toList ∧
      Visited .plain [⟨.expression outer, 1⟩] canvas next := by
  refine ⟨⟨"coalesce(toUpper(n)".toList.reverse, 1, [⟨2, 1, commaText⟩]⟩,
    ⟨"coalesce(toUpper(n), NULL".toList.reverse, 1, [⟨2, 2, commaText⟩]⟩, _, _, rfl, rfl, rfl, rfl,
    rfl, rfl, ?_⟩
  exact (rendering_nests .plain (.expression (.call "coalesce" false
    [.call "toUpper" false [.variable "n"], .literal .null]))).2.2.2
    (.enter _ :: (Expression.call "toUpper" false [.variable "n"]).events)
    (.expression (.literal .null)) [] [.leave _] _ _ rfl .nil rfl rfl

end Render

end CypherQuery
