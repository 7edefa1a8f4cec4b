import CypherQuery.Render.Canvas
import CypherQuery.Render.Print

/-! # The visitor writes the printed text

The visitor keeps a depth and a stack of lists, the printer knows the structure of the tree. The
statement `Prints` says once what a complete visit of a part does to a canvas: it appends the
printed text, behind a separator if the part is a further item of the innermost list, counts that
item, and leaves everything else as it was (`Canvas.item`). The main statements, `render_eq_print`
and its two siblings, are that a renderer's text of a pattern, an expression and a statement is the
printed one, errors included. -/

namespace CypherQuery

namespace Canvas

/-- A canvas inside a part: parts that begin now are no items of the innermost list, whose `level`
is at most `depth`. -/
def Inside (canvas : Canvas) : Prop :=
  ∀ frame ∈ canvas.frames.head?, frame.level ≤ canvas.depth

/-- A canvas between parts: a part that begins now is an item of the innermost list, or no item if
its `level` is at most `depth`. -/
def Between (canvas : Canvas) : Prop :=
  ∀ frame ∈ canvas.frames.head?, frame.level ≤ canvas.depth + 1

/-- The canvas after a part that writes a text: `begin`, the text, `finish`. -/
def item (text : List Char) (canvas : Canvas) : Canvas :=
  (canvas.begin.write text).finish

/-- The canvas in a list of which `count` items have begun. -/
def inList (separator : List Char) (count : Nat) (canvas : Canvas) : Canvas :=
  { canvas with frames := ⟨canvas.depth + 1, count, separator⟩ :: canvas.frames }

/-- Two texts written one after the other are one text: `write` of an append. -/
@[simp] theorem write_write (first second : List Char) (canvas : Canvas) :
    (canvas.write first).write second = canvas.write (first ++ second) := by
  simp [write]

/-- Writing does not leave the part: `Inside` is kept. -/
theorem Inside.write {canvas : Canvas} (inside : canvas.Inside) (text : List Char) :
    (canvas.write text).Inside := inside

/-- A canvas `Inside` a part is `Between` its own parts. -/
theorem Inside.between {canvas : Canvas} (inside : canvas.Inside) : canvas.Between :=
  fun frame top => Nat.le_succ_of_le (inside frame top)

/-- Where no item can begin, `begin` only goes deeper. -/
theorem Inside.begin_eq {canvas : Canvas} (inside : canvas.Inside) :
    canvas.begin = { canvas with depth := canvas.depth + 1 } := by
  obtain ⟨reversed, depth, frames⟩ := canvas
  cases frames with
  | nil => rfl
  | cons frame outer =>
      have below : frame.level ≤ depth := inside frame rfl
      rw [begin]
      exact if_neg (by show ¬frame.level = depth + 1; omega)

/-- A part `Inside` another one only writes its text. -/
theorem Inside.item_eq {canvas : Canvas} (inside : canvas.Inside) (text : List Char) :
    canvas.item text = canvas.write text := by
  rw [item, inside.begin_eq]
  rfl

/-- The beginning of a part leads into it: `begin` takes `Between` to `Inside`. -/
theorem Between.inside_begin {canvas : Canvas} (between : canvas.Between) :
    canvas.begin.Inside := by
  obtain ⟨reversed, depth, frames⟩ := canvas
  cases frames with
  | nil => intro frame top; cases top
  | cons frame outer =>
      have level : frame.level ≤ depth + 1 := between frame rfl
      unfold begin
      dsimp only
      -- If the part is an item, the list counts it; its level stays what it was.
      split
      · split
        · intro other top; cases top; exact level
        · intro other top; cases top; exact level
      · intro other top; cases top; exact level

/-- The items of a list begin in it: `inList` is `Between`. -/
theorem between_inList (separator : List Char) (count : Nat) (canvas : Canvas) :
    (canvas.inList separator count).Between := by
  intro frame top
  cases top
  exact Nat.le_refl _

/-- A list opens with no items, `inList` with the count zero. -/
theorem openList_eq (separator : List Char) (canvas : Canvas) :
    canvas.openList separator = canvas.inList separator 0 := rfl

/-- The first `item` of a list writes its text alone. -/
theorem item_inList_zero (separator text : List Char) (canvas : Canvas) :
    (canvas.inList separator 0).item text = (canvas.write text).inList separator 1 := by
  simp [item, inList, begin, finish, write]

/-- A further `item` of a list writes the separator and its text. -/
theorem item_inList_succ (separator text : List Char) (count : Nat) (canvas : Canvas) :
    (canvas.inList separator (count + 1)).item text
      = (canvas.write (separator ++ text)).inList separator (count + 2) := by
  simp [item, inList, begin, finish, write]

end Canvas

/-- Two texts one after the other, if both exist; otherwise the first error. -/
def Rendered.andThen (first second : Rendered) : Rendered := do
  let text ← first
  let more ← second
  return text ++ more

namespace Render

/-! ## What a writer does to the canvas -/

/-- Inside a part, the writer appends a text and does nothing else, or fails if there is none:
`Canvas.write` on any canvas that is `Inside`. -/
def Writes (writer : Writer Unit) (text : Rendered) : Prop :=
  ∀ canvas : Canvas, canvas.Inside →
    writer.run canvas = text.map fun more => ((), canvas.write more)

/-- Wherever a part can begin, the writer writes a part with that text, or fails if there is none:
`Canvas.item` on any canvas that is `Between`. -/
def Prints (writer : Writer Unit) (text : Rendered) : Prop :=
  ∀ canvas : Canvas, canvas.Between →
    writer.run canvas = text.map fun more => ((), canvas.item more)

/-- Inside another part, a part that `Prints` a text `Writes` it. -/
theorem Prints.writes {writer : Writer Unit} {text : Rendered} (prints : Prints writer text) :
    Writes writer text := by
  intro canvas inside
  rw [prints canvas inside.between]
  exact congrArg (text.map ·) (funext fun more => by rw [inside.item_eq])

/-- A writer that does nothing `Writes` the empty text. -/
theorem writes_nothing : Writes (pure ()) (pure []) :=
  fun _ _ => rfl

/-- Writing a text by `write` `Writes` that text. -/
theorem writes_write (text : List Char) : Writes (write text) (pure text) :=
  fun _ _ => rfl

/-- Writing a text that may not exist by `writeRendered` `Writes` it if it does, and fails as it
does. -/
theorem writes_rendered (text : Rendered) : Writes (writeRendered text) text := by
  intro canvas inside
  cases text <;> rfl

/-- A `check` `Writes` nothing, or fails. -/
theorem writes_check (result : Except RenderError Unit) :
    Writes (check result) (do result; return []) := by
  intro canvas inside
  cases result <;> rfl

/-- Writers one after the other write one text after the other, `andThen`. The second text may rely
on what the first one is. -/
theorem Writes.bind_of_text {first second : Writer Unit} {text more : Rendered}
    (one : Writes first text)
    (other : ∀ before, text = .ok before → ∀ canvas : Canvas, canvas.Inside →
      second.run (canvas.write before)
        = more.map fun after => ((), (canvas.write before).write after)) :
    Writes (do first; second) (text.andThen more) := by
  intro canvas inside
  rw [StateT.run_bind, one canvas inside]
  -- A failure of the first writer is the failure of both.
  cases text with
  | error failure => rfl
  | ok before =>
      have rest := other before rfl canvas inside
      cases more with
      | error failure => exact rest
      | ok after =>
          apply rest.trans
          exact congrArg (fun written => Except.ok ((), written))
            (Canvas.write_write before after canvas)

/-- Writers one after the other write one text after the other, `andThen`, whatever the first one
is. -/
theorem Writes.bind {first second : Writer Unit} {text more : Rendered}
    (one : Writes first text) (other : Writes second more) :
    Writes (do first; second) (text.andThen more) :=
  one.bind_of_text fun before _ canvas inside => other (canvas.write before) (inside.write before)

/-! ## Lists -/

/-- The texts of items, each behind a `separator`. -/
def behind {α : Type} (separator : List Char) (print : α → Rendered) : List α → Rendered
  | [] => pure []
  | item :: rest => do
      let first ← print item
      let others ← behind separator print rest
      return separator ++ (first ++ others)

/-- Separators between items, `Print.separated`, are separators before all items but the first. -/
theorem separated_cons {α : Type} (separator : List Char) (print : α → Rendered) (item : α)
    (rest : List α) :
    Print.separated separator print (item :: rest)
      = (print item).andThen (behind separator print rest) := by
  induction rest generalizing item with
  | nil =>
      rw [Print.separated]
      cases print item with
      | error failure => rfl
      | ok text => exact congrArg Except.ok (List.append_nil text).symm
  | cons next rest ih =>
      rw [Print.separated, ih, behind]
      simp only [Rendered.andThen, bind_assoc, pure_bind]

variable {α : Type} {walk : α → Writer Unit} {print : α → Rendered} (separator : List Char)

/-- Further items of a list write their texts, each `behind` a separator, by induction on the
items. -/
theorem walkItems_behind {items : List α}
    (each : ∀ item ∈ items, Prints (walk item) (print item)) (count : Nat) (canvas : Canvas) :
    (walkItems walk items).run (canvas.inList separator (count + 1))
      = (behind separator print items).map fun more =>
          ((), (canvas.write more).inList separator (count + 1 + items.length)) := by
  -- The induction is over the items; the count only tells the list that it is not at its first
  -- one.
  induction items generalizing count canvas with
  | nil => rfl
  | cons item rest ih =>
      obtain ⟨first, others⟩ := List.forall_mem_cons.mp each
      rw [walkItems, StateT.run_bind, first _ (Canvas.between_inList _ _ _), behind]
      cases print item with
      | error failure => rfl
      | ok text =>
          have next := ih others (count + 1) (canvas.write (separator ++ text))
          rw [← Canvas.item_inList_succ] at next
          apply next.trans
          cases behind separator print rest with
          | error failure => rfl
          | ok more =>
              refine congrArg Except.ok (congrArg (Prod.mk ()) ?_)
              rw [Canvas.write_write, List.append_assoc, List.length_cons]
              exact congrArg (Canvas.inList separator · _) (by omega)

/-- The items of a list write their texts with separators between them, `Print.separated`. -/
theorem walkItems_separated {items : List α}
    (each : ∀ item ∈ items, Prints (walk item) (print item)) (canvas : Canvas) :
    (walkItems walk items).run (canvas.openList separator)
      = (Print.separated separator print items).map fun text =>
          ((), (canvas.write text).inList separator items.length) := by
  rw [Canvas.openList_eq]
  cases items with
  | nil => rfl
  | cons item rest =>
      -- The first item is written without a separator and leaves the others behind it.
      obtain ⟨first, others⟩ := List.forall_mem_cons.mp each
      rw [walkItems, StateT.run_bind, first _ (Canvas.between_inList _ _ _), separated_cons]
      cases print item with
      | error failure => rfl
      | ok text =>
          have next := walkItems_behind separator others 0 (canvas.write text)
          rw [← Canvas.item_inList_zero] at next
          apply next.trans
          cases behind separator print rest with
          | error failure => rfl
          | ok more =>
              refine congrArg Except.ok (congrArg (Prod.mk ()) ?_)
              rw [Canvas.write_write, List.length_cons]
              exact congrArg (Canvas.inList separator · _) (by omega)

/-- A list that is opened, written by `walkItems` and closed writes its items with separators
between them (`Print.separated`), and what is written behind it follows: the list is gone from the
frames again. -/
theorem writes_list {items : List α} (each : ∀ item ∈ items, Prints (walk item) (print item))
    {writer : Writer Unit} {text : Rendered} (other : Writes writer text) :
    Writes
      (do
        modify (Canvas.openList separator)
        walkItems walk items
        modify Canvas.closeList
        writer)
      ((Print.separated separator print items).andThen text) := by
  intro canvas inside
  have written := walkItems_separated separator each canvas
  show (StateT.run (walkItems walk items) (canvas.openList separator) >>= _) = _
  rw [written]
  cases Print.separated separator print items with
  | error failure => rfl
  | ok list =>
      refine (other (canvas.write list) (inside.write list)).trans ?_
      cases text with
      | error failure => rfl
      | ok more =>
          exact congrArg (fun written => Except.ok ((), written))
            (Canvas.write_write list more canvas)

/-! ## Parts -/

/-- The same text in another form: `Writes` up to equality of texts. -/
theorem Writes.cast {writer : Writer Unit} {text other : Rendered} (writes : Writes writer text)
    (same : text = other) : Writes writer other :=
  same ▸ writes

variable (config : RenderConfig)

/-- A part writes what is written on entering it, inside it and on leaving it, provided that its
`precheck` succeeds, on one canvas. -/
theorem run_part {part : Part} {inside : Writer Unit} {text : Rendered} {canvas : Canvas}
    (body : (do enter config part; inside; leave config part : Writer Unit).run canvas.begin
      = text.map fun more => ((), canvas.begin.write more)) :
    (Part.walk (visit config) part inside).run canvas
      = (do precheck part; text : Rendered).map fun more => ((), canvas.item more) := by
  have regroup : Part.walk (visit config) part inside = (do
      check (precheck part)
      modify Canvas.begin
      (do enter config part; inside; leave config part)
      modify Canvas.finish) := by
    simp only [Part.walk, visit, bind_assoc]
  -- The check comes before the part begins, and its failure leaves nothing to be written.
  rw [regroup]
  cases precheck part with
  | error failure => rfl
  | ok =>
      show (StateT.run (do enter config part; inside; leave config part : Writer Unit)
        canvas.begin >>= _) = _
      rw [body]
      cases text <;> rfl

/-- A part `Prints` what is written on entering it, inside it and on leaving it, provided that its
`precheck` succeeds. -/
theorem prints_part {part : Part} {inside : Writer Unit} {text : Rendered}
    (body : Writes (do enter config part; inside; leave config part) text) :
    Prints (Part.walk (visit config) part inside) (do precheck part; text) :=
  fun canvas between => run_part config (body canvas.begin between.inside_begin)

/-- A part without a `precheck` prints what is written on entering it, inside it and on leaving
it. -/
theorem prints_unchecked {part : Part} {inside : Writer Unit} {text : Rendered}
    (unchecked : precheck part = .ok ())
    (body : Writes (do enter config part; inside; leave config part) text) :
    Prints (Part.walk (visit config) part inside) text := by
  have prints := prints_part config body
  rw [unchecked] at prints
  exact prints

/-- An operator prints its word with the blanks around it, `operatorText`. -/
theorem prints_operator (op : Operator) :
    Prints (op.walk (visit config)) (pure (operatorText op)) := by
  apply prints_unchecked config rfl
  simp only [enter, leave, pure_bind, bind_pure_unit]
  exact writes_write _

/-- The texts of arguments are the texts of expressions with `commaText` between them. -/
theorem expressions_eq_separated (arguments : List Expression) :
    Print.expressions config arguments
      = Print.separated commaText (Print.expression config) arguments := by
  induction arguments with
  | nil => rfl
  | cons e rest ih =>
      cases rest with
      | nil => rfl
      | cons next rest => rw [Print.expressions, Print.separated, ih]

/-- Walking arguments by `walkAll` is `walkItems` along a list of expressions. -/
theorem walkAll_eq_walkItems (visit : Event → Writer Unit) (arguments : List Expression) :
    Expression.walkAll visit arguments = walkItems (Expression.walk visit) arguments := by
  induction arguments with
  | nil => rfl
  | cons e rest ih => rw [Expression.walkAll, walkItems, ih]

/-- A call prints its text, `Print.expression`, if each argument does. -/
theorem prints_call (function : String) (distinct : Bool) {arguments : List Expression}
    (each : ∀ e ∈ arguments, Prints (e.walk (visit config)) (Print.expression config e)) :
    Prints ((Expression.call function distinct arguments).walk (visit config))
      (Print.expression config (.call function distinct arguments)) := by
  have list := writes_list commaText each (writes_write [')'])
  apply prints_unchecked config rfl
  rw [Print.expression, expressions_eq_separated]
  cases distinct with
  | true =>
      simp only [enter, leave, writeHead, writeTail, if_true, bind_assoc, walkAll_eq_walkItems]
      refine Writes.cast (.bind (writes_write _) (.bind (writes_write _) list)) ?_
      simp only [Rendered.andThen, bind_assoc, pure_bind, List.append_assoc, List.singleton_append]
  | false =>
      simp only [enter, leave, writeHead, writeTail, Bool.false_eq_true, if_false, bind_assoc,
        walkAll_eq_walkItems]
      refine Writes.cast (.bind (writes_write _) list) ?_
      simp only [Rendered.andThen, bind_assoc, pure_bind, List.append_assoc, List.singleton_append,
        List.nil_append]

mutual

/-- An expression prints its text, `Print.expression`: one case for each constructor. -/
theorem prints_expression (e : Expression) :
    Prints (e.walk (visit config)) (Print.expression config e) := by
  match e with
  | .literal value =>
      apply prints_unchecked config rfl
      simp only [enter, leave, writeHead, writeTail, pure_bind, bind_pure_unit]
      exact writes_rendered _
  | .parameter name =>
      apply prints_unchecked config rfl
      simp only [enter, leave, writeHead, writeTail, pure_bind, bind_pure_unit]
      exact writes_rendered _
  | .variable name =>
      apply prints_unchecked config rfl
      simp only [enter, leave, writeHead, writeTail, pure_bind, bind_pure_unit]
      exact writes_rendered _
  | .asterisk =>
      apply prints_unchecked config rfl
      simp only [enter, leave, writeHead, writeTail, pure_bind, bind_pure_unit]
      exact writes_write _
  | .property subject key =>
      apply prints_unchecked config rfl
      simp only [enter, leave, writeHead, writeTail, pure_bind]
      refine Writes.cast (.bind (prints_expression subject).writes
        (.bind (writes_write _) (writes_rendered _))) ?_
      simp only [Rendered.andThen, Print.expression, bind_assoc, pure_bind, List.singleton_append]
  | .call function distinct arguments =>
      exact prints_call config function distinct (prints_each arguments)
  | .comparison op left right =>
      apply prints_unchecked config rfl
      simp only [enter, leave, writeHead, writeTail, pure_bind, bind_assoc, bind_pure_unit]
      refine Writes.cast (.bind (prints_expression left).writes
        (.bind (prints_operator config _).writes (prints_expression right).writes)) ?_
      simp only [Rendered.andThen, Print.expression, bind_assoc, pure_bind]
  | .logical op left right =>
      apply prints_unchecked config rfl
      simp only [enter, leave, writeHead, writeTail, pure_bind, bind_assoc, bind_pure_unit]
      refine Writes.cast (.bind (prints_expression left).writes
        (.bind (prints_operator config _).writes (prints_expression right).writes)) ?_
      simp only [Rendered.andThen, Print.expression, bind_assoc, pure_bind]
  | .unary op operand =>
      apply prints_unchecked config rfl
      simp only [enter, leave, writeHead, writeTail, pure_bind, bind_pure_unit]
      cases precedes : op.precedesOperand with
      | true =>
          refine Writes.cast (.bind (prints_operator config _).writes
            (prints_expression operand).writes) ?_
          simp only [Rendered.andThen, Print.expression, precedes, pure_bind, if_true]
      | false =>
          refine Writes.cast (.bind (prints_expression operand).writes
            (prints_operator config _).writes) ?_
          simp [Rendered.andThen, Print.expression, precedes]
  | .nested inner =>
      apply prints_unchecked config rfl
      simp only [enter, leave, writeHead, writeTail]
      refine Writes.cast (.bind (writes_write _) (.bind (prints_expression inner).writes
        (writes_write _))) ?_
      simp only [Rendered.andThen, Print.expression, bind_assoc, pure_bind, List.singleton_append]
  | .aliased inner name =>
      apply prints_unchecked config rfl
      simp only [enter, leave, writeHead, writeTail, pure_bind]
      refine Writes.cast (.bind (prints_expression inner).writes
        (.bind (writes_write _) (writes_rendered _))) ?_
      simp only [Rendered.andThen, Print.expression, bind_assoc, pure_bind]

/-- Each of some expressions prints its text, `Print.expression`. -/
theorem prints_each (es : List Expression) :
    ∀ e ∈ es, Prints (e.walk (visit config)) (Print.expression config e) := by
  match es with
  | [] => exact fun _ member => absurd member List.not_mem_nil
  | e :: rest => exact List.forall_mem_cons.mpr ⟨prints_expression e, prints_each rest⟩

end

/-! ## Property maps

Whether a blank comes before a property map is seen by the visitor from the text so far, and by
the printer from the tree. Both agree because no name ends with an opening mark. -/

/-- The canvas sees the last character of what was written last: `endsWithOpening` of a `write`. -/
theorem endsWithOpening_write (init : List Char) (last : Char) (canvas : Canvas) :
    (canvas.write (init ++ [last])).endsWithOpening = (last == '(' || last == '[') := by
  simp [Canvas.write, Canvas.endsWithOpening]

/-- A character that can stand inside an identifier, `Name.isPart`, is no opening mark. -/
theorem not_opening_of_isPart {c : Char} (part : Name.isPart c = true) :
    (c == '(' || c == '[') = false := by
  rw [Bool.or_eq_false_iff, beq_eq_false_iff_ne, beq_eq_false_iff_ne]
  constructor
  · intro same; rw [same] at part; exact absurd part (by decide)
  · intro same; rw [same] at part; exact absurd part (by decide)

/-- A text that does not end with an opening mark, `(` or `[`, and is not empty. -/
def Closed (text : List Char) : Prop :=
  ∃ init last, text = init ++ [last] ∧ (last == '(' || last == '[') = false

/-- More text in front does not change how a text ends: `Closed` is kept. -/
theorem Closed.append {text : List Char} (closed : Closed text) (before : List Char) :
    Closed (before ++ text) := by
  obtain ⟨init, last, rfl, other⟩ := closed
  exact ⟨before ++ init, last, (List.append_assoc _ _ _).symm, other⟩

/-- An identifier is `Closed`: it does not end with an opening mark. -/
theorem closed_of_isIdentifier {name : String} (identifier : Name.isIdentifier name = true) :
    Closed name.toList := by
  have nonempty : name.toList ≠ [] := by
    intro empty
    rw [Name.isIdentifier, empty] at identifier
    cases identifier
  have split := List.dropLast_concat_getLast nonempty
  refine ⟨_, _, split.symm, not_opening_of_isPart ?_⟩
  -- The last character is a part of a name, as all of them are.
  have member := List.getLast_mem nonempty
  rw [Name.isIdentifier] at identifier
  split at identifier
  · cases identifier
  · next c rest same =>
      rw [Bool.and_eq_true, List.all_eq_true] at identifier
      have parts : ∀ d ∈ name.toList, Name.isPart d = true := by
        rw [same]
        exact List.forall_mem_cons.mpr ⟨Name.isPart_of_isStart identifier.1, identifier.2⟩
      exact parts _ member

/-- The `nameText` of a name does not end with an opening mark. -/
theorem closed_of_nameText {context : NameContext} {name : String} {text : List Char}
    (written : nameText config context name = .ok text) : Closed text := by
  unfold nameText at written
  split at written
  · cases written
  · split at written
    · next plain =>
        cases written
        rw [Bool.and_eq_true, Name.isPlain, Bool.and_eq_true] at plain
        exact closed_of_isIdentifier plain.2.1
    · cases written
      exact ⟨_, backQuote, rfl, by decide⟩

/-- The texts of names behind marks, `Print.marked`, are empty or do not end with an opening
mark. -/
theorem closed_of_marked {context : NameContext} {first next : Char} {names : List String}
    {text : List Char} (written : Print.marked config context first next names = .ok text) :
    names = [] ∧ text = [] ∨ names ≠ [] ∧ Closed text := by
  induction names generalizing first text with
  | nil => cases written; exact .inl ⟨rfl, rfl⟩
  | cons name rest ih =>
      refine .inr ⟨List.cons_ne_nil _ _, ?_⟩
      rw [Print.marked] at written
      cases one : nameText config context name with
      | error failure => rw [one] at written; cases written
      | ok this =>
          cases others : Print.marked config context next next rest with
          | error failure => rw [one, others] at written; cases written
          | ok more =>
              rw [one, others] at written
              cases written
              rcases ih others with ⟨-, rfl⟩ | ⟨-, closed⟩
              · rw [List.append_nil]
                exact (closed_of_nameText config one).append [first]
              · exact closed.append (first :: this)

/-- An entry prints its text, `Print.entry`. -/
theorem prints_entry (entry : PropertyEntry) :
    Prints (entry.walk (visit config)) (Print.entry config entry) := by
  apply prints_unchecked config rfl
  simp only [enter, leave, bind_assoc, bind_pure_unit]
  refine Writes.cast (.bind (writes_rendered _) (.bind (writes_write _)
    (prints_expression config entry.value).writes)) ?_
  simp only [Rendered.andThen, Print.entry, bind_assoc, pure_bind]

/-- A property map writes its text inside another part, given by `endsWithOpening` what stands
before it. -/
theorem run_properties (map : PropertyMap) {follows : Bool} {canvas : Canvas}
    (inside : canvas.Inside) (ends : canvas.endsWithOpening = follows) :
    (map.walk (visit config)).run canvas
      = (Print.properties config follows map).map fun more => ((), canvas.write more) := by
  have list := writes_list commaText
    (fun entry (_ : entry ∈ map.entries) => prints_entry config entry) (writes_write ['\x7d'])
  have body := (writes_write (if follows then [] else [' '])).bind
    ((writes_write ['\x7b']).bind list)
  -- The visitor looks at the canvas; where it is known how the text ends, the blank is too.
  have blank : (do
      enter config (.properties map)
      walkItems (PropertyEntry.walk (visit config)) map.entries
      leave config (.properties map) : Writer Unit).run canvas.begin
        = (do
      write (if follows then [] else [' '])
      write ['\x7b']
      modify (Canvas.openList commaText)
      walkItems (PropertyEntry.walk (visit config)) map.entries
      modify Canvas.closeList
      write ['\x7d'] : Writer Unit).run canvas.begin := by
    have deeper : canvas.begin.endsWithOpening = follows := by rw [inside.begin_eq]; exact ends
    cases follows with
    | true => simp [enter, leave, deeper, write]
    | false => simp [enter, leave, deeper]
  have written := run_part config (blank.trans (body canvas.begin inside.between.inside_begin))
  rw [PropertyMap.walk]
  apply written.trans
  simp only [precheck, Rendered.andThen, Print.properties, bind_assoc, pure_bind,
    List.singleton_append, inside.item_eq]
  rfl

/-! ## Nodes and relationships -/

/-- A name that may be missing is written if it is there: `writeOptionalName` writes
`Print.optional`. -/
theorem writes_optionalName (context : NameContext) (name : Option String) :
    Writes (writeOptionalName config context name)
      (Print.optional (nameText config context) name) := by
  cases name with
  | none => exact writes_nothing
  | some name => exact writes_rendered _

/-- Names behind marks are written one after the other: `writeNames` writes `Print.marked`. -/
theorem writes_names (context : NameContext) (first next : Char) (names : List String) :
    Writes (writeNames config context first next names)
      (Print.marked config context first next names) := by
  induction names generalizing first with
  | nil => exact writes_nothing
  | cons name rest ih =>
      rw [writeNames, Print.marked]
      refine Writes.cast (.bind (writes_write _) (.bind (writes_rendered _) (ih next))) ?_
      simp only [Rendered.andThen, bind_assoc, pure_bind, List.singleton_append]

/-- Behind an opening mark, an optional name and the names of `Print.marked`, the text ends with the
mark only if there are no names. -/
theorem endsWithOpening_names {context other : NameContext} {first next : Char}
    {name : Option String} {names : List String} {nameWritten namesWritten : List Char}
    (one : Print.optional (nameText config context) name = .ok nameWritten)
    (more : Print.marked config other first next names = .ok namesWritten)
    {mark : Char} (opening : (mark == '(' || mark == '[') = true) (canvas : Canvas) :
    (canvas.write (mark :: (nameWritten ++ namesWritten))).endsWithOpening
      = (name.isNone && names.isEmpty) := by
  have closed {text : List Char} (closed : Closed text) :
      (canvas.write (mark :: text)).endsWithOpening = false := by
    obtain ⟨init, last, same, notOpening⟩ := closed.append [mark]
    rw [← List.singleton_append, same, endsWithOpening_write]
    exact notOpening
  -- Only without labels or types does it matter whether there is a name.
  rcases closed_of_marked config more with ⟨rfl, rfl⟩ | ⟨nonempty, closedMore⟩
  · cases name with
    | none =>
        cases one
        exact (endsWithOpening_write [] mark canvas).trans opening
    | some name =>
        rw [List.append_nil]
        exact closed (closed_of_nameText config one)
  · rw [closed (closedMore.append nameWritten)]
    cases names with
    | nil => exact absurd rfl nonempty
    | cons => exact (Bool.and_false _).symm

/-- A property map that may be missing writes its text, given by `endsWithOpening` what stands
before it. -/
theorem run_optionalProperties (map : Option PropertyMap) {follows : Bool} {canvas : Canvas}
    (inside : canvas.Inside) (ends : canvas.endsWithOpening = follows) :
    (walkPart (PropertyMap.walk (visit config)) map).run canvas
      = (Print.optional (Print.properties config follows) map).map fun more =>
          ((), canvas.write more) := by
  cases map with
  | none => rfl
  | some map => exact run_properties config map inside ends

/-- An opening mark, a name, further names and a property map are written one after the other, as
they are for nodes and for the details of relationships. Whether a space stands in front of the map
is told by the text before it in the one, by `name.isNone && names.isEmpty` in the other. -/
theorem writes_inside (context other : NameContext) (mark first next : Char)
    (opening : (mark == '(' || mark == '[') = true) (name : Option String) (names : List String)
    (map : Option PropertyMap) :
    Writes
      (do
        write [mark]
        writeOptionalName config context name
        writeNames config other first next names
        walkPart (PropertyMap.walk (visit config)) map)
      (do
        let nameWritten ← Print.optional (nameText config context) name
        let namesWritten ← Print.marked config other first next names
        let mapWritten ←
          Print.optional (Print.properties config (name.isNone && names.isEmpty)) map
        return mark :: (nameWritten ++ (namesWritten ++ mapWritten))) := by
  have head := (writes_write [mark]).bind
    ((writes_optionalName config context name).bind (writes_names config other first next names))
  -- What the visitor sees before the property map is how the text of the head ends.
  have rest (before : List Char)
      (written : (do
        let text ← Print.optional (nameText config context) name
        let more ← Print.marked config other first next names
        return mark :: (text ++ more) : Rendered) = .ok before)
      (canvas : Canvas) (inside : canvas.Inside) :
      (walkPart (PropertyMap.walk (visit config)) map).run (canvas.write before)
        = (Print.optional (Print.properties config (name.isNone && names.isEmpty)) map).map
            fun more => ((), (canvas.write before).write more) := by
    refine run_optionalProperties config map (inside.write before) ?_
    cases one : Print.optional (nameText config context) name with
    | error failure => rw [one] at written; cases written
    | ok nameWritten =>
        cases more : Print.marked config other first next names with
        | error failure => rw [one, more] at written; cases written
        | ok namesWritten =>
            rw [one, more] at written
            cases written
            exact endsWithOpening_names config one more opening canvas
  have whole := (head.cast (by
    simp only [Rendered.andThen, bind_assoc, pure_bind,
      List.singleton_append])).bind_of_text rest
  simp only [bind_assoc] at whole
  apply whole.cast
  simp only [Rendered.andThen, bind_assoc, pure_bind, List.append_assoc, List.cons_append]

/-- A node prints its text, `Print.node`. -/
theorem prints_node (n : Node) : Prints (n.walk (visit config)) (Print.node config n) := by
  have inside := writes_inside config .node .label '(' ':' ':' rfl n.name n.labels n.properties
  apply prints_unchecked config rfl
  have whole := inside.bind (writes_write [')'])
  simp only [enter, leave, bind_assoc] at whole ⊢
  apply whole.cast
  simp only [Rendered.andThen, Print.node, bind_assoc, pure_bind, List.append_assoc,
    List.cons_append]

/-- A relationship prints its text, `Print.relationship`. -/
theorem prints_relationship (r : Relationship) :
    Prints (r.walk (visit config)) (Print.relationship config r) := by
  apply prints_unchecked config rfl
  cases bare : r.isBare with
  | true =>
      -- The visitor walks the property map in either case, but a bare relationship has none.
      obtain ⟨-, -, missing⟩ := Relationship.isBare_iff.mp bare
      have whole := (writes_write (openingMark r.direction)).bind
        (writes_write (closingMark r.direction))
      simp only [enter, leave, bare, missing, walkPart, Bool.not_true, Bool.false_eq_true, if_false,
        pure_bind]
      apply whole.cast
      simp [Rendered.andThen, Print.relationship, bare]
      rfl
  | false =>
      have inside := writes_inside config .relationship .relationshipType '[' ':' '|' rfl r.name
        r.types r.properties
      have whole := (writes_write (openingMark r.direction)).bind
        (inside.bind ((writes_write [']']).bind (writes_write (closingMark r.direction))))
      simp only [enter, leave, bare, Bool.not_false, if_true, bind_assoc] at whole ⊢
      apply whole.cast
      simp only [Rendered.andThen, Print.relationship, Print.details, bare, Bool.false_eq_true,
        if_false, bind_assoc, pure_bind, List.append_assoc, List.cons_append, List.nil_append]

/-! ## Paths, patterns and clauses -/

/-- A step of a path writes its text: it is no part of its own, so `Writes` and not `Prints`. -/
theorem writes_hop (hop : Hop) :
    Writes (hop.walk (visit config)) (do
      let relation ← Print.relationship config hop.relationship
      let target ← Print.node config hop.node
      return relation ++ target) :=
  (prints_relationship config hop.relationship).writes.bind (prints_node config hop.node).writes

/-- The steps of a path write their texts one after the other, `Print.hops`. -/
theorem writes_hops (hops : List Hop) :
    Writes (walkItems (Hop.walk (visit config)) hops) (Print.hops config hops) := by
  induction hops with
  | nil => exact writes_nothing
  | cons hop rest ih =>
      rw [walkItems, Print.hops]
      refine ((writes_hop config hop).bind ih).cast ?_
      simp only [Rendered.andThen, bind_assoc, pure_bind, List.append_assoc]

/-- An element prints its text, `Print.element`. -/
theorem prints_element (e : PatternElement) :
    Prints (e.walk (visit config)) (Print.element config e) := by
  cases e with
  | node single =>
      apply prints_unchecked config rfl
      simp only [enter, leave, pure_bind, bind_pure_unit]
      exact (prints_node config single).writes
  -- A path is a part of the element, and its steps are no parts but lists of parts.
  | chain path =>
      have steps := (prints_node config path.start).writes.bind (writes_hops config path.hops)
      have inside : Prints (path.walk (visit config)) (Print.element config (.chain path)) := by
        apply prints_unchecked config rfl
        simp only [enter, leave, pure_bind, bind_pure_unit]
        exact steps
      apply prints_unchecked config rfl
      simp only [enter, leave, pure_bind, bind_pure_unit]
      exact inside.writes

/-- A check that fails on an empty list, before a text that may depend on the list. -/
theorem check_bind {α : Type} (items : List α) (failure : RenderError) (text : Rendered) :
    (do
      let more ← (do
        (if items.isEmpty then .error failure else .ok () : Except RenderError Unit)
        return ([] : List Char))
      let others ← text
      return more ++ others : Rendered)
      = if items.isEmpty then .error failure else text := by
  cases items with
  | nil => rfl
  | cons item rest =>
      cases text <;> rfl

/-- A pattern prints its text, `Print.pattern`. -/
theorem prints_pattern (p : Pattern) :
    Prints (p.walk (visit config)) (Print.pattern config p) := by
  have list := writes_list commaText
    (fun element (_ : element ∈ p.elements) => prints_element config element) writes_nothing
  apply prints_unchecked config rfl
  simp only [enter, leave, bind_assoc, bind_pure_unit] at list ⊢
  refine ((writes_check _).bind list).cast ?_
  rw [Rendered.andThen, check_bind, Print.pattern]
  simp only [Rendered.andThen, pure_bind, List.append_nil, bind_pure]

/-- A condition prints its text, `Print.condition`. -/
theorem prints_condition (condition : Expression) :
    Prints (walkCondition (visit config) condition) (Print.condition config condition) := by
  apply prints_unchecked config rfl
  simp only [enter, leave, bind_pure_unit]
  refine ((writes_write _).bind (prints_expression config condition).writes).cast ?_
  simp only [Rendered.andThen, Print.condition, pure_bind]

/-- A part that may be missing writes its text if it is there: `walkPart` writes
`Print.optional`. -/
theorem writes_part {α : Type} {walk : α → Writer Unit} {print : α → Rendered}
    (each : ∀ part, Prints (walk part) (print part)) (part : Option α) :
    Writes (walkPart walk part) (Print.optional print part) := by
  cases part with
  | none => exact writes_nothing
  | some part => exact (each part).writes

/-- A reading clause prints its text, `Print.reading`. -/
theorem prints_reading (clause : Match) :
    Prints (clause.walk (visit config)) (Print.reading config clause) := by
  apply prints_unchecked config rfl
  simp only [enter, leave, bind_pure_unit]
  refine ((writes_write _).bind ((prints_pattern config clause.pattern).writes.bind
    (writes_part (prints_condition config) clause.condition))).cast ?_
  simp only [Rendered.andThen, Print.reading, bind_assoc, pure_bind]

/-! ## Projections and statements -/

/-- A projection prints its text, `Print.projection`. -/
theorem prints_projection (p : Projection) :
    Prints (p.walk (visit config)) (Print.projection config p) := by
  have list := writes_list commaText
    (fun item (_ : item ∈ p.items) => prints_expression config item) writes_nothing
  -- The word is written before the list opens, so it is no item of the list.
  have marked : Writes
      (do
        (if p.distinct then write "DISTINCT ".toList else pure ())
        modify (Canvas.openList commaText)
        walkItems (Expression.walk (visit config)) p.items
        modify Canvas.closeList
        pure ())
      (do
        let items ← Print.separated commaText (Print.expression config) p.items
        return (if p.distinct then "DISTINCT ".toList else []) ++ items) := by
    cases p.distinct with
    | true =>
        refine ((writes_write "DISTINCT ".toList).bind list).cast ?_
        simp [Rendered.andThen]
    | false =>
        apply list.cast
        simp [Rendered.andThen]
  apply prints_unchecked config rfl
  have whole := (writes_check (if p.items.isEmpty then .error .emptyProjection else .ok ())).bind
    marked
  simp only [enter, leave, bind_assoc, bind_pure_unit] at whole ⊢
  cases distinct : p.distinct with
  | true =>
      simp only [distinct, if_true, bind_assoc] at whole ⊢
      exact whole.cast (by rw [Rendered.andThen, check_bind, Print.projection, distinct]; rfl)
  | false =>
      simp only [distinct, Bool.false_eq_true, if_false, pure_bind] at whole ⊢
      exact whole.cast (by rw [Rendered.andThen, check_bind, Print.projection, distinct]; rfl)

/-- A sort criterion prints its text, `Print.sortItem`. -/
theorem prints_sortItem (item : SortItem) :
    Prints (item.walk (visit config)) (Print.sortItem config item) := by
  apply prints_unchecked config rfl
  simp only [enter, leave, pure_bind]
  refine ((prints_expression config item.expression).writes.bind (writes_write _)).cast ?_
  simp only [Rendered.andThen, Print.sortItem, pure_bind]

/-- An order prints its text, `Print.order`. -/
theorem prints_order (items : List SortItem) :
    Prints (walkOrder (visit config) items) (Print.order config items) := by
  have list := writes_list commaText
    (fun item (_ : item ∈ items) => prints_sortItem config item) writes_nothing
  apply prints_unchecked config rfl
  have whole := (writes_check (if items.isEmpty then .error .emptyOrder else .ok ())).bind
    ((writes_write " ORDER BY ".toList).bind list)
  simp only [enter, leave, bind_assoc, bind_pure_unit] at whole ⊢
  apply whole.cast
  rw [Rendered.andThen, check_bind, Print.order]
  simp only [Rendered.andThen, pure_bind, bind_assoc, List.append_nil]

/-- A part that checks a number of rows and writes the word of a clause in front of it prints
`Print.count` of that clause. -/
theorem prints_count {part : Part} {clause : CountClause} (e : Expression)
    (checked : precheck part = checkCount clause e)
    (entered : enter config part = write (' ' :: (clause.word.toList ++ [' '])))
    (left : leave config part = pure ()) :
    Prints (Part.walk (visit config) part (e.walk (visit config)))
      (Print.count config clause e) := by
  rw [Print.count, ← checked]
  apply prints_part config
  rw [entered, left]
  simp only [bind_pure_unit]
  refine ((writes_write _).bind (prints_expression config e).writes).cast ?_
  simp [Rendered.andThen]

/-- The part `Part.skip` prints the number of rows that is left out. -/
theorem prints_skip (e : Expression) :
    Prints (walkSkip (visit config) e) (Print.count config .skip e) :=
  prints_count config e rfl rfl rfl

/-- The part `Part.limit` prints the greatest number of rows. -/
theorem prints_limit (e : Expression) :
    Prints (walkLimit (visit config) e) (Print.count config .limit e) :=
  prints_count config e rfl rfl rfl

/-- A projecting clause prints its text, `Print.returning`. -/
theorem prints_returning (clause : Return) :
    Prints (clause.walk (visit config)) (Print.returning config clause) := by
  apply prints_unchecked config rfl
  simp only [enter, leave, bind_assoc, bind_pure_unit]
  refine ((writes_write _).bind ((prints_projection config clause.projection).writes.bind
    ((writes_part (prints_order config) clause.order).bind
      ((writes_part (prints_skip config) clause.skip).bind
        (writes_part (prints_limit config) clause.limit))))).cast ?_
  simp only [Rendered.andThen, Print.returning, bind_assoc, pure_bind]

/-- A clause prints its text, `Print.clause`. -/
theorem prints_clause (clause : Clause) :
    Prints (clause.walk (visit config)) (Print.clause config clause) := by
  cases clause with
  | reading clause => exact prints_reading config clause
  | returning clause => exact prints_returning config clause

/-- A statement prints its text, `Print.statement`. -/
theorem prints_statement (s : Statement) :
    Prints (s.walk (visit config)) (Print.statement config s) := by
  have list := writes_list config.clauseSeparator
    (fun clause (_ : clause ∈ s.clauses) => prints_clause config clause) writes_nothing
  apply prints_unchecked config rfl
  simp only [enter, leave, bind_assoc, bind_pure_unit] at list ⊢
  refine ((writes_check _).bind list).cast ?_
  simp only [Rendered.andThen, Print.statement, bind_assoc, pure_bind, List.nil_append,
    List.append_nil, bind_pure]

/-! ## Renderers -/

/-- On a blank canvas, a part leaves its text: `run` of what `Prints` a text is that text. -/
theorem run_eq_of_prints {writer : Writer Unit} {text : Rendered} (prints : Prints writer text) :
    run writer = text := by
  -- A blank canvas has no lists, and so it is inside of any part.
  have blank : Canvas.blank.Inside := by intro frame top; cases top
  rw [run, prints.writes Canvas.blank blank]
  cases text with
  | error failure => rfl
  | ok text => exact congrArg Except.ok (Canvas.text_write text Canvas.blank)

end Render

namespace Renderer

/-- The text of a pattern, by `renderPattern`, is the printed one. -/
theorem renderPattern_eq_print (config : RenderConfig) (p : Pattern) :
    renderPattern ⟨config⟩ p = (Print.pattern config p).map String.ofList :=
  congrArg (Except.map String.ofList) (Render.run_eq_of_prints (Render.prints_pattern config p))

/-- The text of an expression, by `renderExpression`, is the printed one. -/
theorem renderExpression_eq_print (config : RenderConfig) (e : Expression) :
    renderExpression ⟨config⟩ e = (Print.expression config e).map String.ofList :=
  congrArg (Except.map String.ofList) (Render.run_eq_of_prints (Render.prints_expression config e))

/-- The text of a statement, by `render`, is the printed one. -/
theorem render_eq_print (config : RenderConfig) (s : Statement) :
    render ⟨config⟩ s = (Print.statement config s).map String.ofList :=
  congrArg (Except.map String.ofList) (Render.run_eq_of_prints (Render.prints_statement config s))

/-- A text that may not exist is a string if its characters are: `map String.ofList` succeeds only
on a success. -/
theorem map_ofList_eq_ok {printed : Rendered} {text : String} :
    printed.map String.ofList = .ok text ↔
      ∃ chars, printed = .ok chars ∧ String.ofList chars = text := by
  cases printed with
  | error failure =>
      constructor
      · intro same; cases same
      · rintro ⟨chars, same, -⟩; cases same
  | ok chars =>
      constructor
      · intro same; cases same; exact ⟨chars, rfl, rfl⟩
      · rintro ⟨other, same, rfl⟩; cases same; rfl

/-- A pattern is rendered exactly if its characters are printed by `Print.pattern`. -/
theorem renderPattern_eq_ok {config : RenderConfig} {p : Pattern} {text : String} :
    renderPattern ⟨config⟩ p = .ok text ↔
      ∃ chars, Print.pattern config p = .ok chars ∧ String.ofList chars = text := by
  rw [renderPattern_eq_print, map_ofList_eq_ok]

/-- A statement is rendered exactly if its characters are printed by `Print.statement`. -/
theorem render_eq_ok {config : RenderConfig} {s : Statement} {text : String} :
    render ⟨config⟩ s = .ok text ↔
      ∃ chars, Print.statement config s = .ok chars ∧ String.ofList chars = text := by
  rw [render_eq_print, map_ofList_eq_ok]

end Renderer

end CypherQuery
