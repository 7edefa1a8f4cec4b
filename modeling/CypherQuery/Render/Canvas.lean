import CypherQuery.Render.Word
import CypherQuery.Traversal.Walk

/-! # Rendering by a visitor

A `Renderer` is a visitor, `visit`, that writes on a `Canvas`. The canvas knows how deep the walk is
inside the tree, and for each list that is being written (`ListFrame`) at which depth its items are
and whether one of them has been written, so that a separator comes before every item but the
first. -/

namespace CypherQuery

/-- A list that is being written. -/
structure ListFrame where
  /-- The depth of its items. -/
  level : Nat
  /-- How many items have begun. -/
  count : Nat
  /-- What comes before every item but the first. -/
  separator : List Char
  deriving DecidableEq, Repr

/-- The state of a renderer: the text so far, and what decides where separators go. -/
structure Canvas where
  /-- The text so far, the last character first. -/
  reversed : List Char
  /-- How many parts have begun and not ended. -/
  depth : Nat
  /-- The lists that are being written, the innermost first. -/
  frames : List ListFrame
  deriving DecidableEq, Repr

namespace Canvas

/-- The canvas before anything is written. -/
def blank : Canvas :=
  ⟨[], 0, []⟩

/-- The text on the canvas, which `reversed` holds backwards. -/
def text (canvas : Canvas) : List Char :=
  canvas.reversed.reverse

/-- More text at the end. -/
def write (more : List Char) (canvas : Canvas) : Canvas :=
  { canvas with reversed := more.reverse ++ canvas.reversed }

/-- A part begins. If it is an item of the innermost list, of its `level`, it is counted, and the
separator is written unless it is the first one. -/
def begin (canvas : Canvas) : Canvas :=
  let deeper := { canvas with depth := canvas.depth + 1 }
  match deeper.frames with
  | [] => deeper
  | frame :: outer =>
      -- A part at any other depth belongs to an item and is none itself.
      if frame.level = deeper.depth then
        let counted := { deeper with frames := { frame with count := frame.count + 1 } :: outer }
        if frame.count = 0 then counted else counted.write frame.separator
      else deeper

/-- A part ends, which makes the `depth` one less. -/
def finish (canvas : Canvas) : Canvas :=
  { canvas with depth := canvas.depth - 1 }

/-- The parts inside the current one are the items of a list: a frame for the next `depth`. -/
def openList (separator : List Char) (canvas : Canvas) : Canvas :=
  { canvas with frames := ⟨canvas.depth + 1, 0, separator⟩ :: canvas.frames }

/-- The innermost list is complete. -/
def closeList (canvas : Canvas) : Canvas :=
  { canvas with frames := canvas.frames.tail }

/-- Whether the text ends with an opening parenthesis or bracket. -/
def endsWithOpening (canvas : Canvas) : Bool :=
  match canvas.reversed with
  | c :: _ => c == '(' || c == '['
  | [] => false

/-- There is no text on a `blank` canvas. -/
@[simp] theorem text_blank : blank.text = [] := rfl

/-- Writing appends to the `text`. -/
@[simp] theorem text_write (more : List Char) (canvas : Canvas) :
    (canvas.write more).text = canvas.text ++ more := by
  simp [text, write]

/-- The end of a part, `finish`, writes nothing. -/
@[simp] theorem text_finish (canvas : Canvas) : canvas.finish.text = canvas.text := rfl

/-- Opening a list by `openList` writes nothing. -/
@[simp] theorem text_openList (separator : List Char) (canvas : Canvas) :
    (canvas.openList separator).text = canvas.text := rfl

/-- Closing a list by `closeList` writes nothing. -/
@[simp] theorem text_closeList (canvas : Canvas) : canvas.closeList.text = canvas.text := rfl

end Canvas

/-! ## The renderer's visitor -/

namespace Render

/-- A step of a renderer: it changes the canvas or fails with a `RenderError`. -/
abbrev Writer :=
  StateT Canvas (Except RenderError)

/-- Writes a text, by `Canvas.write`. -/
def write (text : List Char) : Writer Unit :=
  modify (Canvas.write text)

/-- Writes a text if there is one, and fails with the same error if there is none. -/
def writeRendered (text : Rendered) : Writer Unit := do
  write (← text)

/-- Fails if a check does. -/
def check (result : Except RenderError Unit) : Writer Unit :=
  result

/-- Writes names, each behind a mark: the first one behind `first`, the others behind `next`. -/
def writeNames (config : RenderConfig) (context : NameContext) (first next : Char) :
    List String → Writer Unit
  | [] => pure ()
  | name :: rest => do
      write [first]
      writeRendered (nameText config context name)
      writeNames config context next next rest

/-- Writes a name if there is one, by `nameText`. -/
def writeOptionalName (config : RenderConfig) (context : NameContext) :
    Option String → Writer Unit
  | none => pure ()
  | some name => writeRendered (nameText config context name)

/-- What is written before the inside of an expression, that of `Part.expression`. -/
def writeHead (config : RenderConfig) : Expression → Writer Unit
  | .literal value => writeRendered (literalText value)
  | .parameter name => writeRendered (parameterText name)
  | .variable name => writeRendered (nameText config .variable name)
  | .asterisk => write ['*']
  | .call function distinct _ => do
      write (function.toList ++ ['('])
      if distinct then write "DISTINCT ".toList
      modify (Canvas.openList commaText)
  | .nested _ => write ['(']
  | .property _ _ | .comparison _ _ _ | .logical _ _ _ | .unary _ _ | .aliased _ _ => pure ()

/-- What is written behind the inside of an expression, such as the key of a property or the new
name; a name without `nameText` fails here. -/
def writeTail (config : RenderConfig) : Expression → Writer Unit
  | .property _ key => do
      write ['.']
      writeRendered (nameText config .property key)
  | .call _ _ _ => do
      modify Canvas.closeList
      write [')']
  | .nested _ => write [')']
  | .aliased _ name => do
      write " AS ".toList
      writeRendered (nameText config .newName name)
  | .literal _ | .parameter _ | .variable _ | .asterisk | .comparison _ _ _ | .logical _ _ _
  | .unary _ _ => pure ()

/-- What is written when a part begins, and which list opens then, by `openList`. -/
def enter (config : RenderConfig) : Part → Writer Unit
  | .statement s => do
      check s.validate
      modify (Canvas.openList config.clauseSeparator)
  | .reading clause => write (matchText clause)
  | .pattern p => do
      check (if p.elements.isEmpty then .error .emptyPattern else .ok ())
      modify (Canvas.openList commaText)
  | .element _ | .chain _ | .sortItem _ => pure ()
  | .node n => do
      write ['(']
      writeOptionalName config .node n.name
      writeNames config .label ':' ':' n.labels
  | .relationship r => do
      write (openingMark r.direction)
      if !r.isBare then
        write ['[']
        writeOptionalName config .relationship r.name
        writeNames config .relationshipType ':' '|' r.types
  | .properties _ => do
      if !(← get).endsWithOpening then write [' ']
      write ['\x7b']
      modify (Canvas.openList commaText)
  | .entry e => do
      writeRendered (nameText config .property e.key)
      write [':', ' ']
  | .condition _ => write " WHERE ".toList
  | .expression e => writeHead config e
  | .operator op => write (operatorText op)
  | .returning _ => write "RETURN ".toList
  | .projection p => do
      check (if p.items.isEmpty then .error .emptyProjection else .ok ())
      if p.distinct then write "DISTINCT ".toList
      modify (Canvas.openList commaText)
  | .order items => do
      check (if items.isEmpty then .error .emptyOrder else .ok ())
      write " ORDER BY ".toList
      modify (Canvas.openList commaText)
  | .skip _ => write " SKIP ".toList
  | .limit _ => write " LIMIT ".toList

/-- What is written when a part ends, and which list is complete then, by `closeList`. -/
def leave (config : RenderConfig) : Part → Writer Unit
  | .statement _ | .pattern _ | .projection _ | .order _ => modify Canvas.closeList
  | .node _ => write [')']
  | .relationship r => do
      if !r.isBare then write [']']
      write (closingMark r.direction)
  | .properties _ => do
      modify Canvas.closeList
      write ['\x7d']
  | .expression e => writeTail config e
  | .sortItem item => write (directionText item.direction)
  | .reading _ | .element _ | .chain _ | .entry _ | .condition _ | .operator _ | .returning _
  | .skip _ | .limit _ => pure ()

/-- The check before a part begins: `checkCount` for the numbers of rows; most parts have none. -/
def precheck : Part → Except RenderError Unit
  | .skip count => checkCount .skip count
  | .limit count => checkCount .limit count
  | _ => .ok ()

/-- The renderer as a visitor: `precheck`, `begin` and `enter` for a part that is entered, `leave`
and `finish` for one that is left. -/
def visit (config : RenderConfig) : Event → Writer Unit
  | .enter part => do
      check (precheck part)
      modify Canvas.begin
      enter config part
  | .leave part => do
      leave config part
      modify Canvas.finish

/-- The text that a walk leaves on a `blank` canvas. -/
def run (walk : Writer Unit) : Rendered :=
  (walk.run Canvas.blank).map fun (_, canvas) => canvas.text

end Render

/-! ## Renderers -/

/-- A renderer with its options. -/
structure Renderer where
  /-- The options. -/
  config : RenderConfig
  deriving DecidableEq, Repr

namespace Renderer

/-- The renderer with the plain options. -/
instance : Inhabited Renderer := ⟨⟨.plain⟩⟩

/-- The text of a statement: `visit` walked along it. -/
def render (renderer : Renderer) (statement : Statement) : Except RenderError String :=
  (Render.run (statement.walk (Render.visit renderer.config))).map String.ofList

/-- The text of a pattern: `visit` walked along it. -/
def renderPattern (renderer : Renderer) (pattern : Pattern) : Except RenderError String :=
  (Render.run (pattern.walk (Render.visit renderer.config))).map String.ofList

/-- The text of an expression: `visit` walked along it. -/
def renderExpression (renderer : Renderer) (e : Expression) : Except RenderError String :=
  (Render.run (e.walk (Render.visit renderer.config))).map String.ofList

end Renderer

end CypherQuery
