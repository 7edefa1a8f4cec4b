import CypherQuery.Render.Word

/-! # Printing by structure

The text of a tree as the texts of its parts one after the other, with separators between the items
of lists: one function for each kind of tree, from `expression` to `statement`. A part without a
text leaves the whole without one, and the first such part in the order of writing says why. -/

namespace CypherQuery.Print

/-- The texts of the items of a list, each by `print`, with a separator between two of them. -/
def separated {α : Type} (separator : List Char) (print : α → Rendered) : List α → Rendered
  | [] => .ok []
  | [item] => print item
  | item :: next :: rest => do
      let first ← print item
      let others ← separated separator print (next :: rest)
      return first ++ (separator ++ others)

/-- The text of a part that may be missing; nothing is written for `none`. -/
def optional {α : Type} (print : α → Rendered) : Option α → Rendered
  | none => .ok []
  | some part => print part

/-- The texts of names, each behind a mark: the first one behind `first`, the others behind
`next`. -/
def marked (config : RenderConfig) (context : NameContext) (first next : Char) :
    List String → Rendered
  | [] => .ok []
  | name :: rest => do
      let text ← nameText config context name
      let others ← marked config context next next rest
      return first :: (text ++ others)

mutual

/-- The text of an expression: operands one beside the other, with `operatorText` between or beside
them. Parentheses are written for `nested` only. -/
def expression (config : RenderConfig) : Expression → Rendered
  | .literal value => literalText value
  | .parameter name => parameterText name
  | .variable name => nameText config .variable name
  | .asterisk => .ok ['*']
  | .property subject key => do
      let subject ← expression config subject
      let key ← nameText config .property key
      return subject ++ '.' :: key
  | .call function distinct arguments => do
      let arguments ← expressions config arguments
      let mark := if distinct then "DISTINCT ".toList else []
      return function.toList ++ '(' :: (mark ++ (arguments ++ [')']))
  | .comparison op left right => do
      let left ← expression config left
      let right ← expression config right
      return left ++ (operatorText (.comparison op) ++ right)
  | .logical op left right => do
      let left ← expression config left
      let right ← expression config right
      return left ++ (operatorText (.logical op) ++ right)
  | .unary op operand => do
      let operand ← expression config operand
      return if op.precedesOperand then operatorText (.unary op) ++ operand
        else operand ++ operatorText (.unary op)
  | .nested inner => do
      let inner ← expression config inner
      return '(' :: (inner ++ [')'])
  | .aliased inner name => do
      let inner ← expression config inner
      let name ← nameText config .newName name
      return inner ++ (" AS ".toList ++ name)

/-- The texts of expressions with `commaText` between them. -/
def expressions (config : RenderConfig) : List Expression → Rendered
  | [] => .ok []
  | [e] => expression config e
  | e :: next :: rest => do
      let first ← expression config e
      let others ← expressions config (next :: rest)
      return first ++ (commaText ++ others)

end

/-- The text of an entry: the key by `nameText`, a colon and the value. -/
def entry (config : RenderConfig) (entry : PropertyEntry) : Rendered := do
  let key ← nameText config .property entry.key
  let value ← expression config entry.value
  return key ++ ([':', ' '] ++ value)

/-- The text of a property map, behind a blank unless it directly follows an opening mark. -/
def properties (config : RenderConfig) (follows : Bool) (map : PropertyMap) : Rendered := do
  let entries ← separated commaText (entry config) map.entries
  let blank := if follows then [] else [' ']
  return blank ++ '\x7b' :: (entries ++ ['\x7d'])

/-- The text of a node between parentheses: its name, its labels behind colons and its
`properties`. -/
def node (config : RenderConfig) (n : Node) : Rendered := do
  let name ← optional (nameText config .node) n.name
  let labels ← marked config .label ':' ':' n.labels
  let map ← optional (properties config (n.name.isNone && n.labels.isEmpty)) n.properties
  return '(' :: (name ++ (labels ++ (map ++ [')'])))

/-- The text of what is asked of a relationship, between brackets: its name, its types behind a
colon and bars, and its `properties`. -/
def details (config : RenderConfig) (r : Relationship) : Rendered := do
  let name ← optional (nameText config .relationship) r.name
  let types ← marked config .relationshipType ':' '|' r.types
  let map ← optional (properties config (r.name.isNone && r.types.isEmpty)) r.properties
  return '[' :: (name ++ (types ++ (map ++ [']'])))

/-- The text of a relationship: its `details`, unless it `isBare`, between `openingMark` and
`closingMark`. -/
def relationship (config : RenderConfig) (r : Relationship) : Rendered := do
  let inside ← if r.isBare then .ok [] else details config r
  return openingMark r.direction ++ (inside ++ closingMark r.direction)

/-- The texts of the steps of a path: `relationship` and `node` of each. -/
def hops (config : RenderConfig) : List Hop → Rendered
  | [] => .ok []
  | hop :: rest => do
      let relation ← relationship config hop.relationship
      let target ← node config hop.node
      let others ← hops config rest
      return relation ++ (target ++ others)

/-- The text of an element, for a path the start and its `hops`. -/
def element (config : RenderConfig) : PatternElement → Rendered
  | .node single => node config single
  | .chain path => do
      let start ← node config path.start
      let steps ← hops config path.hops
      return start ++ steps

/-- The text of a pattern: elements with `commaText` between them, of which there must be some. -/
def pattern (config : RenderConfig) (p : Pattern) : Rendered :=
  if p.elements.isEmpty then .error .emptyPattern
  else separated commaText (element config) p.elements

/-- The text of a condition, behind ` WHERE `. -/
def condition (config : RenderConfig) (e : Expression) : Rendered := do
  let text ← expression config e
  return " WHERE ".toList ++ text

/-- The text of a reading clause: its `matchText`, its `pattern` and its `condition`. -/
def reading (config : RenderConfig) (clause : Match) : Rendered := do
  let what ← pattern config clause.pattern
  let filter ← optional (condition config) clause.condition
  return matchText clause ++ (what ++ filter)

/-- The text of a projection: items with `commaText` between them, of which there must be some. -/
def projection (config : RenderConfig) (p : Projection) : Rendered :=
  if p.items.isEmpty then .error .emptyProjection
  else do
    let items ← separated commaText (expression config) p.items
    let mark := if p.distinct then "DISTINCT ".toList else []
    return mark ++ items

/-- The text of a sort criterion: the expression and its `directionText`. -/
def sortItem (config : RenderConfig) (item : SortItem) : Rendered := do
  let text ← expression config item.expression
  return text ++ directionText item.direction

/-- The text of an order: criteria with `commaText` between them, of which there must be some. -/
def order (config : RenderConfig) (items : List SortItem) : Rendered :=
  if items.isEmpty then .error .emptyOrder
  else do
    let text ← separated commaText (sortItem config) items
    return " ORDER BY ".toList ++ text

/-- The text of a number of rows, behind its word, if `checkCount` lets it pass. -/
def count (config : RenderConfig) (clause : CountClause) (e : Expression) : Rendered := do
  checkCount clause e
  let text ← expression config e
  return ' ' :: (clause.word.toList ++ ' ' :: text)

/-- The text of a projecting clause: `projection`, `order`, and `count` for both numbers of rows. -/
def returning (config : RenderConfig) (clause : Return) : Rendered := do
  let items ← projection config clause.projection
  let sorted ← optional (order config) clause.order
  let skipped ← optional (count config .skip) clause.skip
  let limited ← optional (count config .limit) clause.limit
  return "RETURN ".toList ++ (items ++ (sorted ++ (skipped ++ limited)))

/-- The text of a clause, by `reading` or `returning`. -/
def clause (config : RenderConfig) : Clause → Rendered
  | .reading c => reading config c
  | .returning c => returning config c

/-- The text of a statement that passes `Statement.validate`: its clauses with `clauseSeparator`
between them. -/
def statement (config : RenderConfig) (s : Statement) : Rendered := do
  s.validate
  separated config.clauseSeparator (clause config) s.clauses

end CypherQuery.Print
