import CypherQuery.Proofs.Number.Spelling
import CypherQuery.Render.Print
import CypherQuery.Traversal.Preorder

/-! # Trees as pieces of text

The pieces that the text of a tree is made of, by the structure of the tree: one function for each
function of `Print`, from `expression` to `statement`. That the scanner cuts the printed text of
every tree into exactly these pieces, since wherever two of them meet none goes on into the other,
is proved for each of them in turn. -/

namespace CypherQuery

/-! ## The pieces of a tree -/

namespace Spelling

open Scan

/-- A blank. -/
def space : Piece :=
  .blank [' ']

/-- The token of one character `c`, and that character. -/
def mark (token : Token) (c : Char) : Piece :=
  .token token [c]

/-- Words with a `space` between two of them. -/
def phrase : List String → List Piece
  | [] => []
  | [word] => [bareName word]
  | word :: next :: rest => bareName word :: space :: phrase (next :: rest)

/-- The piece of a name: a `bareName` where `nameText` writes it as it is, and otherwise a
`quotedPiece`. -/
def name (config : RenderConfig) (name : String) : Piece :=
  if !config.alwaysEscapeNames && Name.isPlain name then bareName name else quotedPiece name

/-- The pieces of a reference to a parameter: a `parameterPiece` if its name is an identifier. A
quoted name makes a fault of the `$` before it. -/
def parameter (name : String) : List Piece :=
  if Name.isIdentifier name then [parameterPiece name] else [.fault ['$'], quotedPiece name]

/-- The pieces of a literal: words, or a number (`signedPieces`, `textPieces`) or string as the
scanner cuts it. -/
def literal : Literal → List Piece
  | .null => [bareName "NULL"]
  | .boolean true => [bareName "true"]
  | .boolean false => [bareName "false"]
  | .integer value => signedPieces value.toInt
  | .float value => value.textPieces
  | .string text => [stringPiece text]

/-- The pieces of a comparison; the scanner knows no marks for comparing, so these are faults. -/
def comparison : Comparison → List Piece
  | .equal => [.fault ['=']]
  | .notEqual => [.fault ['<'], .fault ['>']]
  | .less => [.fault ['<']]
  | .lessOrEqual => [.fault ['<'], .fault ['=']]
  | .greater => [.fault ['>']]
  | .greaterOrEqual => [.fault ['>'], .fault ['=']]
  | .startsWith => phrase ["STARTS", "WITH"]
  | .endsWith => phrase ["ENDS", "WITH"]
  | .contains => phrase ["CONTAINS"]
  | .matchesRegex => [.fault ['='], .fault ['~']]

/-- The pieces of an operator with the blanks around it, as `operatorText` writes them. -/
def operator : Operator → List Piece
  | .comparison op => space :: (comparison op ++ [space])
  | .logical op => space :: (phrase [op.word] ++ [space])
  | .unary .not => phrase ["NOT"] ++ [space]
  | .unary .isNull => space :: phrase ["IS", "NULL"]
  | .unary .isNotNull => space :: phrase ["IS", "NOT", "NULL"]

/-- A comma and a blank: the pieces of `commaText`. -/
def comma : List Piece :=
  [mark .comma ',', space]

/-- The pieces of items, by `spell`, with a `separator` between two of them. -/
def separated {α : Type} (separator : List Piece) (spell : α → List Piece) : List α → List Piece
  | [] => []
  | [item] => spell item
  | item :: next :: rest =>
      spell item ++ (separator ++ separated separator spell (next :: rest))

/-- The pieces of a part that may be missing, by `spell`. -/
def optional {α : Type} (spell : α → List Piece) : Option α → List Piece
  | none => []
  | some part => spell part

/-- The pieces of names behind marks: `first` stands in front of the first name, `next` in front of
the others. -/
def marked (config : RenderConfig) (first next : Piece) : List String → List Piece
  | [] => []
  | label :: rest => first :: name config label :: marked config next next rest

/-- The word that leaves out equal values, and the blank behind it, if `distinct` asks for it. -/
def distinctness (distinct : Bool) : List Piece :=
  if distinct then phrase ["DISTINCT"] ++ [space] else []

mutual

/-- The pieces of an expression. -/
def expression (config : RenderConfig) : Expression → List Piece
  | .literal value => literal value
  | .parameter name => parameter name
  | .variable own => [name config own]
  | .asterisk => [mark .star '*']
  | .property subject key => expression config subject ++ [mark .dot '.', name config key]
  | .call function distinct arguments =>
      bareName function :: mark .leftParen '(' ::
        (distinctness distinct ++ (expressions config arguments ++ [mark .rightParen ')']))
  | .comparison op left right =>
      expression config left ++ (operator (.comparison op) ++ expression config right)
  | .logical op left right =>
      expression config left ++ (operator (.logical op) ++ expression config right)
  | .unary op operand =>
      if op.precedesOperand then operator (.unary op) ++ expression config operand
      else expression config operand ++ operator (.unary op)
  | .nested inner => mark .leftParen '(' :: (expression config inner ++ [mark .rightParen ')'])
  | .aliased inner own =>
      expression config inner ++ (space :: (phrase ["AS"] ++ [space, name config own]))

/-- The pieces of expressions with a `comma` between two of them. -/
def expressions (config : RenderConfig) : List Expression → List Piece
  | [] => []
  | [e] => expression config e
  | e :: next :: rest => expression config e ++ (comma ++ expressions config (next :: rest))

end

/-- The pieces of an entry: the `name` of the key, a colon and the value. -/
def entry (config : RenderConfig) (entry : PropertyEntry) : List Piece :=
  name config entry.key :: mark .colon ':' :: space :: expression config entry.value

/-- The pieces of a property map. -/
def properties (config : RenderConfig) (follows : Bool) (map : PropertyMap) : List Piece :=
  (if follows then [] else [space]) ++
    mark .leftBrace '\x7b' ::
      (separated comma (entry config) map.entries ++ [mark .rightBrace '\x7d'])

/-- The pieces of a node: name, labels and property map between parentheses, each behind its
`mark`. -/
def node (config : RenderConfig) (n : Node) : List Piece :=
  mark .leftParen '(' ::
    (optional (fun own => [name config own]) n.name ++
      (marked config (mark .colon ':') (mark .colon ':') n.labels ++
        (optional (properties config (n.name.isNone && n.labels.isEmpty)) n.properties ++
          [mark .rightParen ')'])))

/-- The pieces of what is asked of a relationship: name, types and property map between brackets,
each behind its `mark`. -/
def details (config : RenderConfig) (r : Relationship) : List Piece :=
  mark .leftBracket '[' ::
    (optional (fun own => [name config own]) r.name ++
      (marked config (mark .colon ':') (mark .pipe '|') r.types ++
        (optional (properties config (r.name.isNone && r.types.isEmpty)) r.properties ++
          [mark .rightBracket ']'])))

/-- What a relationship starts with: the token `leftArrow` or `dash`. -/
def opening : Direction → Piece
  | .incoming => .token .leftArrow ['<', '-']
  | .outgoing | .undirected => mark .dash '-'

/-- What a relationship ends with: the token `rightArrow` or `dash`. -/
def closing : Direction → Piece
  | .outgoing => .token .rightArrow ['-', '>']
  | .incoming | .undirected => mark .dash '-'

/-- The pieces of a relationship: `opening`, `details` unless it `isBare`, and `closing`. -/
def relationship (config : RenderConfig) (r : Relationship) : List Piece :=
  opening r.direction :: ((if r.isBare then [] else details config r) ++ [closing r.direction])

/-- The pieces of the steps of a path: `relationship` and `node` of each. -/
def hops (config : RenderConfig) : List Hop → List Piece
  | [] => []
  | hop :: rest =>
      relationship config hop.relationship ++ (node config hop.node ++ hops config rest)

/-- The pieces of an element. -/
def element (config : RenderConfig) : PatternElement → List Piece
  | .node single => node config single
  | .chain path => node config path.start ++ hops config path.hops

/-- The pieces of a pattern: those of its elements with a `comma` between two of them. -/
def pattern (config : RenderConfig) (p : Pattern) : List Piece :=
  separated comma (element config) p.elements

/-- The pieces of a condition, behind the word `WHERE`. -/
def condition (config : RenderConfig) (e : Expression) : List Piece :=
  space :: (phrase ["WHERE"] ++ [space]) ++ expression config e

/-- The pieces of a reading clause: its words, its `pattern` and its `condition`. -/
def reading (config : RenderConfig) (clause : Match) : List Piece :=
  phrase (if clause.optional then ["OPTIONAL", "MATCH"] else ["MATCH"]) ++ [space] ++
    (pattern config clause.pattern ++ optional (condition config) clause.condition)

/-- The pieces of a projection: `distinctness` and the items. -/
def projection (config : RenderConfig) (p : Projection) : List Piece :=
  distinctness p.distinct ++ separated comma (expression config) p.items

/-- The pieces of a sort criterion: the expression and the word of its direction,
`SortDirection.word`. -/
def sortItem (config : RenderConfig) (item : SortItem) : List Piece :=
  expression config item.expression ++
    optional (fun direction => space :: phrase [direction.word]) item.direction

/-- The pieces of an order, behind the words `ORDER BY`. -/
def order (config : RenderConfig) (items : List SortItem) : List Piece :=
  space :: (phrase ["ORDER", "BY"] ++ [space]) ++ separated comma (sortItem config) items

/-- The pieces of a number of rows, behind the word of its clause, `CountClause.word`. -/
def count (config : RenderConfig) (clause : CountClause) (e : Expression) : List Piece :=
  space :: (phrase [clause.word] ++ [space]) ++ expression config e

/-- The pieces of a projecting clause: `projection`, `order`, and `count` for both numbers of
rows. -/
def returning (config : RenderConfig) (clause : Return) : List Piece :=
  phrase ["RETURN"] ++ [space] ++
    (projection config clause.projection ++
      (optional (order config) clause.order ++
        (optional (count config .skip) clause.skip ++ optional (count config .limit) clause.limit)))

/-- The pieces of a clause, by `reading` or `returning`. -/
def clause (config : RenderConfig) : Clause → List Piece
  | .reading c => reading config c
  | .returning c => returning config c

/-- The pieces of a statement: those of its clauses, with the `clauseSeparator` between two of
them. -/
def statement (config : RenderConfig) (s : Statement) : List Piece :=
  separated [.blank config.clauseSeparator] (clause config) s.clauses

end Spelling

end CypherQuery
