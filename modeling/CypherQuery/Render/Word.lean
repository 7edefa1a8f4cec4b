import CypherQuery.Render.Config
import CypherQuery.Render.Error
import CypherQuery.Tree.Statement

/-! # The words of rendered text

The texts of names (`nameText`), parameters, literals and marks, each on its own, and the conditions
on statements and counts that do not depend on what was written before. -/

namespace CypherQuery

/-- The text of a piece of a tree, or the `RenderError` that says why it has none. -/
abbrev Rendered :=
  Except RenderError (List Char)

/-- The text of a name: as it is where the options and `Name.isPlain` allow it, and otherwise
`Name.quoted`. -/
def nameText (config : RenderConfig) (context : NameContext) (name : String) : Rendered :=
  if name.isEmpty then .error (.emptyName context)
  else if !config.alwaysEscapeNames && Name.isPlain name then .ok name.toList
  else .ok (Name.quoted name)

/-- The text of a reference to a parameter, as it is if `Name.isIdentifier`. Reserved words need no
quotation behind the mark, and the options have no say in it. -/
def parameterText (name : String) : Rendered :=
  if name.isEmpty then .error (.emptyName .parameter)
  else if Name.isIdentifier name then .ok ('$' :: name.toList)
  else .ok ('$' :: Name.quoted name)

/-- The text of a literal; a `float` that is not finite has none. -/
def literalText : Literal → Rendered
  | .null => .ok "NULL".toList
  | .boolean true => .ok "true".toList
  | .boolean false => .ok "false".toList
  | .integer value => .ok (signedDigits value.toInt)
  | .float value => if value.isFinite then .ok value.text else .error (.nonFiniteLiteral value)
  | .string text => .ok (QuotedString.encode text.toList)

/-- An operator, `Operator.word`, with the blanks around it. -/
def operatorText : Operator → List Char
  | .unary op =>
      if op.precedesOperand then op.word.toList ++ [' '] else ' ' :: op.word.toList
  | op => ' ' :: op.word.toList ++ [' ']

/-- What a reading clause starts with. -/
def matchText (clause : Match) : List Char :=
  if clause.optional then "OPTIONAL MATCH ".toList else "MATCH ".toList

/-- What a relationship starts with: `<-` or `-`. -/
def openingMark : Direction → List Char
  | .incoming => ['<', '-']
  | .outgoing | .undirected => ['-']

/-- What a relationship ends with: `->` or `-`. -/
def closingMark : Direction → List Char
  | .outgoing => ['-', '>']
  | .incoming | .undirected => ['-']

/-- What a sort criterion ends with: the `word` of its direction, if it has one. -/
def directionText : Option SortDirection → List Char
  | some direction => ' ' :: direction.word.toList
  | none => []

/-- What stands between the items of a list. -/
def commaText : List Char :=
  [',', ' ']

/-- A statement has `readingClauses`, and projects nowhere but at its end; otherwise it has no
text. -/
def Statement.validate (s : Statement) : Except RenderError Unit :=
  if s.readingClauses.isEmpty then .error .missingReadingClause
  else if s.clauses.dropLast.any (fun clause => clause.returning?.isSome) then
    .error .misplacedReturn
  else .ok ()

/-- A number of rows that is written out as an integer literal is not negative; other expressions
pass. -/
def checkCount (clause : CountClause) : Expression → Except RenderError Unit
  | .literal (.integer value) =>
      if value < 0 then .error (.negativeCount clause value) else .ok ()
  | _ => .ok ()

end CypherQuery
