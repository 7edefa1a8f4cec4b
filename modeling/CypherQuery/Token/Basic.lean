import CypherQuery.Number.Layout
import CypherQuery.Text.Name

/-! # Tokens

A `Token` is one word of pattern text: a bracket or mark, a name, or a constant. -/

namespace CypherQuery

/-- A token of pattern text. -/
inductive Token where
  /-- The mark that opens a node. -/
  | leftParen
  /-- The mark that closes a node. -/
  | rightParen
  /-- The mark that opens the details of a relationship. -/
  | leftBracket
  /-- The mark that closes the details of a relationship. -/
  | rightBracket
  /-- The mark that opens a property map. -/
  | leftBrace
  /-- The mark that closes a property map. -/
  | rightBrace
  /-- The mark before labels, types and values. -/
  | colon
  /-- The mark between elements and between entries. -/
  | comma
  /-- The mark between types. -/
  | pipe
  /-- A lone point. -/
  | dot
  /-- A star. -/
  | star
  /-- The line of a relationship, or a minus sign. -/
  | dash
  /-- The arrow that ends an outgoing relationship. -/
  | rightArrow
  /-- The arrow that starts an incoming relationship. -/
  | leftArrow
  /-- A reference to a parameter. -/
  | parameter (name : String)
  /-- A name without quotation. -/
  | identifier (name : String)
  /-- A name between back-quotes. -/
  | quotedName (name : String)
  /-- A string. -/
  | string (text : String)
  /-- An integer. -/
  | integer (value : Int64)
  /-- A number with a decimal point. -/
  | float (value : Binary64)
  deriving DecidableEq, Repr

namespace Token

/-- The name that a token gives to something: that of an `identifier` or of a `quotedName`. -/
def name? : Token → Option String
  | .identifier name | .quotedName name => some name
  | _ => none

/-- A token as it is shown in messages: quoted content stands between its marks as it is. -/
def display : Token → String
  | .leftParen => "("
  | .rightParen => ")"
  | .leftBracket => "["
  | .rightBracket => "]"
  | .leftBrace => "\x7b"
  | .rightBrace => "\x7d"
  | .colon => ":"
  | .comma => ","
  | .pipe => "|"
  | .dot => "."
  | .star => "*"
  | .dash => "-"
  | .rightArrow => "->"
  | .leftArrow => "<-"
  | .parameter name => "$" ++ name
  | .identifier name => name
  | .quotedName name => "\x60" ++ name ++ "\x60"
  | .string text => "'" ++ text ++ "'"
  | .integer value => String.ofList (signedDigits value.toInt)
  | .float value => String.ofList value.text

end Token

end CypherQuery
