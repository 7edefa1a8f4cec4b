import CypherQuery.Error.Diagnostic
import CypherQuery.Text.Span
import CypherQuery.Token.Basic

/-! # Errors of pattern text

A `PatternFault` says why a text is no pattern; a `PatternError` also says where. -/

namespace CypherQuery

/-- What a name in a pattern stands for. -/
inductive NameRole where
  /-- The label of a node. -/
  | label
  /-- The type of a relationship. -/
  | relationshipType
  /-- The key of a property. -/
  | propertyKey
  deriving DecidableEq, Repr

/-- What a name stands for, in words, as `PatternFault.message` has them. -/
def NameRole.description : NameRole → String
  | .label => "label"
  | .relationshipType => "relationship type"
  | .propertyKey => "property key"

/-- Why a text is no pattern. Where something else was expected, the token that was found
instead is given, or none at the end of the text. -/
inductive PatternFault where
  /-- An integer is too large. -/
  | outOfRange (digits : String)
  /-- Some text is no token. -/
  | unexpectedInput (text : String)
  /-- There are no tokens. -/
  | empty
  /-- A certain token is missing. -/
  | expectedToken (wanted : Token) (found : Option Token)
  /-- A name is missing. -/
  | expectedName (role : NameRole) (found : Option Token)
  /-- The value of a property is missing. -/
  | expectedValue (found : Option Token)
  /-- A number is missing behind a minus sign. -/
  | expectedNumber (found : Option Token)
  /-- The end of a relationship is missing. -/
  | expectedClosing (found : Option Token)
  /-- The pattern is complete, but the text goes on. -/
  | trailing (found : Option Token)
  /-- A word without quotation stands in the place of a value. -/
  | bareWord (word : String)
  /-- A relationship points both ways. -/
  | bothDirections
  deriving DecidableEq, Repr

namespace PatternFault

/-- What was found, in words: the token by `Token.display`, or the end of the text. -/
def foundText : Option Token → String
  | some token => "`" ++ token.display ++ "`"
  | none => "end of input"

/-- What went wrong. -/
def message : PatternFault → String
  | outOfRange digits => "integer literal `" ++ digits ++ "` is out of range"
  | unexpectedInput text => "unexpected input `" ++ text ++ "`"
  | empty => "pattern is empty"
  | expectedToken wanted found => "expected `" ++ wanted.display ++ "`, found " ++ foundText found
  | expectedName role found => "expected a " ++ role.description ++ ", found " ++ foundText found
  | expectedValue found => "expected a property value, found " ++ foundText found
  | expectedNumber found => "expected a number after `-`, found " ++ foundText found
  | expectedClosing found =>
      "expected `-` or `->` to close the relationship, found " ++ foundText found
  | trailing found => "unexpected " ++ foundText found ++ " after pattern"
  | bareWord word => "`" ++ word ++ "` is not a property value"
  | bothDirections => "a relationship cannot point in both directions"

/-- How it can be put right. -/
def help : PatternFault → Option String
  | outOfRange _ =>
      some "integers must fit in a signed 64-bit value; use a parameter instead"
  | empty => some "a pattern starts with a node, e.g. `(n:Label)`"
  | bareWord word => some ("use a parameter such as `$" ++ word ++ "` for dynamic values")
  | bothDirections => some "use `-[...]-` for an undirected relationship"
  | unexpectedInput _ | expectedToken _ _ | expectedName _ _ | expectedValue _
  | expectedNumber _ | expectedClosing _ | trailing _ => none

end PatternFault

/-- A text that is no pattern: the fault and the span of the source that is to blame. -/
structure PatternError where
  /-- Why it is none. -/
  fault : PatternFault
  /-- The part of the text that is to blame. -/
  span : Span
  /-- The text. -/
  source : String
  deriving DecidableEq, Repr

/-- The presentation of an error in pattern text, that of its `fault`. -/
def PatternError.diagnostic (error : PatternError) : Diagnostic :=
  ⟨error.fault.message, "cypher::pattern::syntax", error.fault.help⟩

end CypherQuery
