import CypherQuery.Text.Quoted

/-! # Names

Variables, labels, types, keys and parameters are named by arbitrary text. A name that has the form
of an identifier (`isIdentifier`) and is no reserved word (`isReserved`) can be written as it is,
`isPlain`; every other name is `quoted`, between back-quotes. -/

namespace CypherQuery.Name

/-- The characters that an identifier can start with. -/
def isStart (c : Char) : Bool :=
  c.isAlpha || c == '_'

/-- The characters that an identifier can go on with. -/
def isPart (c : Char) : Bool :=
  c.isAlphanum || c == '_'

/-- Whether a name is a letter or an underscore followed by letters, digits and underscores, by
`isStart` and `isPart`; only the letters and digits of ASCII count. -/
def isIdentifier (name : String) : Bool :=
  match name.toList with
  | [] => false
  | c :: rest => isStart c && rest.all isPart

/-- The words with a meaning of their own in queries. -/
def reservedWords : List String :=
  ["ALL", "AND", "AS", "ASC", "ASCENDING", "BY", "CALL", "CASE", "CONTAINS", "CREATE", "DELETE",
    "DESC", "DESCENDING", "DETACH", "DISTINCT", "ELSE", "END", "ENDS", "EXISTS", "FALSE", "IN",
    "IS", "LIMIT", "MANDATORY", "MATCH", "MERGE", "NOT", "NULL", "ON", "OPTIONAL", "OR", "ORDER",
    "REMOVE", "RETURN", "SET", "SKIP", "STARTS", "THEN", "TRUE", "UNION", "UNWIND", "WHEN",
    "WHERE", "WITH", "XOR", "YIELD"]

/-- The name with the letters of ASCII in upper case. -/
def upperCase (name : String) : String :=
  String.ofList (name.toList.map Char.toUpper)

/-- Whether a name is one of the `reservedWords` in some letter case. -/
def isReserved (name : String) : Bool :=
  reservedWords.contains (upperCase name)

/-- Whether a name can be written without quotation: one that `isIdentifier` and not
`isReserved`. -/
def isPlain (name : String) : Bool :=
  isIdentifier name && !isReserved name

/-- A name between back-quotes, `QuotedName.encode` of its characters. -/
def quoted (name : String) : List Char :=
  QuotedName.encode name.toList

/-- The empty name is no identifier. -/
@[simp] theorem isIdentifier_empty : isIdentifier "" = false := by
  simp [isIdentifier]

/-- Every start of an identifier, `isStart`, may also stand inside one, `isPart`. -/
theorem isPart_of_isStart {c : Char} (start : isStart c = true) : isPart c = true := by
  simp only [isStart, isPart, Char.isAlphanum, Bool.or_eq_true] at start ⊢
  exact start.elim (fun letter => .inl (.inl letter)) .inr

end CypherQuery.Name
