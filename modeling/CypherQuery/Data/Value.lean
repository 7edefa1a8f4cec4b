/-! # Structured values

A `Value` is what a probe holds, a parameter is bound to and a query answers with: a value of
structured text, with exact decimal numbers. Options and arguments are given as records of values,
read by `record?` and `part?`. -/

namespace CypherQuery

/-- A structured value: nothing, a scalar, or lists and objects of values. -/
inductive Value where
  /-- The absent value. -/
  | null
  /-- A truth value. -/
  | boolean (value : Bool)
  /-- The number `mantissa / 10 ^ places`. -/
  | number (mantissa : Int) (places : Nat)
  /-- A text. -/
  | string (text : String)
  /-- A sequence of values. -/
  | list (items : List Value)
  /-- Values under names. -/
  | object (fields : List (String × Value))
  deriving Repr, BEq, Inhabited

namespace Value

/-- Whether the value is the absent one. -/
def isNull : Value → Bool
  | .null => true
  | _ => false

/-- Whether the value holds others under names. -/
def isObject : Value → Bool
  | .object _ => true
  | _ => false

/-- Whether the value is a text. -/
def isString : Value → Bool
  | .string _ => true
  | _ => false

/-- What kind of value it is, in words, as `ExampleError.invalidProbe` reports it. -/
def description : Value → String
  | .null => "null"
  | .boolean _ => "a boolean"
  | .number _ _ => "a number"
  | .string _ => "a string"
  | .list _ => "an array"
  | .object _ => "an object"

/-- The field of an object with a name; `lookup?` on its list of fields, so the first one if there
are several. -/
def field? (fields : List (String × Value)) (name : String) : Option Value :=
  (fields.find? fun field => field.1 == name).map (·.2)

/-- The truth value that a value is, if it is a `boolean`. -/
def asBoolean? : Value → Option Bool
  | .boolean value => some value
  | _ => none

/-- The text that a value is, if it is a `string`. -/
def asString? : Value → Option String
  | .string text => some text
  | _ => none

/-- The texts that a list of texts holds; `none` if an item is no `string`. -/
def asStrings? : Value → Option (List String)
  | .list items => items.mapM asString?
  | _ => none

/-! ## Records

A record is a value with named parts. It is written as an object, or as a list that gives the
parts in the order of their names. -/

/-- The parts that a record gives, under their `names`. A list may leave out parts at its end, but
has no more items than there are names; an object may hold other fields besides. -/
def record? (names : List String) : Value → Option (List (String × Value))
  | .object fields => some fields
  | .list items => if items.length ≤ names.length then some (names.zip items) else none
  | _ => none

/-- A part of a record: `default` if it is not given, and nothing if `read` refuses its value. -/
def part? {α : Type} (parts : List (String × Value)) (name : String) (read : Value → Option α)
    (default : α) : Option α :=
  match field? parts name with
  | none => some default
  | some value => read value

end Value

end CypherQuery
