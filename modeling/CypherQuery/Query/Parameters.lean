import CypherQuery.Data.Dictionary
import CypherQuery.Data.Value
import CypherQuery.Number.Digits
import CypherQuery.Text.Name

/-! # Parameters

The values that the parameters of a query are bound to, a dictionary of values. A value can be bound
by `allocate` under a fresh name made from a preferred one: the preferred name itself if it is free,
and otherwise the first free name among those with a number behind it (`candidate`). -/

namespace CypherQuery

/-- Values under the names of parameters, as a `Dictionary`. -/
abbrev Parameters :=
  Dictionary Value

namespace Parameters

/-- A character of a preferred name, or an underscore in the place of what no identifier can
hold. -/
def identifierPart (c : Char) : Char :=
  if c.isAlphanum then c else '_'

/-- The identifier made from a preferred name, each character by `identifierPart`. A name of which
only underscores are left gives way to `param`, and a digit at the start gets an underscore before
it. -/
def baseName (preferred : String) : String :=
  let name := preferred.toList.map identifierPart
  if name.all (· == '_') then "param"
  else
    match name with
    | c :: _ => if c.isDigit then String.ofList ('_' :: name) else String.ofList name
    | [] => "param"

/-- The names made from a base name: `base`, then `base` with each number behind an underscore. -/
def candidate (base : String) : Nat → String
  | 0 => base
  | n + 1 => String.ofList (base.toList ++ '_' :: digits (n + 1))

/-- The first free `candidate` from `number` on, among as many as `tries` and the one behind. -/
def firstFree (parameters : Parameters) (base : String) : (tries number : Nat) → String
  | 0, number => candidate base number
  | tries + 1, number =>
      if parameters.contains (candidate base number) then
        firstFree parameters base tries (number + 1)
      else candidate base number

/-- The first free `candidate` of the `baseName`. There are more candidates to try than names in
use. -/
def freshName (parameters : Parameters) (preferred : String) : String :=
  firstFree parameters (baseName preferred) parameters.size 0

/-- Binds a value under the `freshName` of a preferred name; the name is given with the
parameters. -/
def allocate (parameters : Parameters) (preferred : String) (value : Value) :
    String × Parameters :=
  let name := parameters.freshName preferred
  (name, parameters.insert name value)

/-- The parameters as one `object`. -/
def toValue (parameters : Parameters) : Value :=
  .object parameters.entries

end Parameters

end CypherQuery
