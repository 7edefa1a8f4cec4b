import CypherQuery.Data.Value

/-! # Options of rendering

A `RenderConfig` chooses between the two layouts and the two ways of quoting names. -/

namespace CypherQuery

/-- How a tree is written as text. -/
structure RenderConfig where
  /-- Whether each clause stands on a line of its own. -/
  pretty : Bool
  /-- Whether every name stands between back-quotes. -/
  alwaysEscapeNames : Bool
  deriving DecidableEq, Repr

namespace RenderConfig

/-- Everything on one line, and names between back-quotes only where they have to be. -/
def plain : RenderConfig :=
  ⟨false, false⟩

/-- The `plain` options, with each clause on a line of its own. -/
def multiline : RenderConfig :=
  ⟨true, false⟩

/-- The plain options are the default. -/
instance : Inhabited RenderConfig := ⟨plain⟩

/-- What stands between two clauses: a line break if the options are `pretty`, else a space. -/
def clauseSeparator (config : RenderConfig) : List Char :=
  if config.pretty then ['\n'] else [' ']

/-- The names of the options in the order of declaration. -/
def optionNames : List String :=
  ["pretty", "always_escape_names"]

/-- The options that a record gives, under the names of `optionNames`; other values give none. -/
def ofValue? (value : Value) : Option RenderConfig := do
  let parts ← value.record? optionNames
  let pretty ← Value.part? parts "pretty" Value.asBoolean? false
  let alwaysEscapeNames ← Value.part? parts "always_escape_names" Value.asBoolean? false
  return ⟨pretty, alwaysEscapeNames⟩

end RenderConfig

end CypherQuery
