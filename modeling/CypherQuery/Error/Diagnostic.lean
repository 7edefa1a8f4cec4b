/-! # Diagnostics

A `Diagnostic` is what every error of the library can be asked for: a message, a stable code, and
sometimes a hint at the way out. -/

namespace CypherQuery

/-- The presentation of an error. -/
structure Diagnostic where
  /-- What went wrong. -/
  message : String
  /-- The stable identification of the kind of error. -/
  code : String
  /-- How it can be put right. -/
  help : Option String
  deriving DecidableEq, Repr

end CypherQuery
