import CypherQuery.Data.Dictionary
import CypherQuery.Traversal.Preorder
import CypherQuery.Traversal.Walk

/-! # Collecting from a tree

A `collector` looks at the listed parts as they are entered and keeps what it chooses from each.
The parameters that a statement refers to, `Statement.referencedParameters`, are collected in this
way. -/

namespace CypherQuery

variable {α : Type}

/-- A visitor that keeps what `choose` gives for the listed parts, `Part.isListed`, the latest
first. -/
def collector (choose : Part → Option α) : Event → StateM (List α) Unit
  | .enter part =>
      match if part.isListed then choose part else none with
      | some item => modify (item :: ·)
      | none => pure ()
  | .leave _ => pure ()

/-- What a collecting walk has kept, in the order of the walk, from nothing on; the `collector` puts
the last one in front. -/
def collected (walk : StateM (List α) Unit) : List α :=
  (walk.run []).2.reverse

/-- What is chosen from the parts of an expression: `collector` walked along it. -/
def Expression.collect (choose : Part → Option α) (e : Expression) : List α :=
  collected (e.walk (collector choose))

/-- What is chosen from the parts of a pattern: `collector` walked along it. -/
def Pattern.collect (choose : Part → Option α) (pattern : Pattern) : List α :=
  collected (pattern.walk (collector choose))

/-- What is chosen from the parts of a statement: `collector` walked along it. -/
def Statement.collect (choose : Part → Option α) (statement : Statement) : List α :=
  collected (statement.walk (collector choose))

/-- The name of the parameter that a part is, by `Expression.parameterName?`. -/
def Part.parameterName? : Part → Option String
  | .expression e => e.parameterName?
  | _ => none

/-- The names of the parameters that a statement refers to, each once and in order: the `names` of a
dictionary. -/
def Statement.referencedParameters (statement : Statement) : List String :=
  let mentions := statement.collect Part.parameterName?
  (Dictionary.ofList (mentions.map fun name => (name, ()))).names

end CypherQuery
