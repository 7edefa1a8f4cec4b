import CypherQuery.Tree.Pattern

/-! # Composing nodes and paths

How the values of `Node`, `Hop` and `Chain` are put together step by step. -/

namespace CypherQuery

namespace PropertyMap

/-- A property map, empty if there was none, with further entries. -/
def extend (map : Option PropertyMap) (entries : List PropertyEntry) : PropertyMap :=
  match map with
  | none => ⟨entries⟩
  | some map => ⟨map.entries ++ entries⟩

end PropertyMap

namespace Node

/-- A node of which nothing is asked. -/
def any : Node :=
  ⟨none, [], none⟩

/-- A node with one label. -/
def ofLabel (label : String) : Node :=
  ⟨none, [label], none⟩

/-- The node bound to a variable. -/
def named (node : Node) (name : String) : Node :=
  { node with name := some name }

/-- The node with a further label. -/
def labeled (node : Node) (label : String) : Node :=
  { node with labels := node.labels ++ [label] }

/-- The node with further properties, by `PropertyMap.extend`. No further properties still make an
empty property map where there was none. -/
def withProperties (node : Node) (entries : List PropertyEntry) : Node :=
  { node with properties := some (PropertyMap.extend node.properties entries) }

/-- A reference to the variable of the node; without one, a variable with the empty name. -/
def asVariable (node : Node) : Expression :=
  .variable (node.name.getD "")

/-- A property of the node under a key, of the variable by `asVariable`. -/
def property (node : Node) (key : String) : Expression :=
  .property node.asVariable key

end Node

namespace Hop

/-- A step over a relationship of one of the given types. -/
def ofTypes (direction : Direction) (node : Node) (types : List String) : Hop :=
  ⟨⟨none, types, none, direction⟩, node⟩

/-- The step with its relationship bound to a variable. -/
def named (name : String) (hop : Hop) : Hop :=
  { hop with relationship := { hop.relationship with name := some name } }

/-- The step with further properties of its relationship, by `PropertyMap.extend`. -/
def withProperties (entries : List PropertyEntry) (hop : Hop) : Hop :=
  { hop with
    relationship := { hop.relationship with
      properties := some (PropertyMap.extend hop.relationship.properties entries) } }

end Hop

/-- A list with its last item changed by `f`; the empty list stays empty. -/
def mapLast {α : Type} (f : α → α) : List α → List α
  | [] => []
  | [item] => [f item]
  | item :: next :: rest => item :: mapLast f (next :: rest)

namespace Chain

/-- The path that only starts at a node. -/
def startingAt (start : Node) : Chain :=
  ⟨start, []⟩

/-- The path with a further step at its end, which `named` and `withProperties` then change. -/
def extend (chain : Chain) (hop : Hop) : Chain :=
  { chain with hops := chain.hops ++ [hop] }

/-- The path with its last relationship bound to a variable, by `Hop.named`; nothing changes without
a step. -/
def named (chain : Chain) (name : String) : Chain :=
  { chain with hops := mapLast (Hop.named name) chain.hops }

/-- The path with further properties of its last relationship, by `Hop.withProperties`. -/
def withProperties (chain : Chain) (entries : List PropertyEntry) : Chain :=
  { chain with hops := mapLast (Hop.withProperties entries) chain.hops }

end Chain

end CypherQuery
