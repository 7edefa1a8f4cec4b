import CypherQuery.Tree.Expression

/-! # Patterns

A `Pattern` is what a query looks for in the graph: nodes, and paths (`Chain`) that lead from node
to node by relationships. -/

namespace CypherQuery

/-- One key of a property map and the value that it must have. -/
structure PropertyEntry where
  /-- The key. -/
  key : String
  /-- The value. -/
  value : Expression
  deriving Repr

/-- The property map of a node or a relationship. -/
structure PropertyMap where
  /-- The entries as they are written. -/
  entries : List PropertyEntry
  deriving Repr

/-- A node of a pattern. An empty property map, `some ⟨[]⟩`, is not the same as none. -/
structure Node where
  /-- The variable that the node is bound to. -/
  name : Option String
  /-- The labels that the node must have. -/
  labels : List String
  /-- The properties that the node must have. -/
  properties : Option PropertyMap
  deriving Repr, Inhabited

/-- The direction of a relationship, seen in the order of writing. -/
inductive Direction where
  /-- From the node before to the node behind. -/
  | outgoing
  /-- From the node behind to the node before. -/
  | incoming
  /-- Either way. -/
  | undirected
  deriving DecidableEq, Repr

/-- A relationship between two nodes of a pattern. -/
structure Relationship where
  /-- The variable that the relationship is bound to. -/
  name : Option String
  /-- The types of which the relationship must have one; none for any type. -/
  types : List String
  /-- The properties that the relationship must have. -/
  properties : Option PropertyMap
  /-- Which way the relationship points. -/
  direction : Direction
  deriving Repr

/-- One step of a path: a relationship and the node it leads to. -/
structure Hop where
  /-- The relationship. -/
  relationship : Relationship
  /-- The node behind it. -/
  node : Node
  deriving Repr

/-- A path through the graph. -/
structure Chain where
  /-- The node that the path starts at. -/
  start : Node
  /-- The steps of the path. -/
  hops : List Hop
  deriving Repr

/-- An element of a pattern. -/
inductive PatternElement where
  /-- A node alone. -/
  | node (node : Node)
  /-- A path. -/
  | chain (chain : Chain)
  deriving Repr

/-- A pattern: elements that are looked for together. -/
structure Pattern where
  /-- The elements. -/
  elements : List PatternElement
  deriving Repr

/-- Whether nothing is asked of a relationship but its `direction`. -/
def Relationship.isBare (r : Relationship) : Bool :=
  r.name.isNone && r.types.isEmpty && r.properties.isNone

/-- A relationship is bare, `isBare`, if it has no name, no types and no property map. -/
theorem Relationship.isBare_iff {r : Relationship} :
    r.isBare = true ↔ r.name = none ∧ r.types = [] ∧ r.properties = none := by
  rw [isBare, Bool.and_eq_true, Bool.and_eq_true, Option.isNone_iff_eq_none,
    Option.isNone_iff_eq_none, List.isEmpty_iff, and_assoc]

namespace Pattern

/-- The pattern of one element. -/
def ofElement (element : PatternElement) : Pattern :=
  ⟨[element]⟩

/-- The pattern of one node, `PatternElement.node`. -/
def ofNode (node : Node) : Pattern :=
  ofElement (.node node)

/-- The pattern of one path, `PatternElement.chain`. -/
def ofChain (chain : Chain) : Pattern :=
  ofElement (.chain chain)

end Pattern

/-! ## Equality

Trees are the `same` if they are built alike from expressions that are, `Expression.same`. -/

/-- Whether two lists have the same length and items related by `same` at each place. -/
def sameItems {α : Type} (same : α → α → Bool) : List α → List α → Bool
  | [], [] => true
  | a :: as, b :: bs => same a b && sameItems same as bs
  | _, _ => false

/-- Whether two optional parts are both missing or related by `same`. -/
def samePart {α : Type} (same : α → α → Bool) : Option α → Option α → Bool
  | none, none => true
  | some a, some b => same a b
  | _, _ => false

/-- Whether two entries are the same: the keys, and the values by `Expression.same`. -/
def PropertyEntry.same (a b : PropertyEntry) : Bool :=
  a.key == b.key && a.value.same b.value

/-- Whether two property maps are the same, entry by entry (`sameItems`). -/
def PropertyMap.same (a b : PropertyMap) : Bool :=
  sameItems PropertyEntry.same a.entries b.entries

/-- Whether two nodes are the same: names, labels and `PropertyMap.same`. -/
def Node.same (a b : Node) : Bool :=
  a.name == b.name && a.labels == b.labels && samePart PropertyMap.same a.properties b.properties

/-- Whether two relationships are the same: names, types, `PropertyMap.same` and directions. -/
def Relationship.same (a b : Relationship) : Bool :=
  a.name == b.name && a.types == b.types && samePart PropertyMap.same a.properties b.properties &&
    a.direction == b.direction

/-- Whether two steps are the same: `Relationship.same` and `Node.same`. -/
def Hop.same (a b : Hop) : Bool :=
  a.relationship.same b.relationship && a.node.same b.node

/-- Whether two paths are the same: the starts, and step by step. -/
def Chain.same (a b : Chain) : Bool :=
  a.start.same b.start && sameItems Hop.same a.hops b.hops

/-- Whether two elements are the same: of one kind, and `same` in it. -/
def PatternElement.same : PatternElement → PatternElement → Bool
  | .node a, .node b => a.same b
  | .chain a, .chain b => a.same b
  | _, _ => false

/-- Whether two patterns are the same, element by element (`sameItems`). -/
def Pattern.same (a b : Pattern) : Bool :=
  sameItems PatternElement.same a.elements b.elements

end CypherQuery
