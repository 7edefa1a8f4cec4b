import CypherQuery.Build.Path
import CypherQuery.Data.Dictionary

/-! # Schemas

How the fields of a type are stored in the graph: a `NodeDescription` gives the labels of its nodes
and the property that each field is mapped to. A `Schema` knows the descriptions of some types. -/

namespace CypherQuery

/-- How a field is stored. -/
inductive PropertyKind where
  /-- As a property of the node. -/
  | simple
  /-- As a relationship to another node. -/
  | association
  deriving DecidableEq, Repr

/-- How one field of a type is mapped to the graph. -/
structure PropertyDescription where
  /-- The name of the field. -/
  field : String
  /-- The name of the property. -/
  graphName : String
  /-- How the field is stored. -/
  kind : PropertyKind
  /-- Whether the field holds the identifier that the database gave to the node. -/
  isInternalId : Bool
  deriving DecidableEq, Repr

namespace PropertyDescription

/-- A field that is stored as a property of the node. -/
def mapped (field graphName : String) : PropertyDescription :=
  ⟨field, graphName, .simple, false⟩

/-- A field that is stored as a property of the same name, `mapped name name`. -/
def simple (name : String) : PropertyDescription :=
  mapped name name

/-- The field as a relationship to another node, of kind `association`. -/
def association (property : PropertyDescription) : PropertyDescription :=
  { property with kind := .association }

/-- The field as the identifier that the database gave to the node. -/
def internalId (property : PropertyDescription) : PropertyDescription :=
  { property with isInternalId := true }

/-- Whether the field leads to another node: its kind is `association`. -/
def isAssociation (property : PropertyDescription) : Bool :=
  property.kind == .association

end PropertyDescription

/-- The labels and properties of the nodes of a type. -/
structure NodeDescription where
  /-- The name of the type. -/
  typeName : String
  /-- The label that all nodes of the type have. -/
  primaryLabel : String
  /-- Further labels of the nodes. -/
  additionalLabels : List String
  /-- The properties in the order of declaration. -/
  properties : List PropertyDescription
  deriving DecidableEq, Repr

namespace NodeDescription

/-- The first of the `properties` that describes a field. -/
def property? (description : NodeDescription) (field : String) : Option PropertyDescription :=
  description.properties.find? fun property => property.field == field

/-- The variable that the node of an example is bound to. -/
def rootName : String :=
  "n"

/-- The node that an example of the type looks for: bound to `rootName`, with all labels of the
type. -/
def rootNode (description : NodeDescription) : Node :=
  description.additionalLabels.foldl Node.labeled
    ((Node.ofLabel description.primaryLabel).named rootName)

end NodeDescription

/-- A description for each type that is known. -/
abbrev Schema :=
  String → Option NodeDescription

/-- Descriptions under the names of their types. -/
abbrev Catalog :=
  Dictionary NodeDescription

namespace Catalog

/-- The catalog with a description in the place of the one that its type had, by
`Dictionary.insert`. -/
def register (catalog : Catalog) (description : NodeDescription) : Catalog :=
  catalog.insert description.typeName description

/-- The schema that knows the types of the catalog, by `Dictionary.get?`. -/
def schema (catalog : Catalog) : Schema :=
  catalog.get?

end Catalog

end CypherQuery
