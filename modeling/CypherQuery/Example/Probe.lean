import CypherQuery.Data.Dictionary
import CypherQuery.Data.Value
import CypherQuery.Example.Error

/-! # Probes

A `Probe` is the object that an example holds up. A field that is not set is not the same as a field
that is set to `null`. -/

namespace CypherQuery

/-- Some fields of an object of a type. -/
structure Probe where
  /-- The name of the type. -/
  typeName : String
  /-- The fields that are set. -/
  fields : Dictionary Value

namespace Probe

/-- A probe without fields. -/
def new (typeName : String) : Probe :=
  ⟨typeName, .empty⟩

/-- The probe with a field set, by `Dictionary.insert` on its `fields`. -/
def withField (probe : Probe) (name : String) (value : Value) : Probe :=
  { probe with fields := probe.fields.insert name value }

/-- The probe whose fields are those of an `object`; other values are no probe, `invalidProbe`. -/
def ofValue (typeName : String) : Value → Except ExampleError Probe
  | .object fields => .ok ⟨typeName, .ofList fields⟩
  | value => .error (.invalidProbe value.description)

/-- The value of a field that is set, `get?` of the `fields`. -/
def field? (probe : Probe) (name : String) : Option Value :=
  probe.fields.get? name

/-- The names of the fields that are set, in the order of `Dictionary.names`. -/
def fieldNames (probe : Probe) : List String :=
  probe.fields.names

end Probe

end CypherQuery
