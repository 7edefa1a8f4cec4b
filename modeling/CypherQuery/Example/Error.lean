import CypherQuery.Error.Diagnostic
import CypherQuery.Number.Digits

/-! # Errors of queries by example

An `ExampleError` says why an example, or the order and the page asked for, cannot be turned into a
query. -/

namespace CypherQuery

/-- Why an example cannot be turned into a query. -/
inductive ExampleError where
  /-- The type of the example is not described. -/
  | unknownType (type : String)
  /-- Letter case was to be ignored. -/
  | ignoreCase
  /-- Some properties were to be ignored. -/
  | ignoredPaths (paths : List String)
  /-- A field that is set to more than `null` leads to another node. -/
  | association (type field : String)
  /-- A field holds an object. -/
  | nestedValue (type field : String)
  /-- A field that is set is not described. -/
  | unmappedField (type field : String)
  /-- There is no property to sort by. -/
  | unknownSortProperty (type property : String)
  /-- The rows of a page are too far away to be counted. -/
  | pageOutOfRange (page size : UInt64)
  /-- An example is not an object. -/
  | invalidProbe (found : String)
  deriving DecidableEq, Repr

namespace ExampleError

/-- The words of an `ExampleError`. -/
def message : ExampleError → String
  | unknownType type => "no node description is registered for type `" ++ type ++ "`"
  | ignoreCase => "case-insensitive matching is not supported for examples"
  | ignoredPaths paths =>
      "ignored property paths are not supported for examples: " ++ ", ".intercalate paths
  | association type field =>
      "field `" ++ field ++ "` of `" ++ type ++
        "` is an association and cannot be matched by example"
  | nestedValue type field => "field `" ++ field ++ "` of `" ++ type ++ "` holds a nested object"
  | unmappedField type field => "probe field `" ++ field ++ "` is not mapped on `" ++ type ++ "`"
  | unknownSortProperty type property =>
      "cannot sort `" ++ type ++ "` by unknown property `" ++ property ++ "`"
  | pageOutOfRange page size =>
      "page " ++ String.ofList (digits page.toNat) ++ " of size " ++
        String.ofList (digits size.toNat) ++ " does not fit the integer range of SKIP and LIMIT"
  | invalidProbe found => "invalid probe: expected an object, found " ++ found

/-- The stable identification of the kind of error. -/
def code : ExampleError → String
  | unknownType _ => "cypher::example::unknown_type"
  | ignoreCase => "cypher::example::ignore_case"
  | ignoredPaths _ => "cypher::example::ignored_paths"
  | association _ _ => "cypher::example::association"
  | nestedValue _ _ => "cypher::example::nested_value"
  | unmappedField _ _ => "cypher::example::unmapped_field"
  | unknownSortProperty _ _ => "cypher::example::unknown_sort_property"
  | pageOutOfRange _ _ => "cypher::example::page_out_of_range"
  | invalidProbe _ => "cypher::example::invalid_probe"

/-- How it can be put right. -/
def help : ExampleError → Option String
  | ignoreCase => some "normalize the stored values or query with an explicit toLower condition"
  | ignoredPaths _ => some "leave the field unset on the probe instead"
  | nestedValue _ _ => some "only scalar and list values can be matched by example"
  | unknownType _ | association _ _ | unmappedField _ _ | unknownSortProperty _ _
  | pageOutOfRange _ _ | invalidProbe _ => none

/-- The presentation of an error of a query by example: its `message`, `code` and `help`. -/
def diagnostic (error : ExampleError) : Diagnostic :=
  ⟨error.message, error.code, error.help⟩

end ExampleError

end CypherQuery
