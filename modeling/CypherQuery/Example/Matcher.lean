import CypherQuery.Data.Value
import CypherQuery.Example.Error
import CypherQuery.Example.Probe
import CypherQuery.Tree.Expression

/-! # Matchers

An `ExampleMatcher` says how the fields of a probe become conditions; an `Example` is a probe with
its matcher. Options of which no query can be made are refused by `validate`. -/

namespace CypherQuery

/-- How the conditions of the fields are combined. -/
inductive MatchMode where
  /-- All conditions hold. -/
  | all
  /-- At least one condition holds. -/
  | any
  deriving DecidableEq, Repr

/-- What is asked of a field that is set to nothing. -/
inductive NullHandling where
  /-- No condition. -/
  | ignored
  /-- The property has no value. -/
  | matched
  deriving DecidableEq, Repr

/-- How texts are compared. -/
inductive StringMatcher where
  /-- As the library sees fit: the texts are equal. -/
  | default
  /-- The texts are equal. -/
  | exact
  /-- The stored text starts with that of the probe. -/
  | startsWith
  /-- The stored text ends with that of the probe. -/
  | endsWith
  /-- The stored text contains that of the probe. -/
  | contains
  /-- The stored text matches that of the probe, a regular expression. -/
  | regex
  deriving DecidableEq, Repr

/-- The options of an example. -/
structure ExampleMatcher where
  /-- How the conditions are combined. -/
  mode : MatchMode
  /-- What is asked of fields that are set to nothing. -/
  nullHandling : NullHandling
  /-- How texts are compared. -/
  stringMatcher : StringMatcher
  /-- Whether letter case does not matter. No query can be made of that. -/
  ignoreCase : Bool
  /-- The properties that are left out. No query can be made of that. -/
  ignoredPaths : List String
  deriving DecidableEq, Repr

/-- A probe with its options. -/
structure Example where
  /-- The probe. -/
  probe : Probe
  /-- The options. -/
  matcher : ExampleMatcher

/-! ## Names of options -/

/-- The name of a mode. -/
def MatchMode.word : MatchMode → String
  | .all => "all"
  | .any => "any"

/-- The name of a treatment of fields that are set to nothing. -/
def NullHandling.word : NullHandling → String
  | .ignored => "ignore"
  | .matched => "include"

/-- The name of a comparison of texts. -/
def StringMatcher.word : StringMatcher → String
  | .default => "default"
  | .exact => "exact"
  | .startsWith => "starts_with"
  | .endsWith => "ends_with"
  | .contains => "contains"
  | .regex => "regex"

/-- The comparison that a property has to meet; `default` and `exact` both ask for `equal`. -/
def StringMatcher.comparison : StringMatcher → Comparison
  | .default | .exact => .equal
  | .startsWith => .startsWith
  | .endsWith => .endsWith
  | .contains => .contains
  | .regex => .matchesRegex

/-- The option among `options` that a value names: by a text, or by the only field of an object if
that holds nothing. -/
def Value.choice? {α : Type} (options : List α) (word : α → String) : Value → Option α
  | .string text => options.find? fun option => word option == text
  | .object [(text, .null)] => options.find? fun option => word option == text
  | _ => none

/-- The mode that a value names by `word`. -/
def MatchMode.ofValue? : Value → Option MatchMode :=
  Value.choice? [.all, .any] MatchMode.word

/-- The treatment of fields that are set to nothing that a value names by `word`. -/
def NullHandling.ofValue? : Value → Option NullHandling :=
  Value.choice? [.ignored, .matched] NullHandling.word

/-- The comparison of texts that a value names by `word`. -/
def StringMatcher.ofValue? : Value → Option StringMatcher :=
  Value.choice? [.default, .exact, .startsWith, .endsWith, .contains, .regex] StringMatcher.word

namespace ExampleMatcher

/-- All conditions hold, fields set to `null` are ignored, and texts are equal. -/
def matchingAll : ExampleMatcher :=
  ⟨.all, .ignored, .default, false, []⟩

/-- As `matchingAll`, but one condition is enough. -/
def matchingAny : ExampleMatcher :=
  { matchingAll with mode := .any }

/-- By default all conditions hold: `matchingAll`. -/
instance : Inhabited ExampleMatcher := ⟨matchingAll⟩

/-- The options with a condition for fields that are set to `null`. -/
def includingNull (matcher : ExampleMatcher) : ExampleMatcher :=
  { matcher with nullHandling := .matched }

/-- The options with another comparison of texts. -/
def withStringMatcher (matcher : ExampleMatcher) (strings : StringMatcher) : ExampleMatcher :=
  { matcher with stringMatcher := strings }

/-- The options with letter case ignored. -/
def ignoringCase (matcher : ExampleMatcher) : ExampleMatcher :=
  { matcher with ignoreCase := true }

/-- The options with further properties left out, behind the earlier `ignoredPaths`. -/
def ignoringPaths (matcher : ExampleMatcher) (paths : List String) : ExampleMatcher :=
  { matcher with ignoredPaths := matcher.ignoredPaths ++ paths }

/-- Options of which no query can be made are rejected: `ignoreCase` first, then any
`ignoredPaths`. -/
def validate (matcher : ExampleMatcher) : Except ExampleError Unit :=
  if matcher.ignoreCase then .error .ignoreCase
  else if !matcher.ignoredPaths.isEmpty then .error (.ignoredPaths matcher.ignoredPaths)
  else .ok ()

/-- The names of the options in the order of declaration. -/
def optionNames : List String :=
  ["mode", "null_handling", "string_matcher", "ignore_case", "ignored_paths"]

/-- The options that a record gives, under the names of `optionNames`; other values give none. -/
def ofValue? (value : Value) : Option ExampleMatcher := do
  let parts ← value.record? optionNames
  let mode ← Value.part? parts "mode" MatchMode.ofValue? .all
  let nullHandling ← Value.part? parts "null_handling" NullHandling.ofValue? .ignored
  let stringMatcher ← Value.part? parts "string_matcher" StringMatcher.ofValue? .default
  let ignoreCase ← Value.part? parts "ignore_case" Value.asBoolean? false
  let ignoredPaths ← Value.part? parts "ignored_paths" Value.asStrings? []
  return ⟨mode, nullHandling, stringMatcher, ignoreCase, ignoredPaths⟩

end ExampleMatcher

end CypherQuery
