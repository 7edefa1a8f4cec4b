import CypherQuery.PatternText.Error
import CypherQuery.Tree.Pattern

/-! # Reading patterns from tokens

Each reader takes a list of tokens and gives what it has read with the tokens that follow, or the
`Rejection` that says why the tokens cannot go on in this way. Readers look at tokens only, never at
the text that these were read from. `pattern` reads all tokens there are. The lemmas named
`length_of_…` say that readers leave no more tokens than they take, by which the repeating readers
come to an end. -/

namespace CypherQuery

/-- Why tokens could not be read, and which tokens are to blame. -/
structure Rejection where
  /-- The reason. -/
  fault : PatternFault
  /-- The tokens from the first one that is to blame. -/
  since : List Token
  /-- The tokens from the last one that is to blame. -/
  rest : List Token
  deriving DecidableEq, Repr

/-- The outcome of reading something from the start of a list of tokens, or a `Rejection`. A reader
gives what it has read together with the tokens that follow. -/
abbrev Reading :=
  Except Rejection

namespace Reading

variable {α β : Type}

/-- Reading stops at the first of the given tokens, which is not what was expected; `fault` is told
that token, or `none`. -/
def reject (fault : Option Token → PatternFault) (tokens : List Token) : Reading α :=
  .error ⟨fault tokens.head?, tokens, tokens⟩

/-- The steps `first >>= next` succeed if `first` does and `next` does with its result. -/
theorem bind_eq_ok {first : Reading α} {next : α → Reading β} {b : β} :
    (first >>= next) = .ok b ↔ ∃ a, first = .ok a ∧ next a = .ok b := by
  cases first <;> simp [bind, Except.bind]

/-- The tokens behind the token `wanted`, which must come first. -/
def expect (wanted : Token) : List Token → Reading (List Token)
  | [] => reject (.expectedToken wanted) []
  | token :: rest =>
      if token = wanted then .ok rest else reject (.expectedToken wanted) (token :: rest)

/-- A name, if the first token gives one by `Token.name?`. -/
def optionalName : List Token → Option String × List Token
  | [] => (none, [])
  | token :: rest =>
      match token.name? with
      | some name => (some name, rest)
      | none => (none, token :: rest)

/-- A name, which the first token must give by `Token.name?`; `role` is what it is for. -/
def name (role : NameRole) : List Token → Reading (String × List Token)
  | [] => reject (.expectedName role) []
  | token :: rest =>
      match token.name? with
      | some name => .ok (name, rest)
      | none => reject (.expectedName role) (token :: rest)

/-- Items with commas between them, at least one; `shrinks` says that each `item` takes a token. -/
def commaSeparated (item : List Token → Reading (α × List Token))
    (shrinks : ∀ {tokens a rest}, item tokens = .ok (a, rest) → rest.length < tokens.length)
    (tokens : List Token) : Reading (List α × List Token) :=
  match _read : item tokens with
  | .error rejection => .error rejection
  | .ok (first, .comma :: rest) =>
      match commaSeparated item shrinks rest with
      | .error rejection => .error rejection
      | .ok (more, rest) => .ok (first :: more, rest)
  | .ok (first, rest) => .ok ([first], rest)
termination_by tokens.length
decreasing_by
  have shorter := shrinks _read
  simp only [List.length_cons] at shorter
  omega

/-! ## Properties -/

/-- The value of a property: a parameter, or a constant. A bare word must be known to
`Literal.ofWord?`. -/
def value : List Token → Reading (Expression × List Token)
  | .parameter name :: rest => .ok (.parameter name, rest)
  | .string text :: rest => .ok (.literal (.string text), rest)
  | .integer n :: rest => .ok (.literal (.integer n), rest)
  | .float x :: rest => .ok (.literal (.float x), rest)
  | .dash :: .integer n :: rest => .ok (.literal (.integer (-n)), rest)
  | .dash :: .float x :: rest => .ok (.literal (.float x.negate), rest)
  | .dash :: rest => reject .expectedNumber rest
  | .identifier word :: rest =>
      match Literal.ofWord? word with
      | some constant => .ok (.literal constant, rest)
      | none => reject (fun _ => .bareWord word) (.identifier word :: rest)
  | tokens => reject .expectedValue tokens

/-- A key and its value, with a colon between them. -/
def entry (tokens : List Token) : Reading (PropertyEntry × List Token) := do
  let (key, rest) ← name .propertyKey tokens
  let rest ← expect .colon rest
  let (value, rest) ← value rest
  return (⟨key, value⟩, rest)

/-- What is behind an expected token, `expect`, is shorter. -/
theorem length_of_expect {wanted : Token} {tokens rest : List Token}
    (read : expect wanted tokens = .ok rest) : rest.length < tokens.length := by
  cases tokens with
  | nil => cases read
  | cons token tail =>
      simp only [expect] at read
      split at read
      · cases read; simp
      · cases read

/-- What is behind a `name` is shorter. -/
theorem length_of_name {role : NameRole} {tokens rest : List Token} {text : String}
    (read : name role tokens = .ok (text, rest)) : rest.length < tokens.length := by
  cases tokens with
  | nil => cases read
  | cons token tail =>
      simp only [name] at read
      split at read
      · cases read; simp
      · cases read

/-- What is behind a `value` is shorter. -/
theorem length_of_value {tokens rest : List Token} {e : Expression}
    (read : value tokens = .ok (e, rest)) : rest.length < tokens.length := by
  unfold value at read
  split at read
  case h_8 => split at read <;> cases read; simp
  all_goals cases read <;> simp only [List.length_cons] <;> omega

/-- What is behind an `entry` is shorter. -/
theorem length_of_entry {tokens rest : List Token} {e : PropertyEntry}
    (read : entry tokens = .ok (e, rest)) : rest.length < tokens.length := by
  obtain ⟨⟨key, afterKey⟩, readKey, read⟩ := bind_eq_ok.mp read
  obtain ⟨afterColon, readColon, read⟩ := bind_eq_ok.mp read
  obtain ⟨⟨found, afterValue⟩, readValue, read⟩ := bind_eq_ok.mp read
  cases read
  have := length_of_name readKey
  have := length_of_expect readColon
  have := length_of_value readValue
  omega

/-- A property map, if there is one: entries that are `commaSeparated` between braces, or none. -/
def properties : List Token → Reading (Option PropertyMap × List Token)
  | .leftBrace :: .rightBrace :: rest => .ok (some ⟨[]⟩, rest)
  | .leftBrace :: rest => do
      let (entries, rest) ← commaSeparated entry length_of_entry rest
      let rest ← expect .rightBrace rest
      return (some ⟨entries⟩, rest)
  | tokens => .ok (none, tokens)

/-! ## Nodes -/

/-- Labels, each behind a colon. -/
def labels : List Token → Reading (List String × List Token)
  | [.colon] => reject (.expectedName .label) []
  | .colon :: token :: rest =>
      match token.name? with
      | some label => do
          let (more, rest) ← labels rest
          return (label :: more, rest)
      | none => reject (.expectedName .label) (token :: rest)
  | tokens => .ok ([], tokens)

/-- A node between parentheses: a name, labels and properties, each of which may be missing. -/
def node (tokens : List Token) : Reading (Node × List Token) := do
  let rest ← expect .leftParen tokens
  let named := optionalName rest
  let (labels, rest) ← labels named.2
  let (properties, rest) ← properties rest
  let rest ← expect .rightParen rest
  return (⟨named.1, labels, properties⟩, rest)

/-! ## Relationships -/

/-- Further types, each behind a bar and perhaps a colon. -/
def moreTypes : List Token → Reading (List String × List Token)
  | [.pipe] | [.pipe, .colon] => reject (.expectedName .relationshipType) []
  | .pipe :: .colon :: token :: rest =>
      match token.name? with
      | some type => do
          let (more, rest) ← moreTypes rest
          return (type :: more, rest)
      | none => reject (.expectedName .relationshipType) (token :: rest)
  | .pipe :: token :: rest =>
      match token.name? with
      | some type => do
          let (more, rest) ← moreTypes rest
          return (type :: more, rest)
      | none => reject (.expectedName .relationshipType) (token :: rest)
  | tokens => .ok ([], tokens)

/-- The types behind a colon, if there is one: a first one and `moreTypes`. -/
def types : List Token → Reading (List String × List Token)
  | .colon :: rest => do
      let (first, rest) ← name .relationshipType rest
      let (more, rest) ← moreTypes rest
      return (first :: more, rest)
  | tokens => .ok ([], tokens)

/-- What is asked of a relationship between brackets, if there are brackets. The direction is left
open, to be given by `closing`. -/
def details : List Token → Reading ((Direction → Relationship) × List Token)
  | .leftBracket :: rest => do
      let named := optionalName rest
      let (types, rest) ← types named.2
      let (properties, rest) ← properties rest
      let rest ← expect .rightBracket rest
      return (Relationship.mk named.1 types properties, rest)
  | tokens => .ok (Relationship.mk none [] none, tokens)

/-- The end of a relationship: its direction, given whether an arrow is at its start. A second arrow
is the fault `bothDirections`, from the first one on, at `since`. -/
def closing (since : List Token) (incoming : Bool) : List Token → Reading (Direction × List Token)
  | .rightArrow :: rest =>
      if incoming then .error ⟨.bothDirections, since, .rightArrow :: rest⟩
      else .ok (.outgoing, rest)
  | .dash :: rest => .ok (if incoming then .incoming else .undirected, rest)
  | tokens => reject .expectedClosing tokens

/-- The part of a relationship behind its first mark: its `details` and its `closing`. -/
def relationshipTail (since : List Token) (incoming : Bool) (tokens : List Token) :
    Reading (Relationship × List Token) := do
  let (relationship, rest) ← details tokens
  let (direction, rest) ← closing since incoming rest
  return (relationship direction, rest)

/-- A relationship: a line or an arrow to the left, and the `relationshipTail`. -/
def relationship : List Token → Reading (Relationship × List Token)
  | .leftArrow :: rest => relationshipTail (.leftArrow :: rest) true rest
  | .dash :: rest => relationshipTail (.dash :: rest) false rest
  | tokens => reject (.expectedToken .dash) tokens

/-- A step of a path: a `relationship` and a `node`. -/
def hop (tokens : List Token) : Reading (Hop × List Token) := do
  let (relationship, rest) ← relationship tokens
  let (node, rest) ← node rest
  return (⟨relationship, node⟩, rest)

/-! ## Readers leave no more tokens than they take -/

/-- What is behind optional parts is not longer. -/
theorem length_of_optionalName (tokens : List Token) :
    (optionalName tokens).2.length ≤ tokens.length := by
  cases tokens with
  | nil => simp [optionalName]
  | cons token rest =>
      simp only [optionalName]
      split <;> simp

/-- What is behind items that are `commaSeparated` is shorter. -/
theorem length_of_commaSeparated {item : List Token → Reading (α × List Token)}
    {shrinks : ∀ {tokens a rest}, item tokens = .ok (a, rest) → rest.length < tokens.length}
    {tokens rest : List Token} {items : List α}
    (read : commaSeparated item shrinks tokens = .ok (items, rest)) :
    rest.length < tokens.length := by
  fun_induction commaSeparated item shrinks tokens generalizing items rest with
  | case1 => cases read
  | case2 => cases read
  | case3 tokens first behind one more last many ih =>
      cases read
      have := ih many
      have := shrinks one
      simp only [List.length_cons] at this
      omega
  | case4 tokens first behind last one => cases read; exact shrinks one

/-- What is behind a property map is not longer. -/
theorem length_of_properties {tokens rest : List Token} {found : Option PropertyMap}
    (read : properties tokens = .ok (found, rest)) : rest.length ≤ tokens.length := by
  unfold properties at read
  split at read
  · cases read; simp; omega
  · obtain ⟨⟨entries, afterEntries⟩, readEntries, read⟩ := bind_eq_ok.mp read
    obtain ⟨afterBrace, readBrace, read⟩ := bind_eq_ok.mp read
    cases read
    have := length_of_commaSeparated readEntries
    have := length_of_expect readBrace
    simp only [List.length_cons]
    omega
  · cases read; exact Nat.le_refl _

/-- What is behind labels is not longer. -/
theorem length_of_labels {tokens rest : List Token} {found : List String}
    (read : labels tokens = .ok (found, rest)) : rest.length ≤ tokens.length := by
  fun_induction labels tokens generalizing found rest with
  | case1 => cases read
  | case2 token tail label named ih =>
      obtain ⟨⟨more, behind⟩, readMore, read⟩ := bind_eq_ok.mp read
      cases read
      have := ih readMore
      simp only [List.length_cons]
      omega
  | case3 => cases read
  | case4 => cases read; exact Nat.le_refl _

/-- What is behind a node is shorter. -/
theorem length_of_node {tokens rest : List Token} {found : Node}
    (read : node tokens = .ok (found, rest)) : rest.length < tokens.length := by
  obtain ⟨opened, readOpen, read⟩ := bind_eq_ok.mp read
  obtain ⟨⟨some_labels, afterLabels⟩, readLabels, read⟩ := bind_eq_ok.mp read
  obtain ⟨⟨map, afterMap⟩, readMap, read⟩ := bind_eq_ok.mp read
  obtain ⟨closed, readClose, read⟩ := bind_eq_ok.mp read
  cases read
  have := length_of_expect readOpen
  have := length_of_optionalName opened
  have := length_of_labels readLabels
  have := length_of_properties readMap
  have := length_of_expect readClose
  omega

/-- What is behind further types is not longer. -/
theorem length_of_moreTypes {tokens rest : List Token} {found : List String}
    (read : moreTypes tokens = .ok (found, rest)) : rest.length ≤ tokens.length := by
  fun_induction moreTypes tokens generalizing found rest with
  | case1 => cases read
  | case2 => cases read
  | case3 token tail type named ih =>
      obtain ⟨⟨more, behind⟩, readMore, read⟩ := bind_eq_ok.mp read
      cases read
      have := ih readMore
      simp only [List.length_cons]
      omega
  | case4 => cases read
  | case5 token tail none_or_other no_colon type named ih =>
      obtain ⟨⟨more, behind⟩, readMore, read⟩ := bind_eq_ok.mp read
      cases read
      have := ih readMore
      simp only [List.length_cons]
      omega
  | case6 => cases read
  | case7 => cases read; exact Nat.le_refl _

/-- What is behind the types is not longer. -/
theorem length_of_types {tokens rest : List Token} {found : List String}
    (read : types tokens = .ok (found, rest)) : rest.length ≤ tokens.length := by
  unfold types at read
  split at read
  · obtain ⟨⟨first, afterFirst⟩, readFirst, read⟩ := bind_eq_ok.mp read
    obtain ⟨⟨more, afterMore⟩, readMore, read⟩ := bind_eq_ok.mp read
    cases read
    have := length_of_name readFirst
    have := length_of_moreTypes readMore
    simp only [List.length_cons]
    omega
  · cases read; exact Nat.le_refl _

/-- What is behind the details is not longer. -/
theorem length_of_details {tokens rest : List Token} {found : Direction → Relationship}
    (read : details tokens = .ok (found, rest)) : rest.length ≤ tokens.length := by
  unfold details at read
  split at read
  · next opened =>
      obtain ⟨⟨some_types, afterTypes⟩, readTypes, read⟩ := bind_eq_ok.mp read
      obtain ⟨⟨map, afterMap⟩, readMap, read⟩ := bind_eq_ok.mp read
      obtain ⟨closed, readClose, read⟩ := bind_eq_ok.mp read
      cases read
      have := length_of_optionalName opened
      have := length_of_types readTypes
      have := length_of_properties readMap
      have := length_of_expect readClose
      simp only [List.length_cons]
      omega
  · cases read; exact Nat.le_refl _

/-- What is behind the end of a relationship is shorter. -/
theorem length_of_closing {since tokens rest : List Token} {incoming : Bool} {found : Direction}
    (read : closing since incoming tokens = .ok (found, rest)) :
    rest.length < tokens.length := by
  unfold closing at read
  split at read
  · split at read <;> cases read; simp
  · cases read; simp
  · cases read

/-- What is behind a relationship is shorter. -/
theorem length_of_relationship {tokens rest : List Token} {found : Relationship}
    (read : relationship tokens = .ok (found, rest)) : rest.length < tokens.length := by
  have tail {since inside : List Token} {incoming : Bool}
      (read : relationshipTail since incoming inside = .ok (found, rest)) :
      rest.length < inside.length := by
    obtain ⟨⟨open_direction, afterDetails⟩, readDetails, read⟩ := bind_eq_ok.mp read
    obtain ⟨⟨direction, afterClosing⟩, readClosing, read⟩ := bind_eq_ok.mp read
    cases read
    have := length_of_details readDetails
    have := length_of_closing readClosing
    omega
  unfold relationship at read
  split at read
  · exact Nat.lt_succ_of_lt (tail read)
  · exact Nat.lt_succ_of_lt (tail read)
  · cases read

/-- What is behind a step is shorter. -/
theorem length_of_hop {tokens rest : List Token} {found : Hop}
    (read : hop tokens = .ok (found, rest)) : rest.length < tokens.length := by
  obtain ⟨⟨relation, afterRelation⟩, readRelation, read⟩ := bind_eq_ok.mp read
  obtain ⟨⟨target, afterTarget⟩, readTarget, read⟩ := bind_eq_ok.mp read
  cases read
  have := length_of_relationship readRelation
  have := length_of_node readTarget
  omega

/-! ## Paths and patterns -/

/-- Whether a relationship starts with the first token: a `dash` or a `leftArrow`. -/
def startsHop : List Token → Bool
  | .dash :: _ | .leftArrow :: _ => true
  | _ => false

/-- The steps of a path, as long as a relationship starts, `startsHop`. -/
def hops (tokens : List Token) : Reading (List Hop × List Token) :=
  if startsHop tokens then
    match _read : hop tokens with
    | .error rejection => .error rejection
    | .ok (first, rest) =>
        match hops rest with
        | .error rejection => .error rejection
        | .ok (more, rest) => .ok (first :: more, rest)
  else .ok ([], tokens)
termination_by tokens.length
decreasing_by exact length_of_hop _read

/-- What is behind the steps of a path is not longer. -/
theorem length_of_hops {tokens rest : List Token} {found : List Hop}
    (read : hops tokens = .ok (found, rest)) : rest.length ≤ tokens.length := by
  fun_induction hops tokens generalizing found rest with
  | case1 => cases read
  | case2 => cases read
  | case3 tokens starts first behind one more last many ih =>
      cases read
      have := ih many
      have := length_of_hop one
      omega
  | case4 => cases read; exact Nat.le_refl _

/-- A node followed by steps is a `chain`, and without steps it is a node alone. -/
def asElement (start : Node) : List Hop → PatternElement
  | [] => .node start
  | hop :: more => .chain ⟨start, hop :: more⟩

/-- An element of a pattern: a `node` and the `hops` behind it. -/
def element (tokens : List Token) : Reading (PatternElement × List Token) := do
  let (start, rest) ← node tokens
  let (hops, rest) ← hops rest
  return (asElement start hops, rest)

/-- What is behind an element is shorter. -/
theorem length_of_element {tokens rest : List Token} {found : PatternElement}
    (read : element tokens = .ok (found, rest)) : rest.length < tokens.length := by
  obtain ⟨⟨start, afterStart⟩, readStart, read⟩ := bind_eq_ok.mp read
  obtain ⟨⟨steps, afterSteps⟩, readSteps, read⟩ := bind_eq_ok.mp read
  cases read
  have := length_of_node readStart
  have := length_of_hops readSteps
  omega

/-- The pattern that a list of tokens is, from the first token to the last; what is left over is the
fault `trailing`. -/
def pattern (tokens : List Token) : Reading Pattern := do
  let (elements, rest) ← commaSeparated element length_of_element tokens
  if rest.isEmpty then return ⟨elements⟩ else reject .trailing rest

end Reading

end CypherQuery
