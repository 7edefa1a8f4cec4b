import CypherQuery.PatternText.Parse
import CypherQuery.Proofs.PatternText.Soundness

/-! # What is derived is read

A derivation is read back in front of any tokens that could not go on with it. Which tokens could
go on depends on the part: only a further step goes on with an element, only a colon with labels.
The lemmas follow the rules one by one, up to `pattern_of_derived`. Together with the opposite
direction, reading and deriving a pattern are one and the same (`reading_is_deriving`). -/

namespace CypherQuery

namespace Reading

variable {α : Type}

/-- An expected token is read by `expect`. -/
@[simp] theorem expect_cons (wanted : Token) (rest : List Token) :
    expect wanted (wanted :: rest) = .ok rest := by
  rw [expect, if_pos rfl]

/-- A token that gives a name is read as that name, whatever the `role`. -/
theorem name_cons {token : Token} {found : String} (named : token.name? = some found)
    (role : NameRole) (rest : List Token) : name role (token :: rest) = .ok (found, rest) := by
  rw [name, named]

/-- Tokens that derive a name that may be missing are read as such by `optionalName`, unless another
name follows. -/
theorem optionalName_of_derived {used : List Token} {found : Option String}
    (derived : Grammar.OptionalName used found) {rest : List Token}
    (stop : ∀ token ∈ rest.head?, token.name? = none) :
    optionalName (used ++ rest) = (found, rest) := by
  cases derived with
  | present named => rw [List.singleton_append, optionalName, named]
  | absent =>
      cases rest with
      | nil => rfl
      | cons token behind => rw [List.nil_append, optionalName, stop token rfl]

/-- Tokens that derive a value, `Grammar.Value`, are read as that value, whatever follows. -/
theorem value_of_derived {used : List Token} {found : Expression}
    (derived : Grammar.Value used found) (rest : List Token) :
    value (used ++ rest) = .ok (found, rest) := by
  cases derived with
  | word known =>
      rw [List.singleton_append, value]
      simp [known]
  | _ => rfl

/-- Tokens that derive an entry, `Grammar.Entry`, are read as that entry, whatever follows. -/
theorem entry_of_derived {used : List Token} {found : PropertyEntry}
    (derived : Grammar.Entry used found) (rest : List Token) :
    entry (used ++ rest) = .ok (found, rest) := by
  cases derived with
  | intro named isValue =>
      refine bind_eq_ok.mpr ⟨_, name_cons named _ _, ?_⟩
      refine bind_eq_ok.mpr ⟨_, expect_cons _ _, ?_⟩
      exact bind_eq_ok.mpr ⟨_, value_of_derived isValue rest, rfl⟩

/-- A last item is all that `commaSeparated` reads if no comma follows it. -/
theorem commaSeparated_one {item : List Token → Reading (α × List Token)}
    {shrinks : ∀ {tokens a rest}, item tokens = .ok (a, rest) → rest.length < tokens.length}
    {tokens rest : List Token} {a : α} (read : item tokens = .ok (a, rest))
    (stop : rest.head? ≠ some .comma) : commaSeparated item shrinks tokens = .ok ([a], rest) := by
  rw [commaSeparated]
  split
  · next failed => rw [read] at failed; cases failed
  · next one => rw [read] at one; cases one; exact absurd rfl stop
  · next one => rw [read] at one; cases one; rfl

/-- An item with a comma behind it is read by `commaSeparated` before the others. -/
theorem commaSeparated_more {item : List Token → Reading (α × List Token)}
    {shrinks : ∀ {tokens a rest}, item tokens = .ok (a, rest) → rest.length < tokens.length}
    {tokens rest behind : List Token} {a : α} {more : List α}
    (read : item tokens = .ok (a, .comma :: rest))
    (others : commaSeparated item shrinks rest = .ok (more, behind)) :
    commaSeparated item shrinks tokens = .ok (a :: more, behind) := by
  rw [commaSeparated]
  split
  · next failed => rw [read] at failed; cases failed
  · next one => rw [read] at one; cases one; rw [others]
  · next other one => rw [read] at one; cases one; exact absurd rfl (other _)

/-- Tokens that derive items with commas between them are read as those items, if each item is read
in front of a comma and in front of what follows them all: both are to be among what `Stops` it. -/
theorem commaSeparated_of_derived {item : List Token → Reading (α × List Token)}
    {shrinks : ∀ {tokens a rest}, item tokens = .ok (a, rest) → rest.length < tokens.length}
    {Item : List Token → α → Prop} (Stops : List Token → Prop)
    (comma : ∀ rest, Stops (.comma :: rest))
    (reads : ∀ {used a}, Item used a → ∀ {rest}, Stops rest → item (used ++ rest) = .ok (a, rest))
    {used : List Token} {items : List α} (derived : Grammar.CommaSeparated Item used items)
    {rest : List Token} (stop : rest.head? ≠ some .comma) (stops : Stops rest) :
    commaSeparated item shrinks (used ++ rest) = .ok (items, rest) := by
  -- The induction is on the derivation; `Stops` says what an item may be followed by, and a comma
  -- is always allowed.
  induction derived with
  | one isItem => exact commaSeparated_one (reads isItem stops) stop
  | more isItem others ih =>
      rw [List.append_assoc, List.cons_append]
      exact commaSeparated_more (reads isItem (comma _)) ih

/-- Tokens that derive entries do not start with `rightBrace`, the mark that closes a property
map. -/
theorem head?_entries_ne {used : List Token} {entries : List PropertyEntry}
    (derived : Grammar.CommaSeparated Grammar.Entry used entries) (rest : List Token) :
    (used ++ rest).head? ≠ some .rightBrace := by
  have first {used : List Token} {entry : PropertyEntry} (isEntry : Grammar.Entry used entry)
      (rest : List Token) : (used ++ rest).head? ≠ some .rightBrace := by
    cases isEntry with
    | intro named isValue =>
        intro closed
        cases closed
        cases named
  -- An entry starts with a name, and the mark that closes a property map is none.
  cases derived with
  | one isItem => exact first isItem rest
  | more isItem others =>
      rw [List.append_assoc]
      exact first isItem _

/-- Entries between braces are read as a property map by `properties`. -/
theorem properties_entries {tokens rest : List Token} {entries : List PropertyEntry}
    (nonempty : tokens.head? ≠ some .rightBrace)
    (read : commaSeparated entry length_of_entry tokens = .ok (entries, .rightBrace :: rest)) :
    properties (.leftBrace :: tokens) = .ok (some ⟨entries⟩, rest) := by
  unfold properties
  split
  · next same => cases same; exact absurd rfl nonempty
  · next same =>
      cases same
      refine bind_eq_ok.mpr ⟨_, read, ?_⟩
      exact bind_eq_ok.mpr ⟨_, expect_cons _ _, rfl⟩
  · next other => exact absurd rfl (other _)

/-- Tokens that derive a property map that may be missing, `Grammar.Properties`, are read as such,
unless a brace follows. -/
theorem properties_of_derived {used : List Token} {found : Option PropertyMap}
    (derived : Grammar.Properties used found) {rest : List Token}
    (stop : rest.head? ≠ some .leftBrace) : properties (used ++ rest) = .ok (found, rest) := by
  cases derived with
  | empty => rfl
  | absent =>
      rw [List.nil_append]
      unfold properties
      split
      · exact absurd rfl stop
      · exact absurd rfl stop
      · rfl
  -- Entries may be followed by anything: a value never looks at what is behind it.
  | @entries tokens entries areEntries =>
      have read : commaSeparated entry length_of_entry (tokens ++ .rightBrace :: rest)
          = .ok (entries, .rightBrace :: rest) :=
        commaSeparated_of_derived (fun _ => True) (fun _ => trivial)
          (fun isEntry _ _ => entry_of_derived isEntry _) areEntries (by simp) trivial
      rw [List.cons_append, List.append_assoc, List.singleton_append]
      exact properties_entries (head?_entries_ne areEntries _) read

/-- Tokens that derive labels, `Grammar.Labels`, are read as those labels, unless a colon
follows. -/
theorem labels_of_derived {used : List Token} {found : List String}
    (derived : Grammar.Labels used found) {rest : List Token} (stop : rest.head? ≠ some .colon) :
    labels (used ++ rest) = .ok (found, rest) := by
  induction derived with
  | none =>
      rw [List.nil_append]
      unfold labels
      split
      · exact absurd rfl stop
      · exact absurd rfl stop
      · rfl
  | more named others ih =>
      rw [List.cons_append, List.cons_append, labels, named]
      exact bind_eq_ok.mpr ⟨_, ih, rfl⟩

/-- Tokens that derive further types, `Grammar.MoreTypes`, are read as those types, unless a bar
follows. -/
theorem moreTypes_of_derived {used : List Token} {found : List String}
    (derived : Grammar.MoreTypes used found) {rest : List Token}
    (stop : rest.head? ≠ some .pipe) : moreTypes (used ++ rest) = .ok (found, rest) := by
  induction derived with
  | none =>
      rw [List.nil_append]
      unfold moreTypes
      split
      case h_5 => rfl
      all_goals exact absurd rfl stop
  | @bar token type behind types named others ih =>
      -- Otherwise the colon would be taken for one behind a bar.
      have noColon : token ≠ .colon := by
        intro colon
        rw [colon] at named
        cases named
      rw [List.cons_append, List.cons_append, moreTypes, named]
      · exact bind_eq_ok.mpr ⟨_, ih, rfl⟩
      · intro colon
        exact absurd colon noColon
      · intro next behind colon
        exact absurd colon noColon
  | barColon named others ih =>
      rw [List.cons_append, List.cons_append, List.cons_append, moreTypes, named]
      exact bind_eq_ok.mpr ⟨_, ih, rfl⟩

/-- Tokens that derive types that may be missing, `Grammar.Types`, are read as such, unless a colon
or a bar follows. -/
theorem types_of_derived {used : List Token} {found : List String}
    (derived : Grammar.Types used found) {rest : List Token}
    (noColon : rest.head? ≠ some .colon) (noPipe : rest.head? ≠ some .pipe) :
    types (used ++ rest) = .ok (found, rest) := by
  cases derived with
  | none =>
      rw [List.nil_append]
      unfold types
      split
      · exact absurd rfl noColon
      · rfl
  | some named others =>
      refine bind_eq_ok.mpr ⟨_, name_cons named _ _, ?_⟩
      exact bind_eq_ok.mpr ⟨_, moreTypes_of_derived others noPipe, rfl⟩

/-- In front of a property map that may be missing stands a `leftBrace`, or what follows the map. -/
theorem mem_head?_properties {used rest : List Token} {found : Option PropertyMap}
    (derived : Grammar.Properties used found) {token : Token}
    (first : token ∈ (used ++ rest).head?) : token = .leftBrace ∨ token ∈ rest.head? := by
  cases derived with
  | absent => exact .inr first
  | empty => cases first; exact .inl rfl
  | entries areEntries => cases first; exact .inl rfl

/-- In front of a property map that may be missing and the mark `closing` stands a `leftBrace` or
the mark. -/
theorem eq_head?_closed {used rest : List Token} {found : Option PropertyMap} {closing : Token}
    (derived : Grammar.Properties used found) {token : Token}
    (first : token ∈ (used ++ closing :: rest).head?) : token = .leftBrace ∨ token = closing := by
  refine (mem_head?_properties derived first).imp_right fun last => ?_
  cases last
  rfl

/-- In front of labels stands a `colon`, or what follows the labels. -/
theorem mem_head?_labels {used rest : List Token} {found : List String}
    (derived : Grammar.Labels used found) {token : Token}
    (first : token ∈ (used ++ rest).head?) : token = .colon ∨ token ∈ rest.head? := by
  cases derived with
  | none => exact .inr first
  | more named others => cases first; exact .inl rfl

/-- In front of types stands a `colon`, or what follows the types. -/
theorem mem_head?_types {used rest : List Token} {found : List String}
    (derived : Grammar.Types used found) {token : Token}
    (first : token ∈ (used ++ rest).head?) : token = .colon ∨ token ∈ rest.head? := by
  cases derived with
  | none => exact .inr first
  | some named others => cases first; exact .inl rfl

/-- Tokens that derive a node, `Grammar.Node`, are read as that node, whatever follows. -/
theorem node_of_derived {used : List Token} {found : Node} (derived : Grammar.Node used found)
    (rest : List Token) : node (used ++ rest) = .ok (found, rest) := by
  cases derived with
  | @intro nameTokens labelTokens mapTokens name someLabels map isName areLabels areProperties =>
      -- A part that may be missing is read rightly only if what follows it cannot be taken for
      -- the part.
      have afterLabels : ∀ token ∈ (mapTokens ++ .rightParen :: rest).head?,
          token = .leftBrace ∨ token = .rightParen :=
        fun token first => eq_head?_closed areProperties first
      have afterName : ∀ token ∈ (labelTokens ++ (mapTokens ++ .rightParen :: rest)).head?,
          token.name? = none := by
        intro token first
        rcases mem_head?_labels areLabels first with rfl | first
        · rfl
        · obtain rfl | rfl := afterLabels token first <;> rfl
      have readName :
          optionalName (nameTokens ++ (labelTokens ++ (mapTokens ++ .rightParen :: rest)))
          = (name, labelTokens ++ (mapTokens ++ .rightParen :: rest)) :=
        optionalName_of_derived isName afterName
      have readLabels : labels (labelTokens ++ (mapTokens ++ .rightParen :: rest))
          = .ok (someLabels, mapTokens ++ .rightParen :: rest) :=
        labels_of_derived areLabels fun colon => by
          obtain same | same := afterLabels _ colon <;> cases same
      have readMap :
          properties (mapTokens ++ .rightParen :: rest) = .ok (map, .rightParen :: rest) :=
        properties_of_derived areProperties (by simp)
      simp only [List.cons_append, List.append_assoc, List.nil_append]
      refine bind_eq_ok.mpr ⟨_, expect_cons _ _, ?_⟩
      rw [readName]
      refine bind_eq_ok.mpr ⟨_, readLabels, ?_⟩
      refine bind_eq_ok.mpr ⟨_, readMap, ?_⟩
      exact bind_eq_ok.mpr ⟨_, expect_cons _ _, rfl⟩

/-- Tokens that derive the details of a relationship, `Grammar.Details`, are read as those details,
unless a bracket follows. -/
theorem details_of_derived {used : List Token} {found : Direction → Relationship}
    (derived : Grammar.Details used found) {rest : List Token}
    (stop : rest.head? ≠ some .leftBracket) : details (used ++ rest) = .ok (found, rest) := by
  cases derived with
  | absent =>
      rw [List.nil_append]
      unfold details
      split
      · exact absurd rfl stop
      · rfl
  | @present nameTokens typeTokens mapTokens name someTypes map isName areTypes areProperties =>
      have afterTypes : ∀ token ∈ (mapTokens ++ .rightBracket :: rest).head?,
          token = .leftBrace ∨ token = .rightBracket :=
        fun token first => eq_head?_closed areProperties first
      have afterName : ∀ token ∈ (typeTokens ++ (mapTokens ++ .rightBracket :: rest)).head?,
          token.name? = none := by
        intro token first
        rcases mem_head?_types areTypes first with rfl | first
        · rfl
        · obtain rfl | rfl := afterTypes token first <;> rfl
      have readName :
          optionalName (nameTokens ++ (typeTokens ++ (mapTokens ++ .rightBracket :: rest)))
            = (name, typeTokens ++ (mapTokens ++ .rightBracket :: rest)) :=
        optionalName_of_derived isName afterName
      have readTypes : types (typeTokens ++ (mapTokens ++ .rightBracket :: rest))
          = .ok (someTypes, mapTokens ++ .rightBracket :: rest) := by
        refine types_of_derived areTypes (fun colon => ?_) (fun pipe => ?_)
        · obtain same | same := afterTypes _ colon <;> cases same
        · obtain same | same := afterTypes _ pipe <;> cases same
      have readMap :
          properties (mapTokens ++ .rightBracket :: rest) = .ok (map, .rightBracket :: rest) :=
        properties_of_derived areProperties (by simp)
      simp only [List.cons_append, List.append_assoc, List.nil_append]
      rw [details, readName]
      refine bind_eq_ok.mpr ⟨_, readTypes, ?_⟩
      refine bind_eq_ok.mpr ⟨_, readMap, ?_⟩
      exact bind_eq_ok.mpr ⟨_, expect_cons _ _, rfl⟩

/-- Tokens that derive a relationship, `Grammar.Relationship`, are read as that relationship. -/
theorem relationship_of_derived {used : List Token} {found : Relationship}
    (derived : Grammar.Relationship used found) (rest : List Token) :
    relationship (used ++ rest) = .ok (found, rest) := by
  cases derived with
  | @intro first last direction tokens openDirection marks areDetails =>
      -- Whatever mark is last, it opens no brackets, and so missing details are not read.
      have readDetails (noBracket : last ≠ .leftBracket) :
          details (tokens ++ last :: rest) = .ok (openDirection, last :: rest) :=
        details_of_derived areDetails fun same => noBracket (Option.some.inj same)
      rw [List.cons_append, List.append_assoc, List.singleton_append]
      cases marks with
      | outgoing =>
          refine bind_eq_ok.mpr ⟨_, readDetails (by simp), ?_⟩
          exact bind_eq_ok.mpr ⟨_, rfl, rfl⟩
      | incoming =>
          refine bind_eq_ok.mpr ⟨_, readDetails (by simp), ?_⟩
          exact bind_eq_ok.mpr ⟨_, rfl, rfl⟩
      | undirected =>
          refine bind_eq_ok.mpr ⟨_, readDetails (by simp), ?_⟩
          exact bind_eq_ok.mpr ⟨_, rfl, rfl⟩

/-- Tokens that derive a relationship start a step of a path, `startsHop`. -/
theorem startsHop_of_derived {used : List Token} {found : Relationship}
    (derived : Grammar.Relationship used found) (rest : List Token) :
    startsHop (used ++ rest) = true := by
  cases derived with
  | intro marks areDetails => cases marks <;> rfl

/-- Tokens that derive the steps of a path, `Grammar.Hops`, are read as those steps, unless a
further one starts. -/
theorem hops_of_derived {used : List Token} {found : List Hop} (derived : Grammar.Hops used found)
    {rest : List Token} (stop : startsHop rest = false) :
    hops (used ++ rest) = .ok (found, rest) := by
  induction derived with
  | none => rw [List.nil_append, hops, if_neg (by simp [stop])]
  | @more relationTokens nodeTokens others relation target steps isRelationship isNode areHops ih =>
      have read : hop (relationTokens ++ (nodeTokens ++ (others ++ rest)))
          = .ok (⟨relation, target⟩, others ++ rest) := by
        refine bind_eq_ok.mpr ⟨_, relationship_of_derived isRelationship _, ?_⟩
        exact bind_eq_ok.mpr ⟨_, node_of_derived isNode _, rfl⟩
      rw [List.append_assoc, List.append_assoc, hops,
        if_pos (startsHop_of_derived isRelationship _)]
      -- The reader runs one step and looks at the outcome; the outcome is known from `read`.
      split
      · next failed => rw [read] at failed; cases failed
      · next one => rw [read] at one; cases one; rw [ih]

/-- Tokens that derive an element, `Grammar.Element`, are read as that element, unless a further
step starts. -/
theorem element_of_derived {used : List Token} {found : PatternElement}
    (derived : Grammar.Element used found) {rest : List Token} (stop : startsHop rest = false) :
    element (used ++ rest) = .ok (found, rest) := by
  cases derived with
  | node isNode =>
      refine bind_eq_ok.mpr ⟨_, node_of_derived isNode rest, ?_⟩
      exact bind_eq_ok.mpr ⟨_, hops_of_derived .none stop, rfl⟩
  | chain isNode areHops =>
      rw [List.append_assoc]
      refine bind_eq_ok.mpr ⟨_, node_of_derived isNode _, ?_⟩
      exact bind_eq_ok.mpr ⟨_, hops_of_derived areHops stop, rfl⟩

/-- Tokens that derive a pattern, `Grammar.Pattern`, are read as that pattern. -/
theorem pattern_of_derived {tokens : List Token} {found : Pattern}
    (derived : Grammar.Pattern tokens found) : pattern tokens = .ok found := by
  cases derived with
  | @intro elements areElements =>
      -- Nothing follows the last element, and so the list is read in front of no tokens.
      have read : commaSeparated element length_of_element (tokens ++ []) = .ok (elements, []) :=
        commaSeparated_of_derived (fun rest => startsHop rest = false) (fun _ => rfl)
          (fun isElement _ stop => element_of_derived isElement stop) areElements (by simp) rfl
      rw [List.append_nil] at read
      exact bind_eq_ok.mpr ⟨_, read, rfl⟩

/-- Reading a pattern, `pattern tokens = .ok found`, and deriving it are the same. -/
theorem pattern_eq_ok_iff {tokens : List Token} {found : Pattern} :
    pattern tokens = .ok found ↔ Grammar.Pattern tokens found :=
  ⟨pattern_derives, pattern_of_derived⟩

end Reading

/-- No tokens derive two patterns, since `pattern` is a function. -/
theorem Grammar.eq_of_derived {tokens : List Token} {first second : CypherQuery.Pattern}
    (one : Grammar.Pattern tokens first) (other : Grammar.Pattern tokens second) :
    first = second := by
  have same := (Reading.pattern_of_derived one).symm.trans (Reading.pattern_of_derived other)
  exact Except.ok.inj same

namespace Pattern

/-- A text is parsed as a pattern if it `isClean` and its tokens, of which there are some, derive
the pattern. -/
theorem parse_eq_ok_iff {source : String} {found : Pattern} :
    parse source = .ok found ↔
      (scan source).isClean = true ∧ (scan source).tokens ≠ [] ∧
        Grammar.Pattern ((scan source).tokens.map Located.value) found := by
  rw [← Reading.pattern_eq_ok_iff, Scan.isClean, List.isEmpty_iff]
  unfold parse
  dsimp only
  split
  · next faulty => simp [faulty]
  · next clean none => simp [clean, none]
  · next clean nonempty =>
      have nonempty : (scan source).tokens ≠ [] := nonempty
      split
      · next read => simp [clean, nonempty, read]
      · next failed => simp [clean, failed]

/-- Tokens are read as a pattern, by `Reading.pattern`, exactly when they derive it by
`Grammar.Pattern`; no tokens derive two patterns; and a text is parsed as a pattern exactly when it
scans without faults into at least one token and its tokens derive the pattern. -/
theorem reading_is_deriving :
    (∀ (tokens : List Token) (found : Pattern),
      Reading.pattern tokens = .ok found ↔ Grammar.Pattern tokens found) ∧
    (∀ (tokens : List Token) (first second : Pattern),
      Grammar.Pattern tokens first → Grammar.Pattern tokens second → first = second) ∧
    ∀ (source : String) (found : Pattern),
      parse source = .ok found ↔
        (scan source).isClean = true ∧ (scan source).tokens ≠ [] ∧
          Grammar.Pattern ((scan source).tokens.map Located.value) found :=
  ⟨fun _ _ => Reading.pattern_eq_ok_iff, fun _ _ _ => Grammar.eq_of_derived,
    fun _ _ => parse_eq_ok_iff⟩

end Pattern

end CypherQuery
