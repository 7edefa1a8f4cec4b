import CypherQuery.PatternText.Grammar
import CypherQuery.Proofs.Render.Spelling
import CypherQuery.Proofs.Token.Locating

/-! # Patterns that can be read

Which patterns have a text that is pattern text again, and that the pieces of such a pattern are
free of faults and derive the pattern (`derives_pattern`). Only the property values (`IsReadable`)
and the shape matter: a name is a name whether it is quoted or not. -/

namespace CypherQuery

/-! ## Property values -/

/-- The values in a property map. -/
def PropertyMap.values (map : PropertyMap) : List Expression :=
  map.entries.map PropertyEntry.value

/-- The property values of a node. -/
def Node.values (n : Node) : List Expression :=
  n.properties.elim [] PropertyMap.values

/-- The property values of a relationship. -/
def Relationship.values (r : Relationship) : List Expression :=
  r.properties.elim [] PropertyMap.values

/-- The property values of a step: `values` of its relationship and of its node. -/
def Hop.values (hop : Hop) : List Expression :=
  hop.relationship.values ++ hop.node.values

/-- The property values of an element: `values` of its nodes and relationships. -/
def PatternElement.values : PatternElement → List Expression
  | .node single => single.values
  | .chain path => path.start.values ++ path.hops.flatMap Hop.values

/-- The property values of a pattern, from left to right: `values` of its elements. -/
def Pattern.values (p : Pattern) : List Expression :=
  p.elements.flatMap PatternElement.values

/-- Whether an element, if it is a `chain`, has a step: without one its text is that of a node. -/
def PatternElement.HasSteps : PatternElement → Prop
  | .node _ => True
  | .chain path => path.hops ≠ []

/-- Whether the text of a literal is read as the literal: an integer other than the least one, a
number of moderate size (`Binary64.IsModerate`), which needs no exponent, or any other literal. -/
def Literal.IsReadable : Literal → Prop
  | .null | .boolean _ | .string _ => True
  | .integer value => value ≠ Int64.minValue
  | .float value => value.IsModerate

/-- Whether the text of an expression is read as that property value: a parameter named by an
identifier, or a literal that `IsReadable`. -/
def Expression.IsReadable : Expression → Prop
  | .literal value => value.IsReadable
  | .parameter own => Name.isIdentifier own = true
  | _ => False

/-- Whether an expression is a parameter of any name, or a literal that is no number with an
exponent (`IsModerate`); least integers are among them. -/
def Expression.IsPlain : Expression → Prop
  | .literal (.float value) => value.IsModerate
  | .literal _ | .parameter _ => True
  | _ => False

/-- A value that is read as itself, `IsReadable`, is plain. -/
theorem Expression.IsReadable.isPlain {value : Expression} (readable : value.IsReadable) :
    value.IsPlain := by
  cases value with
  | literal value =>
      cases value with
      | float value => exact readable
      | _ => trivial
  | parameter own => trivial
  | _ => cases readable

/-- Whether the text of a literal is read as the literal can be computed. -/
instance : DecidablePred Literal.IsReadable
  | .null | .boolean _ | .string _ => .isTrue trivial
  | .integer value => inferInstanceAs (Decidable (value ≠ Int64.minValue))
  | .float value => inferInstanceAs (Decidable value.IsModerate)

/-- Whether the text of an expression is read as that value can be computed. -/
instance : DecidablePred Expression.IsReadable
  | .literal value => inferInstanceAs (Decidable value.IsReadable)
  | .parameter own => inferInstanceAs (Decidable (Name.isIdentifier own = true))
  | .variable _ | .property _ _ | .call _ _ _ | .asterisk | .comparison _ _ _ | .logical _ _ _
  | .unary _ _ | .nested _ | .aliased _ _ => .isFalse id

/-- Whether an expression is a parameter or such a literal can be computed. -/
instance : DecidablePred Expression.IsPlain
  | .literal (.float value) => inferInstanceAs (Decidable value.IsModerate)
  | .literal .null | .literal (.boolean _) | .literal (.integer _) | .literal (.string _)
  | .parameter _ => .isTrue trivial
  | .variable _ | .property _ _ | .call _ _ _ | .asterisk | .comparison _ _ _ | .logical _ _ _
  | .unary _ _ | .nested _ | .aliased _ _ => .isFalse id

/-- Whether an element has a step if it is a path can be computed. -/
instance : DecidablePred PatternElement.HasSteps
  | .node _ => .isTrue trivial
  | .chain path => decidable_of_iff (path.hops.isEmpty = false) (by
      rw [Bool.eq_false_iff]
      exact not_congr List.isEmpty_iff)

/-! ## Deriving -/

/-- Pieces without a fault whose tokens derive something by `Rule`. -/
structure Derives {α : Type} (Rule : List Token → α → Prop) (parts : List Piece) (found : α) :
    Prop where
  /-- None of the pieces is a fault. -/
  clean : ∀ part ∈ parts, part.isFault = false
  /-- The tokens derive it. -/
  derived : Rule (tokensOf parts) found

/-- An integer is the sign and the digits that are written for it: `toInt` and `natAbs` lose
nothing. -/
theorem eq_ofNat_natAbs (n : Int64) :
    n = if n.toInt < 0 then -Int64.ofNat n.toInt.natAbs else Int64.ofNat n.toInt.natAbs := by
  have whole := Int64.ofInt_toInt n
  by_cases negative : n.toInt < 0
  · have sign : n.toInt = -(n.toInt.natAbs : Int) := by omega
    rw [if_pos negative, ← Int64.ofInt_eq_ofNat, ← Int64.ofInt_neg, ← sign, whole]
  · have sign : n.toInt = (n.toInt.natAbs : Int) := by omega
    rw [if_neg negative, ← Int64.ofInt_eq_ofNat, ← sign, whole]

/-- A number is its sign and its absolute value, `x.abs`. -/
theorem eq_abs (x : Binary64) : x = if x.negative then x.abs.negate else x.abs := by
  obtain ⟨negative, magnitude⟩ := x
  cases negative <;> rfl

/-- An integer other than the least one derives itself from its `signedPieces`. -/
theorem derives_integer {n : Int64} (other : n ≠ Int64.minValue) :
    Derives Grammar.Value (signedPieces n.toInt) (.literal (.integer n)) := by
  have high := n.toInt_lt
  have low := n.le_toInt
  have least : n.toInt ≠ Int64.minValue.toInt := fun same => other (Int64.toInt.inj same)
  have bound : Int64.maxValue.toNatClampNeg = 9223372036854775807 := by decide
  have minimum : Int64.minValue.toInt = -9223372036854775808 := by decide
  have whole := congrArg (fun value => Expression.literal (.integer value)) (eq_ofNat_natAbs n)
  -- Only the absolute value of the least integer does not fit; its sign would come too late.
  rw [signedPieces, integer_digits (by omega)]
  by_cases negative : n.toInt < 0
  · rw [if_pos negative] at whole ⊢
    rw [whole]
    exact ⟨List.forall_mem_cons.mpr ⟨rfl, List.forall_mem_singleton.mpr rfl⟩,
      .negativeInteger _⟩
  · rw [if_neg negative] at whole ⊢
    rw [whole]
    exact ⟨List.forall_mem_singleton.mpr rfl, .integer _⟩

/-- A number of moderate size, `IsModerate`, derives itself from its `textPieces`. -/
theorem derives_float {x : Binary64} (moderate : x.IsModerate) :
    Derives Grammar.Value x.textPieces (.literal (.float x)) := by
  have whole := congrArg (fun value => Expression.literal (.float value)) (eq_abs x)
  rw [Binary64.textPieces, if_pos (x.isPositional_iff.mpr moderate)]
  cases negative : x.negative with
  | true =>
      rw [negative, if_pos rfl] at whole
      rw [whole]
      exact ⟨List.forall_mem_cons.mpr ⟨rfl, List.forall_mem_singleton.mpr rfl⟩,
        .negativeFloat _⟩
  | false =>
      rw [negative, if_neg Bool.false_ne_true] at whole
      rw [whole]
      exact ⟨List.forall_mem_singleton.mpr rfl, .float _⟩

section Deriving

variable (config : RenderConfig)

open Spelling Scan

/-- A value that `IsReadable` derives itself. -/
theorem derives_value {value : Expression} (readable : value.IsReadable) :
    Derives Grammar.Value (expression config value) value := by
  have one {part : Piece} (clean : part.isFault = false) :
      ∀ other ∈ [part], other.isFault = false :=
    List.forall_mem_singleton.mpr clean
  cases value with
  | literal value =>
      cases value with
      | null => exact ⟨one rfl, .word (by decide)⟩
      | boolean value =>
          cases value with
          | true => exact ⟨one rfl, .word (by decide)⟩
          | false => exact ⟨one rfl, .word (by decide)⟩
      | integer value => exact derives_integer readable
      | float value => exact derives_float readable
      | string text => exact ⟨one rfl, .string text⟩
  | parameter own =>
      have identifier : Name.isIdentifier own = true := readable
      rw [expression, Spelling.parameter, if_pos identifier]
      exact ⟨one rfl, .parameter own⟩
  | _ => cases readable

/-- The piece of a `name` is a token that names it. -/
theorem name?_of_name (own : String) :
    ∃ token text, name config own = .token token text ∧ token.name? = some own := by
  rw [name]
  split
  · exact ⟨_, _, rfl, rfl⟩
  · exact ⟨_, _, rfl, rfl⟩

/-- An entry with a value that `IsReadable` derives itself. -/
theorem derives_entry {e : PropertyEntry} (readable : e.value.IsReadable) :
    Derives Grammar.Entry (entry config e) e := by
  obtain ⟨clean, derived⟩ := derives_value config readable
  obtain ⟨token, text, same, named⟩ := name?_of_name config e.key
  rw [entry, same]
  constructor
  · exact List.forall_mem_cons.mpr ⟨rfl, List.forall_mem_cons.mpr ⟨rfl,
      List.forall_mem_cons.mpr ⟨rfl, clean⟩⟩⟩
  · exact .intro named derived

/-- Items that derive themselves derive their list, by `Grammar.CommaSeparated`. -/
theorem derives_separated {α : Type} {Rule : List Token → α → Prop} {spell : α → List Piece}
    {items : List α} (each : ∀ item ∈ items, Derives Rule (spell item) item)
    (nonempty : items ≠ []) :
    Derives (Grammar.CommaSeparated Rule) (separated comma spell items) items := by
  induction items with
  | nil => exact absurd rfl nonempty
  | cons item rest ih =>
      obtain ⟨first, others⟩ := List.forall_mem_cons.mp each
      -- The separator stands only in front of a further item.
      cases rest with
      | nil => exact ⟨first.clean, .one first.derived⟩
      | cons next rest =>
          have later := ih others (List.cons_ne_nil next rest)
          constructor
          · refine List.forall_mem_append.mpr ⟨first.clean, ?_⟩
            exact List.forall_mem_cons.mpr ⟨rfl, List.forall_mem_cons.mpr ⟨rfl, later.clean⟩⟩
          · rw [separated, tokensOf_append]
            exact .more first.derived later.derived

/-- A property map that may be missing derives itself, `Grammar.Properties`, if its values are
readable. -/
theorem derives_properties {map : Option PropertyMap} (follows : Bool)
    (readable : ∀ value ∈ map.elim [] PropertyMap.values, value.IsReadable) :
    Derives Grammar.Properties (Spelling.optional (properties config follows) map) map := by
  cases map with
  | none => exact ⟨List.forall_mem_nil _, .absent⟩
  | some map =>
      obtain ⟨entries⟩ := map
      -- The blank in front, which depends on what is before the map, is no token.
      have blank : ∀ part ∈ (if follows then [] else [space]), part.isFault = false := by
        cases follows with
        | true => exact List.forall_mem_nil _
        | false => exact List.forall_mem_singleton.mpr rfl
      have tokens (parts : List Piece) :
          tokensOf ((if follows then [] else [space]) ++ parts) = tokensOf parts := by
        cases follows <;> rfl
      have closing : ∀ part ∈ [mark .rightBrace '\x7d'], part.isFault = false :=
        List.forall_mem_singleton.mpr rfl
      -- The grammar has a rule of its own for a property map without entries.
      by_cases empty : entries = []
      · subst empty
        constructor
        · exact List.forall_mem_append.mpr ⟨blank, List.forall_mem_cons.mpr ⟨rfl, closing⟩⟩
        · rw [Spelling.optional, properties, tokens]
          exact .empty
      · have list := derives_separated (fun e member => derives_entry config
          (readable e.value (List.mem_map_of_mem member))) empty
        constructor
        · exact List.forall_mem_append.mpr ⟨blank, List.forall_mem_cons.mpr ⟨rfl,
            List.forall_mem_append.mpr ⟨list.clean, closing⟩⟩⟩
        · rw [Spelling.optional, properties, tokens]
          show Grammar.Properties (.leftBrace :: tokensOf (_ ++ [mark .rightBrace '\x7d'])) _
          rw [tokensOf_append]
          exact .entries list.derived

/-- A name that may be missing derives itself, `Grammar.OptionalName`. -/
theorem derives_optionalName (own : Option String) :
    Derives Grammar.OptionalName (Spelling.optional (fun own => [name config own]) own) own := by
  cases own with
  | none => exact ⟨List.forall_mem_nil _, .absent⟩
  | some own =>
      obtain ⟨token, text, same, named⟩ := name?_of_name config own
      rw [Spelling.optional, same]
      exact ⟨List.forall_mem_singleton.mpr rfl, .present named⟩

/-- Names behind marks derive themselves if the `Rule` goes on behind each mark and name. -/
theorem derives_marked {Rule : List Token → List String → Prop} {token : Token} {c : Char}
    (none : Rule [] [])
    (more : ∀ {named own rest names}, named.name? = some own → Rule rest names →
      Rule (token :: named :: rest) (own :: names))
    (names : List String) :
    Derives Rule (marked config (mark token c) (mark token c) names) names := by
  induction names with
  | nil => exact ⟨List.forall_mem_nil _, none⟩
  | cons own rest ih =>
      obtain ⟨found, text, same, named⟩ := name?_of_name config own
      rw [marked, same]
      exact ⟨List.forall_mem_cons.mpr ⟨rfl, List.forall_mem_cons.mpr ⟨rfl, ih.clean⟩⟩,
        more named ih.derived⟩

/-- Labels derive themselves, by `Grammar.Labels`. -/
theorem derives_labels (labels : List String) :
    Derives Grammar.Labels (marked config (mark .colon ':') (mark .colon ':') labels) labels :=
  derives_marked config .none .more labels

/-- Types derive themselves, by `Grammar.Types`. -/
theorem derives_types (types : List String) :
    Derives Grammar.Types (marked config (mark .colon ':') (mark .pipe '|') types) types := by
  cases types with
  | nil => exact ⟨List.forall_mem_nil _, .none⟩
  | cons type rest =>
      obtain ⟨token, text, same, named⟩ := name?_of_name config type
      -- Only the first type stands behind a colon; the others stand behind bars.
      have others :
          Derives Grammar.MoreTypes (marked config (mark .pipe '|') (mark .pipe '|') rest) rest :=
        derives_marked config .none .bar rest
      rw [marked, same]
      exact ⟨List.forall_mem_cons.mpr ⟨rfl, List.forall_mem_cons.mpr ⟨rfl, others.clean⟩⟩,
        .some named others.derived⟩

/-- A node whose values are all `IsReadable` derives itself, `Grammar.Node`. -/
theorem derives_node {n : Node} (readable : ∀ value ∈ n.values, value.IsReadable) :
    Derives Grammar.Node (node config n) n := by
  have own := derives_optionalName config n.name
  have labels := derives_labels config n.labels
  have map := derives_properties config (n.name.isNone && n.labels.isEmpty) readable
  constructor
  · refine List.forall_mem_cons.mpr ⟨rfl, ?_⟩
    simp only [List.forall_mem_append]
    exact ⟨own.clean, labels.clean, map.clean, List.forall_mem_singleton.mpr rfl⟩
  · show Grammar.Node (.leftParen :: tokensOf _) n
    rw [tokensOf_append, tokensOf_append, tokensOf_append]
    exact .intro own.derived labels.derived map.derived

/-- A relationship whose values are all `IsReadable` derives itself, `Grammar.Relationship`. -/
theorem derives_relationship {r : Relationship} (readable : ∀ value ∈ r.values, value.IsReadable) :
    Derives Grammar.Relationship (relationship config r) r := by
  -- The direction decides both marks, the same way for the text and for the grammar.
  obtain ⟨first, last, marks, opens, closes⟩ : ∃ first last,
      Grammar.Marks first last r.direction ∧
        (∃ text, opening r.direction = .token first text) ∧
        ∃ text, closing r.direction = .token last text := by
    cases r.direction with
    | outgoing => exact ⟨_, _, .outgoing, ⟨_, rfl⟩, _, rfl⟩
    | incoming => exact ⟨_, _, .incoming, ⟨_, rfl⟩, _, rfl⟩
    | undirected => exact ⟨_, _, .undirected, ⟨_, rfl⟩, _, rfl⟩
  obtain ⟨firstText, opens⟩ := opens
  obtain ⟨lastText, closes⟩ := closes
  have asked : Derives Grammar.Details (if r.isBare then [] else details config r)
      (Relationship.mk r.name r.types r.properties) := by
    by_cases bare : r.isBare = true
    · rw [if_pos bare]
      obtain ⟨noName, noTypes, noMap⟩ := Relationship.isBare_iff.mp bare
      rw [noName, noTypes, noMap]
      exact ⟨List.forall_mem_nil _, .absent⟩
    · rw [if_neg bare]
      have own := derives_optionalName config r.name
      have types := derives_types config r.types
      have map := derives_properties config (r.name.isNone && r.types.isEmpty) readable
      constructor
      · refine List.forall_mem_cons.mpr ⟨rfl, ?_⟩
        simp only [List.forall_mem_append]
        exact ⟨own.clean, types.clean, map.clean, List.forall_mem_singleton.mpr rfl⟩
      · show Grammar.Details (.leftBracket :: tokensOf _) _
        rw [tokensOf_append, tokensOf_append, tokensOf_append]
        exact .present own.derived types.derived map.derived
  rw [relationship, opens, closes]
  constructor
  · exact List.forall_mem_cons.mpr ⟨rfl, List.forall_mem_append.mpr ⟨asked.clean,
      List.forall_mem_singleton.mpr rfl⟩⟩
  · show Grammar.Relationship (first :: tokensOf _) r
    rw [tokensOf_append]
    exact .intro marks asked.derived

/-- Steps whose values are all `IsReadable` derive themselves, `Grammar.Hops`. -/
theorem derives_hops {steps : List Hop}
    (readable : ∀ value ∈ steps.flatMap Hop.values, value.IsReadable) :
    Derives Grammar.Hops (hops config steps) steps := by
  induction steps with
  | nil => exact ⟨List.forall_mem_nil _, .none⟩
  | cons hop rest ih =>
      rw [List.flatMap_cons, List.forall_mem_append] at readable
      obtain ⟨relationValues, nodeValues⟩ := List.forall_mem_append.mp readable.1
      have relation := derives_relationship config relationValues
      have target := derives_node config nodeValues
      have others := ih readable.2
      constructor
      · exact List.forall_mem_append.mpr ⟨relation.clean,
          List.forall_mem_append.mpr ⟨target.clean, others.clean⟩⟩
      · rw [hops, tokensOf_append, tokensOf_append]
        exact .more relation.derived target.derived others.derived

/-- An element with readable values derives itself, if it `HasSteps`. -/
theorem derives_element {e : PatternElement} (steps : e.HasSteps)
    (readable : ∀ value ∈ e.values, value.IsReadable) :
    Derives Grammar.Element (element config e) e := by
  cases e with
  | node single =>
      have whole := derives_node config readable
      exact ⟨whole.clean, .node whole.derived⟩
  | chain path =>
      obtain ⟨start, path⟩ := path
      obtain ⟨startValues, stepValues⟩ := List.forall_mem_append.mp readable
      have first := derives_node config startValues
      have others := derives_hops config stepValues
      -- Without a step the text would be that of a single node.
      obtain ⟨hop, rest, rfl⟩ := List.exists_cons_of_ne_nil (show path ≠ [] from steps)
      constructor
      · exact List.forall_mem_append.mpr ⟨first.clean, others.clean⟩
      · rw [element, tokensOf_append]
        exact .chain first.derived others.derived

/-- A pattern derives itself, `Grammar.Pattern`, if it has elements, its paths have steps
(`HasSteps`) and its values are readable. -/
theorem derives_pattern {p : Pattern} (nonempty : p.elements ≠ [])
    (steps : ∀ e ∈ p.elements, e.HasSteps) (readable : ∀ value ∈ p.values, value.IsReadable) :
    Derives Grammar.Pattern (pattern config p) p := by
  have list := derives_separated (fun e member => derives_element config (steps e member)
    (List.forall_mem_flatMap.mp readable e member)) nonempty
  exact ⟨list.clean, .intro list.derived⟩

end Deriving

end CypherQuery
