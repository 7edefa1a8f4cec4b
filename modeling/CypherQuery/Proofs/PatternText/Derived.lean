import CypherQuery.Proofs.PatternText.Readable
import Mathlib.Data.List.Chain

/-! # What a derivation tells

What holds for the tokens and the tree of every derivation: the tree has elements and its paths have
steps (`Pattern.hasSteps`), each of its property values is derived from some of the tokens
(`Pattern.yields`), and no name stands directly behind a number (`Pattern.isChain`). -/

namespace CypherQuery

/-- A name may not stand directly behind a number: if `first.isNumber`, then `second.name?` is
none. -/
def Token.MayPrecede (first second : Token) : Prop :=
  first.isNumber = true → second.name? = none

/-- What gives a name, by `Token.name?`, is no number. -/
theorem Token.isNumber_of_name? {token : Token} {own : String} (named : token.name? = some own) :
    token.isNumber = false := by
  cases token with
  | identifier => rfl
  | quotedName => rfl
  | _ => cases named

/-- Anything may stand, `Token.MayPrecede`, behind a token that is no number. -/
theorem Token.mayPrecede_of_isNumber {first : Token} (calm : first.isNumber = false)
    (second : Token) : first.MayPrecede second := by
  intro number
  rw [calm] at number
  cases number

/-- Tokens without a name directly behind a number, the last of which is no number: anything may
follow them. -/
structure Quiet (tokens : List Token) : Prop where
  /-- No name stands directly behind a number. -/
  chain : tokens.IsChain Token.MayPrecede
  /-- The last token is no number. -/
  last : ∀ token ∈ tokens.getLast?, token.isNumber = false

namespace Quiet

/-- The empty list of tokens is `Quiet`. -/
theorem nil : Quiet [] := by
  refine ⟨.nil, fun last isLast => ?_⟩
  cases isLast

/-- A token that is no number is `Quiet`. -/
theorem one {token : Token} (calm : token.isNumber = false) : Quiet [token] := by
  refine ⟨.singleton token, fun last isLast => ?_⟩
  cases isLast
  exact calm

/-- Tokens that are `Quiet` in front of any that may be close to each other. -/
theorem isChain_append {tokens others : List Token} (quiet : Quiet tokens)
    (chain : others.IsChain Token.MayPrecede) : (tokens ++ others).IsChain Token.MayPrecede :=
  List.isChain_append.mpr ⟨quiet.chain, chain, fun last isLast next _ =>
    Token.mayPrecede_of_isNumber (quiet.last last isLast) next⟩

/-- Tokens that are `Quiet` behind others that are, are so together. -/
theorem append {tokens others : List Token} (quiet : Quiet tokens) (more : Quiet others) :
    Quiet (tokens ++ others) := by
  refine ⟨quiet.isChain_append more.chain, fun token isLast => ?_⟩
  rw [List.getLast?_append] at isLast
  -- The last token is that of the second list, unless that list is empty.
  cases last : others.getLast? with
  | none =>
      rw [last] at isLast
      exact quiet.last token isLast
  | some other =>
      rw [last] at isLast
      cases isLast
      exact more.last _ last

/-- A token that is no number, in front of tokens that are `Quiet`. -/
theorem cons {token : Token} {tokens : List Token} (calm : token.isNumber = false)
    (quiet : Quiet tokens) : Quiet (token :: tokens) :=
  (one calm).append quiet

/-- A mark makes `Quiet` what stands before it. -/
theorem close {tokens : List Token} {mark : Token} (chain : tokens.IsChain Token.MayPrecede)
    (nameless : mark.name? = none) (calm : mark.isNumber = false) : Quiet (tokens ++ [mark]) := by
  constructor
  · refine List.isChain_append.mpr ⟨chain, .singleton mark, fun last _ next isNext _ => ?_⟩
    cases isNext
    exact nameless
  · intro token isLast
    rw [List.getLast?_concat] at isLast
    cases isLast
    exact calm

end Quiet

namespace Grammar

/-! ## Numbers and names -/

/-- No name stands behind a number in a value: its tokens are a chain of `Token.MayPrecede`. -/
theorem Value.isChain {tokens : List Token} {value : Expression} (derived : Value tokens value) :
    tokens.IsChain Token.MayPrecede := by
  -- Only a value with a sign has two tokens, and the sign stands in front.
  cases derived with
  | negativeInteger => exact List.isChain_pair.mpr (Token.mayPrecede_of_isNumber rfl _)
  | negativeFloat => exact List.isChain_pair.mpr (Token.mayPrecede_of_isNumber rfl _)
  | _ => exact .singleton _

/-- No name stands behind a number in an entry: its tokens are a chain of `Token.MayPrecede`. -/
theorem Entry.isChain {tokens : List Token} {e : PropertyEntry} (derived : Entry tokens e) :
    tokens.IsChain Token.MayPrecede := by
  obtain ⟨named, isValue⟩ := derived
  have key := Quiet.one (Token.isNumber_of_name? named)
  exact key.isChain_append ((Quiet.one rfl).isChain_append isValue.isChain)

/-- The tokens of a list are a chain of `Token.MayPrecede` if those of each item are: what stands
between items is no number. -/
theorem CommaSeparated.isChain {α : Type} {Item : List Token → α → Prop} {tokens : List Token}
    {items : List α} (each : ∀ {part item}, Item part item → part.IsChain Token.MayPrecede)
    (derived : CommaSeparated Item tokens items) : tokens.IsChain Token.MayPrecede := by
  induction derived with
  | one isItem => exact each isItem
  -- An item may end with a number; the comma behind it is no name.
  | @more part rest item items isItem _ ih =>
      have closed : Quiet (part ++ [.comma]) := .close (each isItem) rfl rfl
      rw [← List.singleton_append, ← List.append_assoc]
      exact closed.isChain_append ih

/-- The tokens of a property map are `Quiet`. -/
theorem Properties.quiet {tokens : List Token} {map : Option PropertyMap}
    (derived : Properties tokens map) : Quiet tokens := by
  cases derived with
  | absent => exact .nil
  | empty => exact .cons rfl (.one rfl)
  -- The closing brace is why a number ends inside its property map.
  | entries areEntries => exact .cons rfl (.close (areEntries.isChain Entry.isChain) rfl rfl)

/-- The token of a name is `Quiet`. -/
theorem OptionalName.quiet {tokens : List Token} {own : Option String}
    (derived : OptionalName tokens own) : Quiet tokens := by
  cases derived with
  | absent => exact .nil
  | present named => exact .one (Token.isNumber_of_name? named)

/-- The tokens of labels are `Quiet`. -/
theorem Labels.quiet {tokens : List Token} {labels : List String}
    (derived : Labels tokens labels) : Quiet tokens := by
  induction derived with
  | none => exact .nil
  | more named _ ih => exact .cons rfl (.cons (Token.isNumber_of_name? named) ih)

/-- The tokens of a node are `Quiet`. -/
theorem Node.quiet {tokens : List Token} {n : CypherQuery.Node} (derived : Node tokens n) :
    Quiet tokens := by
  obtain ⟨isName, areLabels, areProperties⟩ := derived
  refine .cons rfl (isName.quiet.append (areLabels.quiet.append ?_))
  exact areProperties.quiet.append (.one rfl)

/-- The tokens of further types are `Quiet`. -/
theorem MoreTypes.quiet {tokens : List Token} {types : List String}
    (derived : MoreTypes tokens types) : Quiet tokens := by
  induction derived with
  | none => exact .nil
  | bar named _ ih => exact .cons rfl (.cons (Token.isNumber_of_name? named) ih)
  | barColon named _ ih => exact .cons rfl (.cons rfl (.cons (Token.isNumber_of_name? named) ih))

/-- The tokens of types are `Quiet`. -/
theorem Types.quiet {tokens : List Token} {types : List String} (derived : Types tokens types) :
    Quiet tokens := by
  cases derived with
  | none => exact .nil
  | some named others => exact .cons rfl (.cons (Token.isNumber_of_name? named) others.quiet)

/-- The tokens of details are `Quiet`. -/
theorem Details.quiet {tokens : List Token} {details : Direction → CypherQuery.Relationship}
    (derived : Details tokens details) : Quiet tokens := by
  cases derived with
  | absent => exact .nil
  | present isName areTypes areProperties =>
      refine .cons rfl (isName.quiet.append (areTypes.quiet.append ?_))
      exact areProperties.quiet.append (.one rfl)

/-- The tokens of a relationship are `Quiet`. -/
theorem Relationship.quiet {tokens : List Token} {r : CypherQuery.Relationship}
    (derived : Relationship tokens r) : Quiet tokens := by
  obtain ⟨marks, areDetails⟩ := derived
  -- The brackets of the details stand between the marks, and no mark is a number.
  cases marks with
  | outgoing => exact .cons rfl (areDetails.quiet.append (.one rfl))
  | incoming => exact .cons rfl (areDetails.quiet.append (.one rfl))
  | undirected => exact .cons rfl (areDetails.quiet.append (.one rfl))

/-- The tokens of steps are `Quiet`. -/
theorem Hops.quiet {tokens : List Token} {steps : List Hop} (derived : Hops tokens steps) :
    Quiet tokens := by
  induction derived with
  | none => exact .nil
  | more isRelationship isNode _ ih => exact isRelationship.quiet.append (isNode.quiet.append ih)

/-- The tokens of an element are `Quiet`. -/
theorem Element.quiet {tokens : List Token} {e : PatternElement} (derived : Element tokens e) :
    Quiet tokens := by
  cases derived with
  | node isNode => exact isNode.quiet
  | chain isNode areHops => exact isNode.quiet.append areHops.quiet

/-- No name stands behind a number in a pattern: its tokens are a chain of `Token.MayPrecede`. -/
theorem Pattern.isChain {tokens : List Token} {p : CypherQuery.Pattern}
    (derived : Pattern tokens p) : tokens.IsChain Token.MayPrecede := by
  obtain ⟨areElements⟩ := derived
  exact areElements.isChain fun isElement => isElement.quiet.chain

/-! ## Where property values come from -/

/-- Each of the values is derived, `Grammar.Value`, from some tokens that are among `tokens`. -/
def Yields (tokens : List Token) (values : List Expression) : Prop :=
  ∀ value ∈ values, ∃ part, part ⊆ tokens ∧ Value part value

/-- More tokens yield the same values: `Yields` is monotone in the tokens. -/
theorem Yields.mono {tokens others : List Token} {values : List Expression}
    (yields : Yields tokens values) (among : tokens ⊆ others) : Yields others values := by
  intro value member
  obtain ⟨part, inside, derived⟩ := yields value member
  exact ⟨part, List.Subset.trans inside among, derived⟩

/-- Tokens one after the other yield the values of both: `Yields` on an append. -/
theorem Yields.append {tokens others : List Token} {values more : List Expression}
    (yields : Yields tokens values) (also : Yields others more) :
    Yields (tokens ++ others) (values ++ more) :=
  List.forall_mem_append.mpr ⟨yields.mono (List.subset_append_left tokens others),
    also.mono (List.subset_append_right tokens others)⟩

/-- An entry `Yields` its value: the tokens behind its colon derive it. -/
theorem Entry.yields {tokens : List Token} {e : PropertyEntry} (derived : Entry tokens e) :
    Yields tokens [e.value] := by
  obtain ⟨-, isValue⟩ := derived
  -- The tokens of the value are those behind the key and the colon.
  refine List.forall_mem_cons.mpr ⟨⟨_, ?_, isValue⟩, List.forall_mem_nil _⟩
  exact List.subset_cons_of_subset _ (List.subset_cons_self _ _)

/-- A list `Yields` the values of its items. -/
theorem CommaSeparated.yields {α : Type} {Item : List Token → α → Prop}
    {values : α → List Expression} {tokens : List Token} {items : List α}
    (each : ∀ {part item}, Item part item → Yields part (values item))
    (derived : CommaSeparated Item tokens items) : Yields tokens (items.flatMap values) := by
  induction derived with
  | @one part item isItem =>
      rw [List.flatMap_singleton]
      exact each isItem
  | more isItem _ ih =>
      rw [List.flatMap_cons]
      exact (each isItem).append (ih.mono (List.subset_cons_self _ _))

/-- A property map `Yields` its values. -/
theorem Properties.yields {tokens : List Token} {map : Option PropertyMap}
    (derived : Properties tokens map) : Yields tokens (map.elim [] PropertyMap.values) := by
  cases derived with
  | absent => exact List.forall_mem_nil _
  | empty => exact List.forall_mem_nil _
  | @entries part entries areEntries =>
      have inner : Yields part (entries.flatMap fun e => [e.value]) :=
        areEntries.yields Entry.yields
      rw [← List.map_eq_flatMap] at inner
      exact inner.mono (List.subset_cons_of_subset _ (List.subset_append_left _ _))

/-- A node `Yields` its values, those of its property map. -/
theorem Node.yields {tokens : List Token} {n : CypherQuery.Node} (derived : Node tokens n) :
    Yields tokens n.values := by
  obtain ⟨-, -, areProperties⟩ := derived
  refine areProperties.yields.mono (List.subset_cons_of_subset _ ?_)
  refine List.subset_append_of_subset_right _ (List.subset_append_of_subset_right _ ?_)
  exact List.subset_append_left _ _

/-- Details yield the values of the relationship, whatever the `direction` is. -/
theorem Details.yields {tokens : List Token} {details : Direction → CypherQuery.Relationship}
    (derived : Details tokens details) (direction : Direction) :
    Yields tokens (details direction).values := by
  cases derived with
  | absent => exact List.forall_mem_nil _
  | present _ _ areProperties =>
      refine areProperties.yields.mono (List.subset_cons_of_subset _ ?_)
      refine List.subset_append_of_subset_right _ (List.subset_append_of_subset_right _ ?_)
      exact List.subset_append_left _ _

/-- A relationship `Yields` its values, those of its details. -/
theorem Relationship.yields {tokens : List Token} {r : CypherQuery.Relationship}
    (derived : Relationship tokens r) : Yields tokens r.values := by
  obtain ⟨-, areDetails⟩ := derived
  refine (areDetails.yields _).mono (List.subset_cons_of_subset _ ?_)
  exact List.subset_append_left _ _

/-- The steps of a path yield their values, `Yields`: each those of its relationship and of its
node. -/
theorem Hops.yields {tokens : List Token} {steps : List Hop} (derived : Hops tokens steps) :
    Yields tokens (steps.flatMap Hop.values) := by
  induction derived with
  | none => exact List.forall_mem_nil _
  | more isRelationship isNode _ ih =>
      rw [List.flatMap_cons, Hop.values, List.append_assoc]
      exact isRelationship.yields.append (isNode.yields.append ih)

/-- An element `Yields` its values. -/
theorem Element.yields {tokens : List Token} {e : PatternElement} (derived : Element tokens e) :
    Yields tokens e.values := by
  cases derived with
  | node isNode => exact isNode.yields
  | chain isNode areHops => exact isNode.yields.append areHops.yields

/-- A pattern yields its values: every one of `p.values` is derived from some of the tokens. -/
theorem Pattern.yields {tokens : List Token} {p : CypherQuery.Pattern}
    (derived : Pattern tokens p) : Yields tokens p.values := by
  obtain ⟨areElements⟩ := derived
  exact areElements.yields Element.yields

/-! ## The shape of the tree -/

/-- There is an item in a list that is `CommaSeparated`. -/
theorem CommaSeparated.items_ne_nil {α : Type} {Item : List Token → α → Prop}
    {tokens : List Token} {items : List α} (derived : CommaSeparated Item tokens items) :
    items ≠ [] := by
  cases derived with
  | one => exact List.cons_ne_nil _ _
  | more => exact List.cons_ne_nil _ _

/-- What `Holds` for each item that can be derived holds for the items of a list. -/
theorem CommaSeparated.forall_items {α : Type} {Item : List Token → α → Prop} {Holds : α → Prop}
    {tokens : List Token} {items : List α} (each : ∀ {part item}, Item part item → Holds item)
    (derived : CommaSeparated Item tokens items) : ∀ item ∈ items, Holds item := by
  induction derived with
  | one isItem => exact List.forall_mem_cons.mpr ⟨each isItem, List.forall_mem_nil _⟩
  | more isItem _ ih => exact List.forall_mem_cons.mpr ⟨each isItem, ih⟩

/-- A path has steps: `Element` derives no `chain` without one. -/
theorem Element.hasSteps {tokens : List Token} {e : PatternElement} (derived : Element tokens e) :
    e.HasSteps := by
  cases derived with
  | node => trivial
  | chain => exact List.cons_ne_nil _ _

/-- A pattern has elements, at least one: it is `CommaSeparated`. -/
theorem Pattern.elements_ne_nil {tokens : List Token} {p : CypherQuery.Pattern}
    (derived : Pattern tokens p) : p.elements ≠ [] := by
  obtain ⟨areElements⟩ := derived
  exact areElements.items_ne_nil

/-- The paths of a pattern have steps, `HasSteps`. -/
theorem Pattern.hasSteps {tokens : List Token} {p : CypherQuery.Pattern}
    (derived : Pattern tokens p) : ∀ e ∈ p.elements, e.HasSteps := by
  obtain ⟨areElements⟩ := derived
  exact areElements.forall_items Element.hasSteps

/-- The tokens of an element are not missing. -/
theorem Element.ne_nil {tokens : List Token} {e : PatternElement} (derived : Element tokens e) :
    tokens ≠ [] := by
  cases derived with
  | node isNode =>
      cases isNode
      exact List.cons_ne_nil _ _
  | chain isNode _ =>
      cases isNode
      exact List.cons_ne_nil _ _

/-- The tokens of a pattern are not missing. -/
theorem Pattern.ne_nil {tokens : List Token} {p : CypherQuery.Pattern}
    (derived : Pattern tokens p) : tokens ≠ [] := by
  obtain ⟨areElements⟩ := derived
  cases areElements with
  | one isElement => exact isElement.ne_nil
  | more _ _ => exact List.append_ne_nil_of_right_ne_nil _ (List.cons_ne_nil _ _)

end Grammar

end CypherQuery
