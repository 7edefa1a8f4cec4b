import CypherQuery.PatternText.Grammar
import CypherQuery.PatternText.Reader

/-! # What is read is derived

Whatever a reader takes from the start of a list of tokens derives, by the rules of the grammar,
what it has read. The lemmas follow the readers one by one, up to `pattern_derives`: the tokens
`used` are those in front of the `rest` that the reader leaves. -/

namespace CypherQuery

namespace Reading

variable {α : Type}

/-- An expected token stands in front of what `expect` leaves. -/
theorem eq_cons_of_expect {wanted : Token} {tokens rest : List Token}
    (read : expect wanted tokens = .ok rest) : tokens = wanted :: rest := by
  cases tokens with
  | nil => cases read
  | cons token tail =>
      rw [expect] at read
      split at read
      · next same => cases read; rw [same]
      · cases read

/-- A name that is read is given by the first token, `Token.name?`. -/
theorem eq_cons_of_name {role : NameRole} {tokens rest : List Token} {found : String}
    (read : name role tokens = .ok (found, rest)) :
    ∃ token, tokens = token :: rest ∧ token.name? = some found := by
  cases tokens with
  | nil => cases read
  | cons token tail =>
      rw [name] at read
      split at read
      · next named => cases read; exact ⟨token, rfl, named⟩
      · cases read

/-- A name that may be missing is derived, `Grammar.OptionalName`, from the tokens it is read
from. -/
theorem optionalName_derives (tokens : List Token) :
    ∃ used, tokens = used ++ (optionalName tokens).2 ∧
      Grammar.OptionalName used (optionalName tokens).1 := by
  cases tokens with
  | nil => exact ⟨[], rfl, .absent⟩
  | cons token rest =>
      rw [optionalName]
      split
      · next named => exact ⟨[token], rfl, .present named⟩
      · exact ⟨[], rfl, .absent⟩

/-- A value is derived, `Grammar.Value`, from the tokens it is read from. -/
theorem value_derives {tokens rest : List Token} {found : Expression}
    (read : value tokens = .ok (found, rest)) :
    ∃ used, tokens = used ++ rest ∧ Grammar.Value used found := by
  unfold value at read
  split at read
  case h_1 name behind => cases read; exact ⟨[.parameter name], rfl, .parameter name⟩
  case h_2 text behind => cases read; exact ⟨[.string text], rfl, .string text⟩
  case h_3 n behind => cases read; exact ⟨[.integer n], rfl, .integer n⟩
  case h_4 x behind => cases read; exact ⟨[.float x], rfl, .float x⟩
  case h_5 n behind => cases read; exact ⟨[.dash, .integer n], rfl, .negativeInteger n⟩
  case h_6 x behind => cases read; exact ⟨[.dash, .float x], rfl, .negativeFloat x⟩
  -- A minus sign that no number follows is rejected.
  case h_7 => cases read
  case h_8 word behind =>
    split at read
    · next known => cases read; exact ⟨[.identifier word], rfl, .word known⟩
    · cases read
  case h_9 => cases read

/-- An entry is derived, `Grammar.Entry`, from the tokens it is read from. -/
theorem entry_derives {tokens rest : List Token} {found : PropertyEntry}
    (read : entry tokens = .ok (found, rest)) :
    ∃ used, tokens = used ++ rest ∧ Grammar.Entry used found := by
  obtain ⟨⟨key, afterKey⟩, readKey, read⟩ := bind_eq_ok.mp read
  obtain ⟨afterColon, readColon, read⟩ := bind_eq_ok.mp read
  obtain ⟨⟨e, afterValue⟩, readValue, read⟩ := bind_eq_ok.mp read
  cases read
  obtain ⟨token, rfl, named⟩ := eq_cons_of_name readKey
  obtain rfl := eq_cons_of_expect readColon
  obtain ⟨used, rfl, isValue⟩ := value_derives readValue
  exact ⟨token :: .colon :: used, rfl, .intro named isValue⟩

/-- Items with commas between them are derived, `Grammar.CommaSeparated`, if each item is. -/
theorem commaSeparated_derives {item : List Token → Reading (α × List Token)}
    {shrinks : ∀ {tokens a rest}, item tokens = .ok (a, rest) → rest.length < tokens.length}
    {Item : List Token → α → Prop}
    (derives : ∀ {tokens a rest}, item tokens = .ok (a, rest) →
      ∃ used, tokens = used ++ rest ∧ Item used a)
    {tokens rest : List Token} {items : List α}
    (read : commaSeparated item shrinks tokens = .ok (items, rest)) :
    ∃ used, tokens = used ++ rest ∧ Grammar.CommaSeparated Item used items := by
  fun_induction commaSeparated item shrinks tokens generalizing items rest with
  | case1 => cases read
  | case2 => cases read
  -- The item and its comma come off the front; the recursion is on what is left behind them.
  | case3 tokens first behind one more last many ih =>
      cases read
      obtain ⟨used, rfl, isItem⟩ := derives one
      obtain ⟨others, rfl, areItems⟩ := ih many
      exact ⟨used ++ .comma :: others, by simp, .more isItem areItems⟩
  | case4 tokens first behind last one =>
      cases read
      obtain ⟨used, rfl, isItem⟩ := derives one
      exact ⟨used, rfl, .one isItem⟩

/-- A property map that may be missing is derived, `Grammar.Properties`, from the tokens it is read
from. -/
theorem properties_derives {tokens rest : List Token} {found : Option PropertyMap}
    (read : properties tokens = .ok (found, rest)) :
    ∃ used, tokens = used ++ rest ∧ Grammar.Properties used found := by
  unfold properties at read
  split at read
  -- An opening brace with its closing one right behind it is read before any entry is tried.
  · cases read; exact ⟨[.leftBrace, .rightBrace], rfl, .empty⟩
  · obtain ⟨⟨entries, afterEntries⟩, readEntries, read⟩ := bind_eq_ok.mp read
    obtain ⟨afterBrace, readBrace, read⟩ := bind_eq_ok.mp read
    cases read
    obtain ⟨used, rfl, areEntries⟩ := commaSeparated_derives entry_derives readEntries
    obtain rfl := eq_cons_of_expect readBrace
    exact ⟨.leftBrace :: (used ++ [.rightBrace]), by simp, .entries areEntries⟩
  · cases read; exact ⟨[], rfl, .absent⟩

/-- Labels are derived, `Grammar.Labels`, from the tokens they are read from. -/
theorem labels_derives {tokens rest : List Token} {found : List String}
    (read : labels tokens = .ok (found, rest)) :
    ∃ used, tokens = used ++ rest ∧ Grammar.Labels used found := by
  fun_induction labels tokens generalizing found rest with
  | case1 => cases read
  | case2 token tail label named ih =>
      obtain ⟨⟨more, behind⟩, readMore, read⟩ := bind_eq_ok.mp read
      cases read
      obtain ⟨used, rfl, areLabels⟩ := ih readMore
      exact ⟨.colon :: token :: used, rfl, .more named areLabels⟩
  | case3 => cases read
  | case4 => cases read; exact ⟨[], rfl, .none⟩

/-- A node is derived, `Grammar.Node`, from the tokens it is read from. -/
theorem node_derives {tokens rest : List Token} {found : Node}
    (read : node tokens = .ok (found, rest)) :
    ∃ used, tokens = used ++ rest ∧ Grammar.Node used found := by
  obtain ⟨opened, readOpen, read⟩ := bind_eq_ok.mp read
  obtain ⟨⟨someLabels, afterLabels⟩, readLabels, read⟩ := bind_eq_ok.mp read
  obtain ⟨⟨map, afterMap⟩, readMap, read⟩ := bind_eq_ok.mp read
  obtain ⟨closed, readClose, read⟩ := bind_eq_ok.mp read
  cases read
  obtain rfl := eq_cons_of_expect readOpen
  -- The tokens used are collected from the last part to the first one, so that each `rfl` fixes
  -- what the part before it leaves.
  obtain ⟨nameTokens, nameSplit, isName⟩ := optionalName_derives opened
  obtain ⟨labelTokens, labelSplit, areLabels⟩ := labels_derives readLabels
  obtain ⟨mapTokens, rfl, areProperties⟩ := properties_derives readMap
  obtain rfl := eq_cons_of_expect readClose
  refine ⟨_, ?_, .intro isName areLabels areProperties⟩
  rw [nameSplit, labelSplit]
  simp

/-- Further types are derived, `Grammar.MoreTypes`, from the tokens they are read from. -/
theorem moreTypes_derives {tokens rest : List Token} {found : List String}
    (read : moreTypes tokens = .ok (found, rest)) :
    ∃ used, tokens = used ++ rest ∧ Grammar.MoreTypes used found := by
  fun_induction moreTypes tokens generalizing found rest with
  | case1 => cases read
  | case2 => cases read
  -- A colon behind a bar is tried first, and so a bar alone comes with the fact that no colon
  -- follows it.
  | case3 token tail type named ih =>
      obtain ⟨⟨more, behind⟩, readMore, read⟩ := bind_eq_ok.mp read
      cases read
      obtain ⟨used, rfl, areTypes⟩ := ih readMore
      exact ⟨.pipe :: .colon :: token :: used, rfl, .barColon named areTypes⟩
  | case4 => cases read
  | case5 token tail none_or_other no_colon type named ih =>
      obtain ⟨⟨more, behind⟩, readMore, read⟩ := bind_eq_ok.mp read
      cases read
      obtain ⟨used, rfl, areTypes⟩ := ih readMore
      exact ⟨.pipe :: token :: used, rfl, .bar named areTypes⟩
  | case6 => cases read
  | case7 => cases read; exact ⟨[], rfl, .none⟩

/-- Types that may be missing are derived, `Grammar.Types`, from the tokens they are read from. -/
theorem types_derives {tokens rest : List Token} {found : List String}
    (read : types tokens = .ok (found, rest)) :
    ∃ used, tokens = used ++ rest ∧ Grammar.Types used found := by
  unfold types at read
  split at read
  · obtain ⟨⟨first, afterFirst⟩, readFirst, read⟩ := bind_eq_ok.mp read
    obtain ⟨⟨more, afterMore⟩, readMore, read⟩ := bind_eq_ok.mp read
    cases read
    obtain ⟨token, rfl, named⟩ := eq_cons_of_name readFirst
    obtain ⟨used, rfl, areTypes⟩ := moreTypes_derives readMore
    exact ⟨.colon :: token :: used, rfl, .some named areTypes⟩
  · cases read; exact ⟨[], rfl, .none⟩

/-- The details of a relationship are derived, `Grammar.Details`, from the tokens they are read
from. -/
theorem details_derives {tokens rest : List Token} {found : Direction → Relationship}
    (read : details tokens = .ok (found, rest)) :
    ∃ used, tokens = used ++ rest ∧ Grammar.Details used found := by
  unfold details at read
  split at read
  · next opened =>
      obtain ⟨⟨someTypes, afterTypes⟩, readTypes, read⟩ := bind_eq_ok.mp read
      obtain ⟨⟨map, afterMap⟩, readMap, read⟩ := bind_eq_ok.mp read
      obtain ⟨closed, readClose, read⟩ := bind_eq_ok.mp read
      cases read
      obtain ⟨nameTokens, nameSplit, isName⟩ := optionalName_derives opened
      obtain ⟨typeTokens, typeSplit, areTypes⟩ := types_derives readTypes
      obtain ⟨mapTokens, rfl, areProperties⟩ := properties_derives readMap
      obtain rfl := eq_cons_of_expect readClose
      refine ⟨_, ?_, .present isName areTypes areProperties⟩
      rw [nameSplit, typeSplit]
      simp
  · cases read; exact ⟨[], rfl, .absent⟩

/-- The end of a relationship is one mark, which goes with the mark at the start by
`Grammar.Marks`. -/
theorem closing_derives {since tokens rest : List Token} {incoming : Bool} {found : Direction}
    (read : closing since incoming tokens = .ok (found, rest)) :
    ∃ last, tokens = last :: rest ∧
      Grammar.Marks (if incoming then .leftArrow else .dash) last found := by
  unfold closing at read
  split at read
  · split at read
    · cases read
    · next outgoing =>
        cases read
        exact ⟨.rightArrow, rfl, by rw [if_neg outgoing]; exact .outgoing⟩
  · cases read
    refine ⟨.dash, rfl, ?_⟩
    -- A line at the end goes with either mark at the start.
    cases incoming
    · exact .undirected
    · exact .incoming
  · cases read

/-- A relationship is derived, `Grammar.Relationship`, from the tokens it is read from. -/
theorem relationship_derives {tokens rest : List Token} {found : Relationship}
    (read : relationship tokens = .ok (found, rest)) :
    ∃ used, tokens = used ++ rest ∧ Grammar.Relationship used found := by
  -- Both marks at the start lead to the same reader, which knows only which one it was.
  have tail {since inside : List Token} {incoming : Bool}
      (read : relationshipTail since incoming inside = .ok (found, rest)) :
      ∃ used, (if incoming then .leftArrow else .dash) :: inside = used ++ rest ∧
        Grammar.Relationship used found := by
    obtain ⟨⟨openDirection, afterDetails⟩, readDetails, read⟩ := bind_eq_ok.mp read
    obtain ⟨⟨direction, afterClosing⟩, readClosing, read⟩ := bind_eq_ok.mp read
    cases read
    obtain ⟨used, rfl, areDetails⟩ := details_derives readDetails
    obtain ⟨last, rfl, marks⟩ := closing_derives readClosing
    exact ⟨_, by simp, .intro marks areDetails⟩
  unfold relationship at read
  split at read
  · exact tail read
  · exact tail read
  · cases read

/-- The steps of a path are derived, `Grammar.Hops`, from the tokens they are read from. -/
theorem hops_derives {tokens rest : List Token} {found : List Hop}
    (read : hops tokens = .ok (found, rest)) :
    ∃ used, tokens = used ++ rest ∧ Grammar.Hops used found := by
  fun_induction hops tokens generalizing found rest with
  | case1 => cases read
  | case2 => cases read
  | case3 tokens starts first behind one more last many ih =>
      cases read
      obtain ⟨⟨relation, afterRelation⟩, readRelation, one⟩ := bind_eq_ok.mp one
      obtain ⟨⟨target, afterTarget⟩, readTarget, one⟩ := bind_eq_ok.mp one
      cases one
      obtain ⟨relationTokens, rfl, isRelationship⟩ := relationship_derives readRelation
      obtain ⟨nodeTokens, rfl, isNode⟩ := node_derives readTarget
      obtain ⟨others, rfl, areHops⟩ := ih many
      exact ⟨relationTokens ++ (nodeTokens ++ others), by simp, .more isRelationship isNode areHops⟩
  | case4 => cases read; exact ⟨[], rfl, .none⟩

/-- A node and steps behind it are an element, put together by `asElement`. -/
theorem isElement_asElement {startTokens stepTokens : List Token} {start : Node} {steps : List Hop}
    (isNode : Grammar.Node startTokens start) (areHops : Grammar.Hops stepTokens steps) :
    Grammar.Element (startTokens ++ stepTokens) (asElement start steps) := by
  -- The grammar has no path without steps, and the reader makes a node of one.
  cases steps with
  | nil =>
      cases areHops
      rw [List.append_nil]
      exact .node isNode
  | cons step more => exact .chain isNode areHops

/-- An element is derived, `Grammar.Element`, from the tokens it is read from. -/
theorem element_derives {tokens rest : List Token} {found : PatternElement}
    (read : element tokens = .ok (found, rest)) :
    ∃ used, tokens = used ++ rest ∧ Grammar.Element used found := by
  obtain ⟨⟨start, afterStart⟩, readStart, read⟩ := bind_eq_ok.mp read
  obtain ⟨⟨steps, afterSteps⟩, readSteps, read⟩ := bind_eq_ok.mp read
  cases read
  obtain ⟨startTokens, rfl, isNode⟩ := node_derives readStart
  obtain ⟨stepTokens, rfl, areHops⟩ := hops_derives readSteps
  exact ⟨startTokens ++ stepTokens, by simp, isElement_asElement isNode areHops⟩

/-- A pattern is derived, `Grammar.Pattern`, from all the tokens. -/
theorem pattern_derives {tokens : List Token} {found : Pattern}
    (read : pattern tokens = .ok found) : Grammar.Pattern tokens found := by
  obtain ⟨⟨elements, rest⟩, readElements, complete⟩ := bind_eq_ok.mp read
  obtain ⟨used, rfl, areElements⟩ := commaSeparated_derives element_derives readElements
  -- A pattern that leaves a token over is rejected.
  cases rest with
  | nil =>
      cases complete
      rw [List.append_nil]
      exact .intro areElements
  | cons token behind => cases complete

end Reading

end CypherQuery
