import CypherQuery.Token.Basic
import CypherQuery.Tree.Pattern

/-! # The grammar of patterns

Which sequences of tokens stand for which trees, rule by rule; `Grammar.Pattern tokens p` says that
`tokens` are a pattern and `p` its tree:

* a `Pattern` is one or more elements with commas between them (`CommaSeparated`);
* an `Element` is a node followed by any number of relationships, each with a node behind it
  (`Hops`);
* a `Node` is a name, `Labels` behind colons and a property map between parentheses, each of which
  may be missing;
* a `Relationship` is a line or an arrow to the left, perhaps details between brackets, and a line
  or an arrow to the right, but not both arrows (`Marks`);
* the `Details` are a name, `Types` behind a colon with bars between them, and a property map, each
  of which may be missing; a further colon may follow a bar;
* a property map, `Properties`, is any number of keys, each with a colon and a value (`Entry`), with
  commas between them;
* a `Value` is a parameter, a string, a number with or without a minus sign, or one of the words for
  the truth values and the absent value. -/

namespace CypherQuery.Grammar

/-- The tokens of a value, which is a constant expression or a parameter. The integer or number of a
token that stands behind `dash` is negated. -/
inductive Value : List Token → Expression → Prop where
  /-- A parameter. -/
  | parameter (name : String) : Value [.parameter name] (.parameter name)
  /-- A string. -/
  | string (text : String) : Value [.string text] (.literal (.string text))
  /-- An integer. -/
  | integer (n : Int64) : Value [.integer n] (.literal (.integer n))
  /-- A number with a decimal point. -/
  | float (x : Binary64) : Value [.float x] (.literal (.float x))
  /-- An integer behind a minus sign. -/
  | negativeInteger (n : Int64) : Value [.dash, .integer n] (.literal (.integer (-n)))
  /-- A number with a decimal point behind a minus sign. -/
  | negativeFloat (x : Binary64) : Value [.dash, .float x] (.literal (.float x.negate))
  /-- A word that stands for a constant. -/
  | word {word : String} {constant : Literal} (known : Literal.ofWord? word = some constant) :
      Value [.identifier word] (.literal constant)

/-- The tokens of a key and its value, with a colon between them. -/
inductive Entry : List Token → PropertyEntry → Prop where
  /-- A name, a colon and a value. -/
  | intro {token : Token} {key : String} {tokens : List Token} {value : Expression}
      (named : token.name? = some key) (isValue : Value tokens value) :
      Entry (token :: .colon :: tokens) ⟨key, value⟩

/-- The tokens of items with commas between them, at least one, each derived by `Item`. -/
inductive CommaSeparated {α : Type} (Item : List Token → α → Prop) :
    List Token → List α → Prop where
  /-- One item. -/
  | one {tokens : List Token} {item : α} (isItem : Item tokens item) :
      CommaSeparated Item tokens [item]
  /-- An item before others. -/
  | more {tokens rest : List Token} {item : α} {items : List α} (isItem : Item tokens item)
      (others : CommaSeparated Item rest items) :
      CommaSeparated Item (tokens ++ .comma :: rest) (item :: items)

/-- The tokens of a property map that may be missing, `none`. -/
inductive Properties : List Token → Option PropertyMap → Prop where
  /-- No property map. -/
  | absent : Properties [] none
  /-- A property map without entries. -/
  | empty : Properties [.leftBrace, .rightBrace] (some ⟨[]⟩)
  /-- A property map with entries. -/
  | entries {tokens : List Token} {entries : List PropertyEntry}
      (areEntries : CommaSeparated Entry tokens entries) :
      Properties (.leftBrace :: (tokens ++ [.rightBrace])) (some ⟨entries⟩)

/-- The tokens of a name that may be missing, `none`. -/
inductive OptionalName : List Token → Option String → Prop where
  /-- No name. -/
  | absent : OptionalName [] none
  /-- A name. -/
  | present {token : Token} {name : String} (named : token.name? = some name) :
      OptionalName [token] (some name)

/-- The tokens of labels, each behind a colon. -/
inductive Labels : List Token → List String → Prop where
  /-- No label. -/
  | none : Labels [] []
  /-- A label before others. -/
  | more {token : Token} {label : String} {rest : List Token} {labels : List String}
      (named : token.name? = some label) (others : Labels rest labels) :
      Labels (.colon :: token :: rest) (label :: labels)

/-- The tokens of a node. -/
inductive Node : List Token → CypherQuery.Node → Prop where
  /-- A name, labels and a property map between parentheses. -/
  | intro {nameTokens labelTokens propertyTokens : List Token} {name : Option String}
      {labels : List String} {properties : Option PropertyMap}
      (isName : OptionalName nameTokens name) (areLabels : Labels labelTokens labels)
      (areProperties : Properties propertyTokens properties) :
      Node (.leftParen :: (nameTokens ++ (labelTokens ++ (propertyTokens ++ [.rightParen]))))
        ⟨name, labels, properties⟩

/-- The tokens of the types behind the first one, each behind a bar. -/
inductive MoreTypes : List Token → List String → Prop where
  /-- No further type. -/
  | none : MoreTypes [] []
  /-- A type behind a bar, before others. -/
  | bar {token : Token} {type : String} {rest : List Token} {types : List String}
      (named : token.name? = some type) (others : MoreTypes rest types) :
      MoreTypes (.pipe :: token :: rest) (type :: types)
  /-- A type behind a bar and a colon, before others. -/
  | barColon {token : Token} {type : String} {rest : List Token} {types : List String}
      (named : token.name? = some type) (others : MoreTypes rest types) :
      MoreTypes (.pipe :: .colon :: token :: rest) (type :: types)

/-- The tokens of types that may be missing. -/
inductive Types : List Token → List String → Prop where
  /-- No types. -/
  | none : Types [] []
  /-- A first type behind a colon, and further types. -/
  | some {token : Token} {type : String} {rest : List Token} {types : List String}
      (named : token.name? = some type) (others : MoreTypes rest types) :
      Types (.colon :: token :: rest) (type :: types)

/-- The tokens of the details of a relationship, whatever its direction: what is derived waits for a
`Direction`. -/
inductive Details : List Token → (Direction → CypherQuery.Relationship) → Prop where
  /-- No details. -/
  | absent : Details [] (Relationship.mk Option.none [] Option.none)
  /-- A name, types and a property map between brackets. -/
  | present {nameTokens typeTokens propertyTokens : List Token} {name : Option String}
      {types : List String} {properties : Option PropertyMap}
      (isName : OptionalName nameTokens name) (areTypes : Types typeTokens types)
      (areProperties : Properties propertyTokens properties) :
      Details (.leftBracket ::
          (nameTokens ++ (typeTokens ++ (propertyTokens ++ [.rightBracket]))))
        (Relationship.mk name types properties)

/-- The marks at the two ends of a relationship with the `Direction` that they give it; there is no
rule for two arrows. -/
inductive Marks : Token → Token → Direction → Prop where
  /-- A line and an arrow. -/
  | outgoing : Marks .dash .rightArrow .outgoing
  /-- An arrow and a line. -/
  | incoming : Marks .leftArrow .dash .incoming
  /-- Two lines. -/
  | undirected : Marks .dash .dash .undirected

/-- The tokens of a relationship. -/
inductive Relationship : List Token → CypherQuery.Relationship → Prop where
  /-- Details between two marks. -/
  | intro {first last : Token} {direction : Direction} {tokens : List Token}
      {details : Direction → CypherQuery.Relationship} (marks : Marks first last direction)
      (areDetails : Details tokens details) :
      Relationship (first :: (tokens ++ [last])) (details direction)

/-- The tokens of the steps of a path. -/
inductive Hops : List Token → List Hop → Prop where
  /-- No step. -/
  | none : Hops [] []
  /-- A step before others. -/
  | more {relationshipTokens nodeTokens rest : List Token}
      {relationship : CypherQuery.Relationship} {node : CypherQuery.Node} {hops : List Hop}
      (isRelationship : Relationship relationshipTokens relationship)
      (isNode : Node nodeTokens node) (others : Hops rest hops) :
      Hops (relationshipTokens ++ (nodeTokens ++ rest)) (⟨relationship, node⟩ :: hops)

/-- The tokens of an element. -/
inductive Element : List Token → PatternElement → Prop where
  /-- A node alone. -/
  | node {tokens : List Token} {node : CypherQuery.Node} (isNode : Node tokens node) :
      Element tokens (.node node)
  /-- A node with at least one step behind it. -/
  | chain {tokens rest : List Token} {start : CypherQuery.Node} {hop : Hop} {hops : List Hop}
      (isNode : Node tokens start) (areHops : Hops rest (hop :: hops)) :
      Element (tokens ++ rest) (.chain ⟨start, hop :: hops⟩)

/-- The tokens of a pattern: this relation is what a text is parsed by. -/
inductive Pattern : List Token → CypherQuery.Pattern → Prop where
  /-- Elements with commas between them. -/
  | intro {tokens : List Token} {elements : List PatternElement}
      (areElements : CommaSeparated Element tokens elements) : Pattern tokens ⟨elements⟩

end CypherQuery.Grammar
