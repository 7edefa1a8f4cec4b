import CypherQuery.Proofs.PatternText.RoundTrip

/-! # Parsing what was parsed and written

A pattern that was parsed and has a text is parsed from that text again exactly if its numbers need
no exponent (`Binary64.IsModerate`): the scanner cuts a number with an exponent into a number and a
name (`infix_textPieces`), and no name may stand behind a number. The main statement is
`reparsing_iff_moderate`. -/

namespace CypherQuery

/-! ## Values that were parsed -/

/-- An integer that is not negative `IsReadable`, with and without a sign. -/
theorem isReadable_integer {n : Int64} (natural : 0 ≤ n.toInt) :
    (Literal.integer n).IsReadable ∧ (Literal.integer (-n)).IsReadable := by
  have least : ¬ 0 ≤ Int64.minValue.toInt := by decide
  have opposite : -Int64.minValue = Int64.minValue := by decide
  constructor
  · rintro rfl
    exact least natural
  -- The least integer is its own opposite, so no other integer is the opposite of it.
  · intro same
    have back := congrArg (- ·) same
    rw [Int64.neg_neg, opposite] at back
    rw [back] at natural
    exact least natural

/-- A value that was parsed `IsReadable`, unless it is a number with a point that is not
moderate. -/
theorem Grammar.Value.isReadable {tokens : List Token} {value : Expression}
    (derived : Grammar.Value tokens value) (scanned : ∀ token ∈ tokens, token.IsScanned)
    (moderate : ∀ x, value = .literal (.float x) → x.IsModerate) : value.IsReadable := by
  cases derived with
  | parameter => exact scanned _ List.mem_cons_self
  | string => trivial
  | integer n => exact (isReadable_integer (scanned _ List.mem_cons_self)).1
  | float x => exact moderate x rfl
  | negativeInteger n =>
      exact (isReadable_integer (scanned _ (List.mem_cons_of_mem _ List.mem_cons_self))).2
  | negativeFloat x => exact moderate x.negate rfl
  | word known =>
      unfold Literal.ofWord? at known
      dsimp only at known
      repeat' split at known
      all_goals cases known <;> trivial

/-- A value that was parsed `IsConstant`. -/
theorem Grammar.Value.isConstant {tokens : List Token} {value : Expression}
    (derived : Grammar.Value tokens value) : value.IsConstant := by
  cases derived <;> trivial

/-! ## Values among the pieces -/

section Among

variable (config : RenderConfig)

open Spelling

/-- The pieces of an item are among those of a list, `separated`. -/
theorem infix_separated {α : Type} (separator : List Piece) {spell : α → List Piece}
    {items : List α} {item : α} (member : item ∈ items) :
    spell item <:+: separated separator spell items := by
  induction items with
  | nil => cases member
  | cons first rest ih =>
      cases rest with
      | nil =>
          rw [List.mem_singleton.mp member]
          exact List.infix_rfl
      | cons next rest =>
          -- Behind the first item, both the first item and the separator are in front.
          rcases List.mem_cons.mp member with rfl | later
          · exact List.infix_append_left
          · exact List.infix_append_of_infix_right (List.infix_append_of_infix_right (ih later))

/-- The pieces of a value are among those of its property map: they are an infix, `<:+:`. -/
theorem infix_properties {map : Option PropertyMap} (follows : Bool) {value : Expression}
    (member : value ∈ map.elim [] PropertyMap.values) :
    expression config value <:+: Spelling.optional (properties config follows) map := by
  cases map with
  | none => cases member
  | some map =>
      obtain ⟨e, among, rfl⟩ := List.mem_map.mp member
      have inside : expression config e.value <:+: entry config e :=
        ⟨[_, _, _], [], List.append_nil _⟩
      have whole := inside.trans (infix_separated comma among)
      refine List.infix_append_of_infix_right (List.infix_cons ?_)
      exact List.infix_append_of_infix_left whole

/-- The pieces of a value are among those of its node, `<:+:`. -/
theorem infix_node {n : Node} {value : Expression} (member : value ∈ n.values) :
    expression config value <:+: node config n := by
  have inside := infix_properties config (n.name.isNone && n.labels.isEmpty) member
  refine List.infix_cons (List.infix_append_of_infix_right ?_)
  exact List.infix_append_of_infix_right (List.infix_append_of_infix_left inside)

/-- The pieces of a value are among those of its relationship, `<:+:`. -/
theorem infix_relationship {r : Relationship} {value : Expression} (member : value ∈ r.values) :
    expression config value <:+: relationship config r := by
  have inside := infix_properties config (r.name.isNone && r.types.isEmpty) member
  -- A relationship with a value is not bare.
  have asked : ¬r.isBare = true := by
    intro bare
    obtain ⟨-, -, noMap⟩ := Relationship.isBare_iff.mp bare
    rw [Relationship.values, noMap] at member
    cases member
  rw [relationship, if_neg asked]
  refine List.infix_cons (List.infix_append_of_infix_left ?_)
  refine List.infix_cons (List.infix_append_of_infix_right ?_)
  exact List.infix_append_of_infix_right (List.infix_append_of_infix_left inside)

/-- The pieces of a value are among those of its steps, `<:+:`. -/
theorem infix_hops {steps : List Hop} {value : Expression}
    (member : value ∈ steps.flatMap Hop.values) :
    expression config value <:+: hops config steps := by
  induction steps with
  | nil => cases member
  | cons hop rest ih =>
      rw [List.flatMap_cons, Hop.values, List.append_assoc] at member
      rw [hops]
      rcases List.mem_append.mp member with relation | member
      · exact List.infix_append_of_infix_left (infix_relationship config relation)
      · apply List.infix_append_of_infix_right
        rcases List.mem_append.mp member with target | later
        · exact List.infix_append_of_infix_left (infix_node config target)
        · exact List.infix_append_of_infix_right (ih later)

/-- The pieces of a value are among those of its element, `<:+:`. -/
theorem infix_element {e : PatternElement} {value : Expression} (member : value ∈ e.values) :
    expression config value <:+: element config e := by
  cases e with
  | node single => exact infix_node config member
  | chain path =>
      rcases List.mem_append.mp member with start | later
      · exact List.infix_append_of_infix_left (infix_node config start)
      · exact List.infix_append_of_infix_right (infix_hops config later)

/-- The pieces of a value are among those of its pattern: they are an infix, `<:+:`. -/
theorem infix_pattern {p : Pattern} {value : Expression} (member : value ∈ p.values) :
    expression config value <:+: pattern config p := by
  obtain ⟨e, among, inside⟩ := List.mem_flatMap.mp member
  exact (infix_element config inside).trans (infix_separated comma among)

end Among

/-! ## Numbers with an exponent -/

/-- A number that needs an exponent, not `IsModerate`, has a name directly behind a number among its
tokens. -/
theorem infix_textPieces {x : Binary64} (large : ¬ x.IsModerate) :
    ∃ number own, number.isNumber = true ∧
      [number, .identifier own] <:+: tokensOf x.textPieces := by
  obtain ⟨number, text, mantissa, isNumber⟩ := x.shortest.mantissaPiece_eq
  obtain ⟨own, rest, exponent⟩ := Decimal.exponentPieces_eq
    (x.shortest.exponent + (digits x.shortest.significand).tail.length)
  refine ⟨number, own, isNumber, ?_⟩
  -- A sign may stand in front; the exponent may have more pieces behind its name.
  rw [Binary64.textPieces, if_neg (mt x.isPositional_iff.mp large), Decimal.scientificPieces,
    mantissa, exponent, tokensOf_append]
  exact List.infix_append_of_infix_right ⟨[], tokensOf rest, rfl⟩

/-! ## Parsing again -/

section Again

variable {config : RenderConfig} {source : String} {p : Pattern} {text : List Char}

/-- A pattern of moderate numbers, `IsModerate`, that was parsed is parsed from its text. -/
theorem parse_of_isModerate (parsed : Pattern.parse source = .ok p)
    (printed : Print.pattern config p = .ok text)
    (moderate : ∀ x, Expression.literal (.float x) ∈ p.values → x.IsModerate) :
    Pattern.parse (String.ofList text) = .ok p := by
  obtain ⟨-, -, derived⟩ := Pattern.parse_eq_ok_iff.mp parsed
  have readable : ∀ value ∈ p.values, value.IsReadable := by
    intro value member
    obtain ⟨part, inside, isValue⟩ := derived.yields value member
    refine isValue.isReadable (fun token among => isScanned_scan token (inside among)) ?_
    rintro x rfl
    exact moderate x member
  exact parse_printed derived.elements_ne_nil derived.hasSteps readable printed

/-- The text of a pattern that was parsed is parsed only if the numbers are of moderate size,
`IsModerate`: a derivation would have a name behind a number. -/
theorem isModerate_of_parse {q : Pattern} (parsed : Pattern.parse source = .ok p)
    (printed : Print.pattern config p = .ok text)
    (again : Pattern.parse (String.ofList text) = .ok q) :
    ∀ x, Expression.literal (.float x) ∈ p.values → x.IsModerate := by
  obtain ⟨-, -, derived⟩ := Pattern.parse_eq_ok_iff.mp parsed
  have constant : ∀ value ∈ p.values, value.IsConstant := by
    intro value member
    obtain ⟨part, -, isValue⟩ := derived.yields value member
    exact isValue.isConstant
  intro x member
  by_contra large
  obtain ⟨-, -, derivedAgain⟩ := Pattern.parse_eq_ok_iff.mp again
  rw [tokens_scan, pieces_printed constant printed] at derivedAgain
  -- A name stands behind a number in the text of `x`, and so among the tokens that derive `q`.
  obtain ⟨number, own, isNumber, adjacent⟩ := infix_textPieces large
  have inside := (infix_pattern config member).filterMap Piece.token?
  have chain := derivedAgain.isChain.infix (adjacent.trans inside)
  have nameless : (Token.identifier own).name? = none := List.isChain_pair.mp chain isNumber
  cases nameless

end Again

/-- The text of a pattern that was parsed, if there is one, is parsed as that pattern and no other
one, and it is parsed at all exactly if each number with a point is of moderate size,
`IsModerate`. -/
theorem reparsing_iff_moderate (config : RenderConfig) (source text : String) (p : Pattern)
    (parsed : Pattern.parse source = .ok p)
    (rendered : Renderer.renderPattern ⟨config⟩ p = .ok text) (q : Pattern) :
    Pattern.parse text = .ok q ↔
      q = p ∧ ∀ x, Expression.literal (.float x) ∈ p.values → x.IsModerate := by
  obtain ⟨chars, printed, rfl⟩ := Renderer.renderPattern_eq_ok.mp rendered
  constructor
  · intro again
    have moderate := isModerate_of_parse parsed printed again
    have same := again.symm.trans (parse_of_isModerate parsed printed moderate)
    exact ⟨Except.ok.inj same, moderate⟩
  · rintro ⟨rfl, moderate⟩
    exact parse_of_isModerate parsed printed moderate

/-- A text with blanks, zeros and letters that the text of its pattern does not have. -/
def looseSource : String :=
  "(\x60a\x60\x60b\x60:match\x7bd: - 00.00010, t: tRuE\x7d)<-[ :A|:B ]-(\x7b\x7d)"

/-- The pattern of the loosely written text. -/
def loosePattern : Pattern :=
  ⟨[.chain
      ⟨⟨some "a\x60b", ["match"],
          some ⟨[⟨"d", .literal (.float ⟨true, 0x3F1A36E2EB1C432D#63⟩)⟩,
            ⟨"t", .literal (.boolean true)⟩]⟩⟩,
        [⟨⟨none, ["A", "B"], none, .incoming⟩, ⟨none, [], some ⟨[]⟩⟩⟩]⟩]⟩

/-- The text `looseSource` is parsed as `loosePattern`. -/
theorem parse_looseSource : Pattern.parse looseSource = .ok loosePattern := by
  have tokens : (scan looseSource).tokens.map Located.value =
      [.leftParen, .quotedName "a\x60b", .colon, .identifier "match", .leftBrace,
        .identifier "d", .colon, .dash, .float ⟨false, 0x3F1A36E2EB1C432D#63⟩, .comma,
        .identifier "t", .colon, .identifier "tRuE", .rightBrace, .rightParen, .leftArrow,
        .leftBracket, .colon, .identifier "A", .pipe, .colon, .identifier "B", .rightBracket,
        .dash, .leftParen, .leftBrace, .rightBrace, .rightParen] := by
    decide +kernel
  have number : Grammar.Entry
      [.identifier "d", .colon, .dash, .float ⟨false, 0x3F1A36E2EB1C432D#63⟩] _ :=
    .intro rfl (.negativeFloat _)
  have truth : Grammar.Entry [.identifier "t", .colon, .identifier "tRuE"] _ :=
    .intro rfl (.word rfl)
  have labels : Grammar.Labels [.colon, .identifier "match"] _ := .more rfl .none
  have types : Grammar.Types [.colon, .identifier "A", .pipe, .colon, .identifier "B"] _ :=
    .some rfl (.barColon rfl .none)
  have own : Grammar.OptionalName [.quotedName "a\x60b"] _ := .present rfl
  have start := Grammar.Node.intro own labels (.entries (.more number (.one truth)))
  have step := Grammar.Relationship.intro .incoming (.present .absent types .absent)
  have clean : (scan looseSource).isClean = true := by decide +kernel
  exact parse_of_derived clean tokens
    (.intro (.one (.chain start (.more step (.intro .absent .none .empty) .none))))

/-- A pattern that was parsed from the loosely written `looseSource` is parsed from its own text
again. -/
theorem reparsing_loosePattern :
    Pattern.parse looseSource = .ok loosePattern ∧
    ∃ text, Renderer.renderPattern ⟨.plain⟩ loosePattern = .ok text ∧
      Pattern.parse text = .ok loosePattern := by
  obtain ⟨text, printed⟩ : ∃ text, Print.pattern .plain loosePattern = .ok text := ⟨_, rfl⟩
  have rendered := Renderer.renderPattern_eq_ok.mpr ⟨text, printed, rfl⟩
  have readable : ∀ value ∈ loosePattern.values, value.IsReadable := by decide +kernel
  have moderate : ∀ x, Expression.literal (.float x) ∈ loosePattern.values → x.IsModerate :=
    fun x member => readable (.literal (.float x)) member
  exact ⟨parse_looseSource, String.ofList text, rendered,
    (reparsing_iff_moderate .plain looseSource _ loosePattern parse_looseSource rendered _).mpr
      ⟨rfl, moderate⟩⟩

/-- The number `10 ^ 16`, the least positive one that has an exponent for its size. -/
def leastLarge : Binary64 :=
  ⟨false, 0x4341C37937E08000#63⟩

/-- A pattern with a number that needs an exponent. -/
def largePattern : Pattern :=
  ⟨[.node ⟨some "n", [], some ⟨[⟨"x", .literal (.float leastLarge)⟩]⟩⟩]⟩

/-- The pattern `largePattern` is what its text with all digits stands for. -/
theorem parse_largeSource :
    Pattern.parse "(n \x7bx: 10000000000000000.0\x7d)" = .ok largePattern := by
  have tokens : (scan "(n \x7bx: 10000000000000000.0\x7d)").tokens.map Located.value =
      [.leftParen, .identifier "n", .leftBrace, .identifier "x", .colon, .float leastLarge,
        .rightBrace, .rightParen] := by
    decide +kernel
  have clean : (scan "(n \x7bx: 10000000000000000.0\x7d)").isClean = true := by decide +kernel
  have number : Grammar.Entry [.identifier "x", .colon, .float leastLarge] _ :=
    .intro rfl (.float leastLarge)
  exact parse_of_derived clean tokens
    (.intro (.one (.node (.intro (.present rfl) .none (.entries (.one number))))))

/-- The pattern `largePattern` can be parsed and has a text, but the text cannot be parsed. -/
theorem not_reparsing_largePattern :
    Pattern.parse "(n \x7bx: 10000000000000000.0\x7d)" = .ok largePattern ∧
    Renderer.renderPattern ⟨.plain⟩ largePattern = .ok "(n \x7bx: 1e16\x7d)" ∧
    ∀ q, Pattern.parse "(n \x7bx: 1e16\x7d)" ≠ .ok q := by
  -- The renderer writes what is shortest, and the scanner knows no exponents.
  have printed : Print.pattern .plain largePattern = .ok "(n \x7bx: 1e16\x7d)".toList := by
    decide +kernel
  have large : ¬ leastLarge.IsModerate := by decide +kernel
  have rendered := Renderer.renderPattern_eq_ok.mpr ⟨_, printed, String.ofList_toList⟩
  refine ⟨parse_largeSource, rendered, fun q again => ?_⟩
  rw [← String.ofList_toList (s := "(n \x7bx: 1e16\x7d)")] at again
  exact large (isModerate_of_parse parse_largeSource printed again leastLarge List.mem_cons_self)

end CypherQuery
