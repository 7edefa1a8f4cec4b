import CypherQuery.Proofs.PatternText.ErrorSpan
import CypherQuery.Proofs.PatternText.RoundTrip

/-! # Values that cannot be read back

The sign of an integer is no part of its token, and the scanner knows no quoted parameters. So two
kinds of property values have a text that is rejected: the least integer, whose digits alone are too
large, and a parameter whose name is no identifier. They are those with an `Expression.obstacle?`;
all other plain values are read back (`reading_back_integers_and_parameters`). -/

namespace CypherQuery

/-! ## Faults among the pieces of a pattern -/

/-- The texts of the faults among pieces, in order: those that are `isFault`. -/
def faultTexts (parts : List Piece) : List (List Char) :=
  (parts.filter Piece.isFault).map Piece.text

/-- The faults of pieces one after the other: `faultTexts` of an append. -/
theorem faultTexts_append (parts others : List Piece) :
    faultTexts (parts ++ others) = faultTexts parts ++ faultTexts others := by
  rw [faultTexts, List.filter_append, List.map_append, faultTexts, faultTexts]

/-- A piece in front that is no fault adds none to `faultTexts`. -/
theorem faultTexts_cons {part : Piece} (clean : part.isFault = false) (others : List Piece) :
    faultTexts (part :: others) = faultTexts others := by
  rw [faultTexts, List.filter_cons_of_neg (by simp [clean]), faultTexts]

/-- Pieces none of which is a fault have no `faultTexts`. -/
theorem faultTexts_of_clean {parts : List Piece} (clean : ∀ part ∈ parts, part.isFault = false) :
    faultTexts parts = [] := by
  rw [faultTexts, List.filter_eq_nil_iff.mpr fun part member => by simp [clean part member],
    List.map_nil]

section Faults

variable (config : RenderConfig)

open Spelling

/-- The faults of a value: `faultTexts` of its pieces. -/
def valueFaults (value : Expression) : List (List Char) :=
  faultTexts (expression config value)

/-- The faults of items with commas between them are those of the items, since `comma` has none. -/
theorem faultTexts_separated {α : Type} (spell : α → List Piece) (items : List α) :
    faultTexts (separated comma spell items) =
      items.flatMap fun item => faultTexts (spell item) := by
  induction items with
  | nil => rfl
  | cons item rest ih =>
      cases rest with
      | nil => simp [separated]
      | cons next rest =>
          have between : faultTexts comma = [] := rfl
          rw [separated, faultTexts_append, faultTexts_append, between, List.nil_append, ih]
          rfl

/-- The faults of an entry are the `valueFaults` of its value. -/
theorem faultTexts_entry (e : PropertyEntry) :
    faultTexts (entry config e) = valueFaults config e.value := by
  obtain ⟨token, text, same, -⟩ := name?_of_name config e.key
  rw [entry, same]
  rfl

/-- The faults of a property map that may be missing are the `valueFaults` of its values. -/
theorem faultTexts_properties (follows : Bool) (map : Option PropertyMap) :
    faultTexts (Spelling.optional (properties config follows) map) =
      (map.elim [] PropertyMap.values).flatMap (valueFaults config) := by
  cases map with
  | none => rfl
  | some map =>
      have blank : faultTexts (if follows then [] else [space]) = [] := by cases follows <;> rfl
      have closing : faultTexts [mark .rightBrace '\x7d'] = [] := rfl
      rw [Spelling.optional, properties, faultTexts_append, blank, faultTexts_cons rfl,
        faultTexts_append, closing, List.append_nil, List.nil_append, faultTexts_separated]
      simp [faultTexts_entry, PropertyMap.values, List.flatMap_map]

/-- The faults of a node are the `valueFaults` of its values. -/
theorem faultTexts_node (n : Node) :
    faultTexts (node config n) = n.values.flatMap (valueFaults config) := by
  have own := faultTexts_of_clean (derives_optionalName config n.name).clean
  have labels := faultTexts_of_clean (derives_labels config n.labels).clean
  have closing : faultTexts [mark .rightParen ')'] = [] := rfl
  rw [node, faultTexts_cons rfl, faultTexts_append, faultTexts_append, faultTexts_append, own,
    labels, closing, List.append_nil, List.nil_append, List.nil_append, faultTexts_properties,
    Node.values]

/-- The faults of a relationship are the `valueFaults` of its values. -/
theorem faultTexts_relationship (r : Relationship) :
    faultTexts (relationship config r) = r.values.flatMap (valueFaults config) := by
  have first : (opening r.direction).isFault = false := by cases r.direction <;> rfl
  have last : faultTexts [closing r.direction] = [] := by cases r.direction <;> rfl
  rw [relationship, faultTexts_cons first, faultTexts_append, last, List.append_nil]
  by_cases bare : r.isBare = true
  · obtain ⟨-, -, noMap⟩ := Relationship.isBare_iff.mp bare
    rw [if_pos bare, Relationship.values, noMap]
    rfl
  · have own := faultTexts_of_clean (derives_optionalName config r.name).clean
    have types := faultTexts_of_clean (derives_types config r.types).clean
    have closing : faultTexts [mark .rightBracket ']'] = [] := rfl
    rw [if_neg bare, details, faultTexts_cons rfl, faultTexts_append, faultTexts_append,
      faultTexts_append, own, types, closing, List.append_nil, List.nil_append, List.nil_append,
      faultTexts_properties, Relationship.values]

/-- The faults of steps are the `valueFaults` of their values. -/
theorem faultTexts_hops (steps : List Hop) :
    faultTexts (hops config steps) = (steps.flatMap Hop.values).flatMap (valueFaults config) := by
  induction steps with
  | nil => rfl
  | cons hop rest ih =>
      rw [hops, faultTexts_append, faultTexts_append, faultTexts_relationship, faultTexts_node, ih,
        List.flatMap_cons, Hop.values, List.flatMap_append, List.flatMap_append, List.append_assoc]

/-- The faults of an element are the `valueFaults` of its values. -/
theorem faultTexts_element (e : PatternElement) :
    faultTexts (element config e) = e.values.flatMap (valueFaults config) := by
  cases e with
  | node single => exact faultTexts_node config single
  | chain path =>
      rw [element, faultTexts_append, faultTexts_node, faultTexts_hops, PatternElement.values,
        List.flatMap_append]

/-- The faults of a pattern are those of its values, `p.values`, in their order. -/
theorem faultTexts_pattern (p : Pattern) :
    faultTexts (pattern config p) = p.values.flatMap (valueFaults config) := by
  rw [pattern, faultTexts_separated, Pattern.values, List.flatMap_assoc]
  exact List.flatMap_congr fun e _ => faultTexts_element config e

end Faults

/-! ## Obstacles -/

/-- Why the text of a plain value is rejected, if it is: the digits of the least integer are too
large, `outOfRange`, and nothing follows the mark of a parameter that is quoted,
`unexpectedInput`. -/
def Expression.obstacle? : Expression → Option PatternFault
  | .literal (.integer value) =>
      if value = Int64.minValue then some (.outOfRange "9223372036854775808") else none
  | .parameter own =>
      if Name.isIdentifier own then none else some (.unexpectedInput "$")
  | _ => none

/-- A plain value `IsReadable` if and only if there is no `obstacle?`. -/
theorem Expression.IsPlain.isReadable_iff {value : Expression} (plain : value.IsPlain) :
    value.IsReadable ↔ value.obstacle? = none := by
  cases value with
  | literal value =>
      cases value with
      | integer value => simp [IsReadable, Literal.IsReadable, obstacle?]
      | float value => exact ⟨fun _ => rfl, fun _ => plain⟩
      | _ => exact ⟨fun _ => rfl, fun _ => trivial⟩
  | parameter own => simp [IsReadable, obstacle?]
  | _ => cases plain

/-- The first fault of a plain value, read by `PatternFault.ofText`, is its `obstacle?`. -/
theorem Expression.IsPlain.head?_valueFaults (config : RenderConfig) {value : Expression}
    (plain : value.IsPlain) :
    (valueFaults config value).head?.map PatternFault.ofText = value.obstacle? := by
  by_cases readable : value.IsReadable
  · rw [plain.isReadable_iff.mp readable, valueFaults,
      faultTexts_of_clean (derives_value config readable).clean]
    rfl
  · cases value with
    | literal value =>
        cases value with
        | integer value =>
            have least : value = Int64.minValue := Decidable.not_not.mp readable
            subst least
            show (faultTexts (Spelling.literal (.integer Int64.minValue))).head?.map _ = _
            decide +kernel
        | float value => exact absurd plain readable
        | _ => exact absurd trivial readable
    | parameter own =>
        have quoted : ¬Name.isIdentifier own = true := readable
        rw [valueFaults, Spelling.expression, Spelling.parameter, if_neg quoted, obstacle?,
          if_neg quoted]
        show some (PatternFault.ofText ['$']) = _
        decide +kernel
    | _ => cases plain

/-- The first fault of plain values is the first `obstacle?`. -/
theorem head?_flatMap_valueFaults (config : RenderConfig) {values : List Expression}
    (plain : ∀ value ∈ values, value.IsPlain) :
    (values.flatMap (valueFaults config)).head?.map PatternFault.ofText =
      values.findSome? Expression.obstacle? := by
  induction values with
  | nil => rfl
  | cons value rest ih =>
      obtain ⟨own, others⟩ := List.forall_mem_cons.mp plain
      rw [List.flatMap_cons, List.head?_append, Option.map_or, own.head?_valueFaults, ih others,
        List.findSome?_cons]
      cases value.obstacle? <;> rfl

/-! ## Rejected texts -/

namespace Pattern

/-- The first fault among the pieces of a text is to blame, by `parse_of_faults`. -/
theorem parse_of_faultTexts {source : String} {text : List Char} {others : List (List Char)}
    (faulty : faultTexts (Scan.pieces source.toList) = text :: others) :
    ∃ span, parse source = .error ⟨.ofText text, span, source⟩ := by
  have slices := slices_scan source
  rw [← faultTexts, faulty] at slices
  obtain ⟨span, more, same, rfl, -⟩ := List.map_eq_cons_iff.mp slices
  exact ⟨span, parse_of_faults same⟩

/-- Digits are `outOfRange` only if they are too large without a sign, greater than
`Int64.maxValue`. -/
theorem parse_outOfRange {source digits : String} {error : PatternError}
    (failed : parse source = .error error) (large : error.fault = .outOfRange digits) :
    (∀ c ∈ digits.toList, c.isDigit = true) ∧
      Int64.maxValue.toNatClampNeg < ofDigits digits.toList := by
  obtain ⟨fault, others, faulty, covers, rfl⟩ := (fails_of_parse failed).outOfRange_iff.mp large
  have member : fault ∈ (scan source).faults := faulty ▸ List.mem_cons_self
  rw [String.toList_ofList]
  exact ⟨covers.2, ((coversDigits_iff member).mp covers).lt_ofDigits⟩

/-- The text of a pattern with plain values is parsed as the pattern exactly if all of them are
`IsReadable`; otherwise the first `obstacle?` is to blame. -/
theorem parse_printed_iff {config : RenderConfig} {p : Pattern} {text : List Char}
    (nonempty : p.elements ≠ []) (steps : ∀ e ∈ p.elements, e.HasSteps)
    (plain : ∀ value ∈ p.values, value.IsPlain)
    (printed : Print.pattern config p = .ok text) :
    (parse (String.ofList text) = .ok p ↔ ∀ value ∈ p.values, value.IsReadable) ∧
    ∀ fault, p.values.findSome? Expression.obstacle? = some fault →
      ∃ span, parse (String.ofList text) = .error ⟨fault, span, String.ofList text⟩ := by
  have rejected : ∀ fault, p.values.findSome? Expression.obstacle? = some fault →
      ∃ span, parse (String.ofList text) = .error ⟨fault, span, String.ofList text⟩ := by
    intro fault first
    have constant : ∀ value ∈ p.values, value.IsConstant :=
      fun value member => (plain value member).isConstant
    rw [← head?_flatMap_valueFaults config plain, ← faultTexts_pattern,
      ← pieces_printed constant printed] at first
    obtain ⟨own, faulty, rfl⟩ := Option.map_eq_some_iff.mp first
    obtain ⟨others, faulty⟩ := List.head?_eq_some_iff.mp faulty
    exact parse_of_faultTexts faulty
  refine ⟨⟨fun parsed value member => ?_, fun readable => ?_⟩, rejected⟩
  · rw [(plain value member).isReadable_iff]
    rcases found : p.values.findSome? Expression.obstacle? with _ | fault
    · exact List.findSome?_eq_none_iff.mp found value member
    · obtain ⟨span, failed⟩ := rejected fault found
      rw [parsed] at failed
      cases failed
  · exact parse_printed nonempty steps readable printed

end Pattern

/-- A pattern of plain values with names has a text. The text is parsed as the pattern exactly if
every integer in it is not the least one and every parameter is an identifier (`IsReadable`).
Otherwise the first of the others is to blame by its `obstacle?`, the integer because its digits are
`outOfRange`. No text is rejected for digits that are not too large without a sign. -/
theorem reading_back_integers_and_parameters (config : RenderConfig) (p : Pattern)
    (nonempty : p.elements ≠ []) (steps : ∀ e ∈ p.elements, e.HasSteps)
    (named : ∀ mention ∈ p.names, mention.text ≠ "")
    (plain : ∀ value ∈ p.values, value.IsPlain) :
    (∃ text, Renderer.renderPattern ⟨config⟩ p = .ok text ∧
      (Pattern.parse text = .ok p ↔ ∀ value ∈ p.values, value.IsReadable) ∧
      ∀ fault, p.values.findSome? Expression.obstacle? = some fault →
        ∃ span, Pattern.parse text = .error ⟨fault, span, text⟩) ∧
    ∀ source error digits, Pattern.parse source = .error error →
      error.fault = .outOfRange digits → Int64.maxValue.toNatClampNeg < ofDigits digits.toList := by
  refine ⟨?_, fun source error digits failed large =>
    (Pattern.parse_outOfRange failed large).2⟩
  obtain ⟨text, printed⟩ := exists_plainPattern config nonempty named plain
  obtain ⟨parsed, rejected⟩ := Pattern.parse_printed_iff nonempty steps plain printed
  exact ⟨String.ofList text, Renderer.renderPattern_eq_ok.mpr ⟨text, printed, rfl⟩, parsed,
    rejected⟩

/-- A node with a single property. -/
def singleProperty (value : Expression) : Pattern :=
  ⟨[.node ⟨some "n", [], some ⟨[⟨"x", value⟩]⟩⟩]⟩

/-- The integers next to the least and the greatest one, the greatest one itself, and a parameter
that is named like a word of the language. -/
def edgePattern : Pattern :=
  ⟨[.node
      ⟨none, [], some
        ⟨[⟨"a", .literal (.integer (Int64.minValue + 1))⟩,
          ⟨"b", .literal (.integer (Int64.maxValue - 1))⟩,
          ⟨"c", .literal (.integer Int64.maxValue)⟩,
          ⟨"d", .parameter "match"⟩]⟩⟩]⟩

/-- All integers of `edgePattern`, up to the edges, are read back, the least one excepted. -/
theorem reading_back_edgePattern :
    edgePattern.elements ≠ [] ∧ (∀ e ∈ edgePattern.elements, e.HasSteps) ∧
    (∀ mention ∈ edgePattern.names, mention.text ≠ "") ∧
    (∀ value ∈ edgePattern.values, value.IsPlain) ∧
    ∃ text, Renderer.renderPattern ⟨.plain⟩ edgePattern = .ok text ∧
      Pattern.parse text = .ok edgePattern := by
  have nonempty : edgePattern.elements ≠ [] := List.cons_ne_nil _ _
  have steps : ∀ e ∈ edgePattern.elements, e.HasSteps := by decide
  have named : ∀ mention ∈ edgePattern.names, mention.text ≠ "" := by decide
  have plain : ∀ value ∈ edgePattern.values, value.IsPlain := by decide +kernel
  have readable : ∀ value ∈ edgePattern.values, value.IsReadable := by decide +kernel
  obtain ⟨⟨text, rendered, parsed, -⟩, -⟩ :=
    reading_back_integers_and_parameters .plain edgePattern nonempty steps named plain
  exact ⟨nonempty, steps, named, plain, text, rendered, parsed.mpr readable⟩

/-- The least integer is rejected as `outOfRange`, and a parameter for the mark that it starts
with. -/
theorem not_reading_back_least_or_quoted :
    Renderer.renderPattern ⟨.plain⟩ (singleProperty (.literal (.integer Int64.minValue))) =
      .ok "(n \x7bx: -9223372036854775808\x7d)" ∧
    Pattern.parse "(n \x7bx: -9223372036854775808\x7d)" =
      .error ⟨.outOfRange "9223372036854775808", ⟨8, 27⟩,
        "(n \x7bx: -9223372036854775808\x7d)"⟩ ∧
    Renderer.renderPattern ⟨.plain⟩ (singleProperty (.parameter "a b")) =
      .ok "(n \x7bx: $\x60a b\x60\x7d)" ∧
    Pattern.parse "(n \x7bx: $\x60a b\x60\x7d)" =
      .error ⟨.unexpectedInput "$", ⟨7, 8⟩, "(n \x7bx: $\x60a b\x60\x7d)"⟩ := by
  have least : (scan "(n \x7bx: -9223372036854775808\x7d)").faults = [⟨8, 27⟩] := by
    decide +kernel
  have quoted : (scan "(n \x7bx: $\x60a b\x60\x7d)").faults = [⟨7, 8⟩] := by decide +kernel
  have digits : PatternFault.ofText
      (Span.slice ⟨8, 27⟩ "(n \x7bx: -9223372036854775808\x7d)".toList) =
        .outOfRange "9223372036854775808" := by
    decide +kernel
  have mark : PatternFault.ofText (Span.slice ⟨7, 8⟩ "(n \x7bx: $\x60a b\x60\x7d)".toList) =
      .unexpectedInput "$" := by
    decide +kernel
  have leastPrinted : Print.pattern .plain (singleProperty (.literal (.integer Int64.minValue))) =
      .ok "(n \x7bx: -9223372036854775808\x7d)".toList := by
    decide +kernel
  have quotedPrinted : Print.pattern .plain (singleProperty (.parameter "a b")) =
      .ok "(n \x7bx: $\x60a b\x60\x7d)".toList := by
    decide +kernel
  refine ⟨Renderer.renderPattern_eq_ok.mpr ⟨_, leastPrinted, String.ofList_toList⟩, ?_,
    Renderer.renderPattern_eq_ok.mpr ⟨_, quotedPrinted, String.ofList_toList⟩, ?_⟩
  · rw [Pattern.parse_of_faults least, digits]
  · rw [Pattern.parse_of_faults quoted, mark]

end CypherQuery
