import CypherQuery.Proofs.Number.Spelling
import CypherQuery.Render.Word
import Mathlib.Data.List.Basic

/-! # Different constants have different texts

Digits, a sign, a point and an exponent can be told apart in the text of a number, so the text of a
finite number determines the number (`Binary64.text_injective`): without an exponent because it is
read back as the number, and with one because it shows every digit and the exponent. The main
statement is that no two constants have the same text, `Literal.text_injective`. -/

namespace CypherQuery

open Scan

/-! ## Integers -/

/-- The text `signedDigits` of an integer starts with a minus sign or a digit. -/
theorem signedDigits_head (n : Int) :
    ∃ c more, signedDigits n = c :: more ∧ (c = '-' ∨ c.isDigit = true) := by
  rw [signedDigits]
  by_cases negative : n < 0
  · rw [if_pos negative]
    exact ⟨'-', _, rfl, .inl rfl⟩
  · rw [if_neg negative]
    obtain ⟨c, more, same, digit⟩ := startsWithDigit_digits n.natAbs
    exact ⟨c, more, same, .inr digit⟩

/-- In the text `signedDigits` of an integer there are only digits behind the sign. -/
theorem mem_signedDigits {n : Int} {c : Char} (member : c ∈ signedDigits n) :
    c = '-' ∨ c.isDigit = true := by
  rw [signedDigits] at member
  split at member
  · rcases List.mem_cons.mp member with sign | digit
    · exact .inl sign
    · exact .inr (isDigit_of_mem_digits c digit)
  · exact .inr (isDigit_of_mem_digits c member)

/-- Different numbers have different `digits`, since `ofDigits` reads them back. -/
theorem digits_injective {m n : Nat} (same : digits m = digits n) : m = n := by
  rw [← ofDigits_digits m, same, ofDigits_digits]

/-- No `digits n` are a text with a minus sign. -/
theorem digits_ne_minus (n : Nat) (text : List Char) : digits n ≠ '-' :: text := by
  intro same
  have digit := isDigit_of_mem_digits (n := n) '-' (by rw [same]; exact List.mem_cons_self)
  exact absurd digit (by decide)

/-- Different integers have different texts, `signedDigits`. -/
theorem signedDigits_injective {m n : Int} (same : signedDigits m = signedDigits n) : m = n := by
  rw [signedDigits, signedDigits] at same
  by_cases first : m < 0
  · by_cases second : n < 0
    · rw [if_pos first, if_pos second] at same
      have := digits_injective (List.cons.inj same).2
      omega
    · rw [if_pos first, if_neg second] at same
      exact absurd same.symm (digits_ne_minus _ _)
  · by_cases second : n < 0
    · rw [if_neg first, if_pos second] at same
      exact absurd same (digits_ne_minus _ _)
    · rw [if_neg first, if_neg second] at same
      have := digits_injective same
      omega

namespace Decimal

/-- What stands before the exponent of a decimal in `scientific`. -/
def mantissa (d : Decimal) : List Char :=
  (digits d.significand).take 1 ++
    if (digits d.significand).tail.isEmpty then [] else '.' :: (digits d.significand).tail

/-- The text `scientific` of a decimal is its `mantissa`, the mark of the exponent and the
exponent. -/
theorem scientific_eq (d : Decimal) :
    d.scientific = d.mantissa ++
      'e' :: signedDigits (d.exponent + (digits d.significand).tail.length) := rfl

/-- A `mantissa` holds the digits of the decimal, and at most a point besides. -/
theorem mantissa_spec (d : Decimal) :
    d.mantissa.filter Char.isDigit = digits d.significand ∧ 'e' ∉ d.mantissa := by
  have all := isDigit_of_mem_digits (n := d.significand)
  rw [mantissa]
  generalize digits d.significand = text at all
  rcases text with _ | ⟨c, others⟩
  · exact ⟨rfl, List.not_mem_nil⟩
  · obtain ⟨digit, behind⟩ := List.forall_mem_cons.mp all
    have letter : 'e' ≠ c := by
      rintro rfl
      exact absurd digit (by decide)
    have letters : 'e' ∉ others := fun member => absurd (behind 'e' member) (by decide)
    have point : Char.isDigit '.' = false := by decide
    have kept : others.filter Char.isDigit = others := List.filter_eq_self.mpr behind
    rcases others with _ | ⟨d, others⟩
    · simp [digit, letter]
    · simp only [List.mem_cons, not_or] at letters
      simp [digit, letter, point, kept, letters]

/-- Different decimals have different texts `scientific`. -/
theorem scientific_injective {d other : Decimal} (same : d.scientific = other.scientific) :
    d = other := by
  obtain ⟨held, free⟩ := d.mantissa_spec
  obtain ⟨otherHeld, -⟩ := other.mantissa_spec
  -- The mark of the exponent is the only `e`, so it ends the mantissa of either decimal.
  have behind (n : Int) : 'e' ∉ signedDigits n := fun member =>
    absurd (mem_signedDigits member) (by decide)
  rw [scientific_eq, scientific_eq, List.append_cons_inj_of_notMem free (behind _)] at same
  obtain ⟨mantissas, -, exponents⟩ := same
  have significands : digits d.significand = digits other.significand := by
    rw [← held, mantissas, otherHeld]
  have sums := signedDigits_injective exponents
  rw [significands] at sums
  obtain ⟨significand, exponent⟩ := d
  obtain ⟨otherSignificand, otherExponent⟩ := other
  have numbers : significand = otherSignificand := digits_injective significands
  have powers : exponent = otherExponent := by
    simp only at sums
    omega
  rw [numbers, powers]

end Decimal

/-! ## Floating-point numbers -/

namespace Binary64

/-- The text of a finite number behind its sign: `positionalText`, or `scientific` of the shortest
decimal. -/
def unsignedText (x : Binary64) : List Char :=
  if x.isPositional then x.positionalText else x.shortest.scientific

/-- The `unsignedText` of a finite number starts with a digit. -/
theorem startsWithDigit_unsignedText (x : Binary64) : StartsWithDigit x.unsignedText := by
  rw [unsignedText]
  split
  · exact x.startsWithDigit_positionalText
  · exact x.shortest.startsWithDigit_scientific

/-- The `unsignedText` of a finite number has a point or an exponent. -/
theorem mem_unsignedText (x : Binary64) : '.' ∈ x.unsignedText ∨ 'e' ∈ x.unsignedText := by
  rw [unsignedText, positionalText]
  split
  · left
    split
    · decide
    · obtain ⟨whole, fraction, same, -⟩ := x.shortest.positional_reads
      rw [same]
      exact List.mem_append_right whole List.mem_cons_self
  · right
    rw [Decimal.scientific_eq]
    exact List.mem_append_right _ List.mem_cons_self

/-- The `unsignedText` of a finite number is one piece exactly if it has no exponent,
`isPositional`. -/
theorem length_pieces_unsignedText {x : Binary64} (finite : x.isFinite = true) :
    (pieces x.unsignedText).length = 1 ↔ x.isPositional = true := by
  rw [unsignedText]
  by_cases positional : x.isPositional = true
  · rw [if_pos positional, (splits_positionalText finite).pieces_eq trivial]
    exact ⟨fun _ => positional, fun _ => rfl⟩
  · obtain ⟨name, rest, exponent⟩ := Decimal.exponentPieces_eq
      (x.shortest.exponent + (digits x.shortest.significand).tail.length)
    rw [if_neg positional, x.shortest.splits_scientific.pieces_eq trivial,
      Decimal.scientificPieces, exponent]
    simp [positional]

/-- The `unsignedText` determines the absolute value `x.abs` of a finite number. -/
theorem abs_eq_of_unsignedText {x y : Binary64} (finite : x.isFinite = true)
    (other : y.isFinite = true) (same : x.unsignedText = y.unsignedText) : x.abs = y.abs := by
  have kinds : x.isPositional = true ↔ y.isPositional = true := by
    rw [← length_pieces_unsignedText finite, same, length_pieces_unsignedText other]
  rw [unsignedText, unsignedText] at same
  by_cases positional : x.isPositional = true
  · -- Without an exponent, the scanner reads the value off the text.
    rw [if_pos positional, if_pos (kinds.mp positional)] at same
    have pieces := (splits_positionalText finite).pieces_eq trivial
    rw [same, (splits_positionalText other).pieces_eq trivial, List.cons.injEq,
      Piece.token.injEq, Token.float.injEq] at pieces
    exact pieces.1.1.symm
  · -- With an exponent, the text shows the decimal, and that reads back.
    rw [if_neg positional, if_neg (positional ∘ kinds.mpr)] at same
    rw [← nearest_shortest finite, ← nearest_shortest other, Decimal.scientific_injective same]

/-- The `text` of a finite number starts with a minus sign or a digit. -/
theorem text_head {x : Binary64} (finite : x.isFinite = true) :
    ∃ c more, x.text = c :: more ∧ (c = '-' ∨ c.isDigit = true) := by
  obtain ⟨c, more, same, digit⟩ := x.startsWithDigit_unsignedText
  rw [text_eq finite, show (if x.isPositional then _ else _) = x.unsignedText from rfl, same]
  rcases x.negative with _ | _
  · exact ⟨c, more, rfl, .inr digit⟩
  · exact ⟨'-', c :: more, rfl, .inl rfl⟩

/-- Different finite numbers have different texts, `x.text`. -/
theorem text_injective {x y : Binary64} (finite : x.isFinite = true) (other : y.isFinite = true)
    (same : x.text = y.text) : x = y := by
  have unsigned (z : Binary64) : (if z.isPositional then z.positionalText
    else z.shortest.scientific) = z.unsignedText := rfl
  rw [text_eq finite, text_eq other, unsigned, unsigned] at same
  have signs := same
  obtain ⟨c, more, starts, digit⟩ := x.startsWithDigit_unsignedText
  obtain ⟨d, others, otherStarts, otherDigit⟩ := y.startsWithDigit_unsignedText
  rw [starts, otherStarts] at signs
  -- Only a sign starts with a minus sign, so the signs are the same.
  have signs : x.negative = y.negative := by
    revert signs
    rcases x.negative with _ | _ <;> rcases y.negative with _ | _
    · exact fun _ => rfl
    · intro mixed
      obtain rfl := (List.cons.inj mixed).1
      exact absurd digit (by decide)
    · intro mixed
      obtain rfl := (List.cons.inj mixed).1
      exact absurd otherDigit (by decide)
    · exact fun _ => rfl
  rw [signs] at same
  have magnitudes := abs_eq_of_unsignedText finite other (List.append_cancel_left same)
  obtain ⟨sign, magnitude⟩ := x
  obtain ⟨otherSign, otherMagnitude⟩ := y
  simp only [abs, mk.injEq, true_and] at magnitudes
  rw [magnitudes, show sign = otherSign from signs]

/-- No finite number has the text `signedDigits` of an integer. -/
theorem text_ne_signedDigits {x : Binary64} (finite : x.isFinite = true) (n : Int) :
    x.text ≠ signedDigits n := by
  intro same
  have within (c : Char) (member : c ∈ x.unsignedText) : c = '-' ∨ c.isDigit = true := by
    apply mem_signedDigits (n := n)
    rw [← same, text_eq finite]
    exact List.mem_append_right _ member
  rcases x.mem_unsignedText with point | letter
  · exact absurd (within '.' point) (by decide)
  · exact absurd (within 'e' letter) (by decide)

end Binary64

/-! ## Constants -/

/-- Different texts are quoted differently by `QuotedString.encode`. -/
theorem QuotedString.encode_injective {text other : List Char}
    (same : QuotedString.encode text = QuotedString.encode other) : text = other := by
  have inside : QuotedString.escape text = QuotedString.escape other :=
    List.append_cancel_right (List.cons.inj same).2
  rw [← QuotedString.unescape_escape text, inside, QuotedString.unescape_escape]

/-- A floating-point constant has a `literalText` if it is finite, the text of the number. -/
theorem literalText_float {x : Binary64} {text : List Char} :
    literalText (.float x) = .ok text ↔ x.isFinite = true ∧ x.text = text := by
  rw [literalText]
  by_cases finite : x.isFinite = true
  · rw [if_pos finite, Except.ok.injEq]
    exact ⟨fun same => ⟨finite, same⟩, And.right⟩
  · rw [if_neg finite]
    exact ⟨nofun, fun both => absurd both.1 finite⟩

namespace Literal

/-- Whether a constant is a number. -/
def isNumber : Literal → Bool
  | .integer _ | .float _ => true
  | .null | .boolean _ | .string _ => false

/-- The `literalText` of a constant starts with a minus sign or a digit exactly if it is a
number. -/
theorem text_head {value : Literal} {text : List Char} (written : literalText value = .ok text) :
    ∃ c more, text = c :: more ∧ (value.isNumber = true ↔ c = '-' ∨ c.isDigit = true) := by
  rcases value with _ | (_ | _) | n | x | content
  case integer =>
    cases written
    obtain ⟨c, more, same, numeric⟩ := signedDigits_head n.toInt
    exact ⟨c, more, same, fun _ => numeric, fun _ => rfl⟩
  case float =>
    obtain ⟨finite, rfl⟩ := literalText_float.mp written
    obtain ⟨c, more, same, numeric⟩ := Binary64.text_head finite
    exact ⟨c, more, same, fun _ => numeric, fun _ => rfl⟩
  case string =>
    cases written
    exact ⟨singleQuote, _, rfl, fun numeric => absurd numeric Bool.false_ne_true,
      fun sign => absurd sign (by decide)⟩
  all_goals
    cases written
    exact ⟨_, _, rfl, by decide⟩

/-- Different constants have a different `literalText`. -/
theorem text_injective {value other : Literal} {text : List Char}
    (written : literalText value = .ok text) (otherWritten : literalText other = .ok text) :
    value = other := by
  have kinds : value.isNumber = other.isNumber := by
    obtain ⟨c, more, rfl, numeric⟩ := text_head written
    obtain ⟨_, _, same, otherNumeric⟩ := text_head otherWritten
    obtain ⟨rfl, rfl⟩ := List.cons.inj same
    rw [Bool.eq_iff_iff, numeric, otherNumeric]
  cases value with
  | integer m =>
      cases written
      cases other with
      | integer n =>
          rw [literalText, Except.ok.injEq] at otherWritten
          rw [Int64.toInt_inj.mp (signedDigits_injective otherWritten).symm]
      | float y =>
          obtain ⟨finite, same⟩ := literalText_float.mp otherWritten
          exact absurd same (Binary64.text_ne_signedDigits finite _)
      | null | boolean _ | string _ => cases kinds
  | float x =>
      obtain ⟨finite, rfl⟩ := literalText_float.mp written
      cases other with
      | integer n =>
          rw [literalText, Except.ok.injEq] at otherWritten
          exact absurd otherWritten.symm (Binary64.text_ne_signedDigits finite _)
      | float y =>
          obtain ⟨otherFinite, same⟩ := literalText_float.mp otherWritten
          rw [Binary64.text_injective finite otherFinite same.symm]
      | null | boolean _ | string _ => cases kinds
  | string content =>
      cases written
      cases other with
      | string content' =>
          rw [literalText, Except.ok.injEq] at otherWritten
          rw [String.toList_inj.mp (QuotedString.encode_injective otherWritten)]
      | null => cases otherWritten
      | boolean b => cases b <;> cases otherWritten
      | integer _ | float _ => cases kinds
  | null =>
      cases written
      cases other with
      | null => rfl
      | boolean b => cases b <;> cases otherWritten
      | string _ => cases otherWritten
      | integer _ | float _ => cases kinds
  | boolean b =>
      cases other with
      | null => cases otherWritten; cases b <;> cases written
      | boolean c => cases b <;> cases written <;> cases c <;> cases otherWritten <;> rfl
      | string _ => cases otherWritten; cases b <;> cases written
      | integer _ | float _ => cases kinds

end Literal

end CypherQuery
