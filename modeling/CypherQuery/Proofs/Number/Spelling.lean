import CypherQuery.Proofs.Number.Exactness
import CypherQuery.Proofs.Token.Splitting

/-! # Numbers as tokens

How the texts of integers and of floating-point numbers are cut into pieces: `spells_signedDigits`
and `spells_text`. A number that is written with a point and no exponent is one token, and that
token has the value of the number (`splits_positional`). A number with an exponent is never one
token: its exponent starts like a name (`splits_exponent`). -/

namespace CypherQuery

open Scan

/-- Whether a token is a number, an `integer` or a `float`. -/
def Token.isNumber : Token → Bool
  | .integer _ | .float _ => true
  | _ => false

/-- A number token is an `integer` or has a point, `float`. -/
theorem Token.integer_or_float {token : Token} (number : token.isNumber = true) :
    (∃ n, token = .integer n) ∨ ∃ x, token = .float x := by
  unfold isNumber at number
  split at number
  · exact .inl ⟨_, rfl⟩
  · exact .inr ⟨_, rfl⟩
  · cases number

/-! ## Digits -/

/-- The `digits` of a number are digits. -/
theorem isDigit_of_mem_digits {n : Nat} : ∀ c ∈ digits n, c.isDigit = true :=
  fun _ member => Nat.isDigit_of_mem_toDigits (by decide) (by decide) member

/-- Zeros in front do not change what `ofDigits` reads. -/
theorem ofDigits_zeros (places : Nat) (text : List Char) :
    ofDigits (List.replicate places '0' ++ text) = ofDigits text := by
  rw [ofDigits, Nat.ofDigitChars_append, Nat.ofDigitChars_replicate_zero, Nat.mul_zero, ofDigits]

/-- Zeros behind move a number to higher places: `ofDigits` is multiplied by `tenTo places`. -/
theorem ofDigits_append_zeros (text : List Char) (places : Nat) :
    ofDigits (text ++ List.replicate places '0') = ofDigits text * tenTo places := by
  rw [ofDigits, Nat.ofDigitChars_append, Nat.ofDigitChars_replicate_zero, Nat.mul_comm]
  rfl

/-- The value of one digit is at most `9`. -/
theorem ofDigits_one_le {c : Char} (digit : c.isDigit = true) : ofDigits [c] ≤ 9 := by
  obtain ⟨-, high⟩ := Char.isDigit_iff_toNat.mp digit
  have value : ofDigits [c] = 10 * 0 + (c.toNat - '0'.toNat) := rfl
  rw [value]
  have zero : '0'.toNat = 48 := rfl
  have nine : '9'.toNat = 57 := rfl
  omega

/-- The text starts with a digit; then it is `Solid`, and a minus sign before it is a piece of its
own. -/
def StartsWithDigit (text : List Char) : Prop :=
  ∃ c more, text = c :: more ∧ c.isDigit = true

/-- The `digits` of a number start with a digit. -/
theorem startsWithDigit_digits (n : Nat) : StartsWithDigit (digits n) := by
  obtain ⟨c, more, same⟩ := List.exists_cons_of_ne_nil (digits_ne_nil n)
  exact ⟨c, more, same, isDigit_of_mem_digits c (by rw [same]; exact List.mem_cons_self)⟩

/-- A text that starts with a digit is `Solid`. -/
theorem StartsWithDigit.solid {text : List Char} (starts : StartsWithDigit text) : Solid text := by
  obtain ⟨c, more, rfl, digit⟩ := starts
  exact ⟨c, more, rfl, not_isBlank_of_isDigit digit⟩

/-- A minus sign in front of a digit is the token `dash`. -/
theorem splits_minus {text : List Char} {parts : List Piece} (splits : Splits Apart text parts)
    (starts : StartsWithDigit text) :
    Splits Apart ('-' :: text) (.token .dash ['-'] :: parts) := by
  obtain ⟨c, more, rfl, digit⟩ := starts
  refine splits_dash.append splits fun rest _ => ?_
  intro arrow
  cases arrow
  exact absurd digit (by decide)

/-- What a signed integer, `signedDigits n`, is cut into. -/
def signedPieces (n : Int) : List Piece :=
  if n < 0 then [.token .dash ['-'], integer (digits n.natAbs)] else [integer (digits n.natAbs)]

/-- What holds of a `dash` and of the digits holds of every piece of a signed integer,
`signedPieces n`. -/
theorem forall_mem_signedPieces {P : Piece → Prop} {n : Int} (line : P (.token .dash ['-']))
    (number : P (integer (digits n.natAbs))) : ∀ part ∈ signedPieces n, P part := by
  rw [signedPieces]
  split
  · exact List.forall_mem_cons.mpr ⟨line, List.forall_mem_singleton.mpr number⟩
  · exact List.forall_mem_singleton.mpr number

/-- A signed integer is cut into its sign and its digits: `signedDigits n` spells
`signedPieces n`. -/
theorem spells_signedDigits (n : Int) : Spells (signedDigits n) (signedPieces n) := by
  have number := (splits_integer (digits_ne_nil n.natAbs) isDigit_of_mem_digits).weaken
    fun _ apart => Apart.endsNumber apart
  rw [signedDigits, signedPieces]
  -- The sign is a piece of its own; a digit behind it makes no arrow of it.
  by_cases negative : n < 0
  · rw [if_pos negative, if_pos negative]
    exact ⟨⟨'-', _, rfl, by decide⟩, splits_minus number (startsWithDigit_digits n.natAbs)⟩
  · rw [if_neg negative, if_neg negative]
    exact ⟨(startsWithDigit_digits n.natAbs).solid, number⟩

/-- The `digits` of a number that fits are the token of that number. -/
theorem integer_digits {n : Nat} (fits : n ≤ Int64.maxValue.toNatClampNeg) :
    integer (digits n) = .token (.integer (Int64.ofNat n)) (digits n) := by
  rw [integer, ofDigits_digits]
  exact if_pos fits

namespace Decimal

/-! ## With a point and no exponent -/

/-- Digits `whole` and `fraction` on both sides of a point that stand for the same number as the
decimal `d`. -/
structure Reads (d : Decimal) (whole fraction : List Char) : Prop where
  /-- There are digits before the point. -/
  whole_ne_nil : whole ≠ []
  /-- There are digits behind the point. -/
  fraction_ne_nil : fraction ≠ []
  /-- Before the point there are only digits. -/
  whole_digits : ∀ c ∈ whole, c.isDigit = true
  /-- Behind the point there are only digits. -/
  fraction_digits : ∀ c ∈ fraction, c.isDigit = true
  /-- The digits are read as the number nearest to the decimal, `d.nearest`. -/
  nearest_eq :
    Binary64.ofDecimal (ofDigits (whole ++ fraction)) (-(fraction.length : Int)) = d.nearest

/-- Zeros are digits. -/
theorem isDigit_of_mem_zeros {places : Nat} :
    ∀ c ∈ List.replicate places '0', c.isDigit = true :=
  fun c member => by rw [List.eq_of_mem_replicate member]; decide

/-- A single zero is a digit. -/
theorem isDigit_of_mem_zero : ∀ c ∈ ['0'], c.isDigit = true :=
  List.forall_mem_singleton.mpr (by decide)

/-- Another zero behind the digits, and one place less, is the same number under `ofDecimal`. -/
theorem ofDecimal_zero_behind (significand places : Nat) :
    Binary64.ofDecimal (significand * tenTo (places + 1)) (-1)
      = Binary64.ofDecimal significand places := by
  have scaled := Binary64.ofRatio_scale (show 0 < 10 by decide)
    (significand * tenTo places) (tenTo 0)
  rw [Nat.mul_assoc] at scaled
  have upward : (-(places : Int)).toNat = 0 := by omega
  show Binary64.ofRatio (_ * tenTo 0) (tenTo 1)
    = Binary64.ofRatio (significand * tenTo (Int.toNat places)) (tenTo (-(places : Int)).toNat)
  rw [upward, Int.toNat_natCast, ← scaled]
  exact congrArg (Binary64.ofRatio · _) (Nat.mul_one _)

/-- The text `d.positional` is digits around a point that are read, `Reads`, as the number nearest
to the decimal. -/
theorem positional_reads (d : Decimal) :
    ∃ whole fraction, d.positional = whole ++ '.' :: fraction ∧ d.Reads whole fraction := by
  obtain ⟨significand, exponent⟩ := d
  have nonempty := digits_ne_nil significand
  simp only [positional]
  by_cases none : (-exponent).toNat = 0
  · rw [if_pos none]
    -- All digits stand before the point, with a zero behind it.
    refine ⟨digits significand ++ List.replicate exponent.toNat '0', ['0'], rfl, ?_,
      List.cons_ne_nil _ _, ?_, isDigit_of_mem_zero, ?_⟩
    · exact fun empty => nonempty (List.append_eq_nil_iff.mp empty).1
    · exact List.forall_mem_append.mpr ⟨isDigit_of_mem_digits, isDigit_of_mem_zeros⟩
    · have zeros : ['0'] = List.replicate 1 '0' := rfl
      rw [zeros, List.append_assoc, List.replicate_append_replicate, ofDigits_append_zeros,
        ofDigits_digits]
      have upward : (exponent.toNat : Int) = exponent := by omega
      refine (ofDecimal_zero_behind significand exponent.toNat).trans ?_
      rw [upward, nearest]
  · rw [if_neg none]
    by_cases inside : (-exponent).toNat < (digits significand).length
    · rw [if_pos inside]
      -- The point stands between the digits.
      refine ⟨_, _, rfl, ?_, ?_, ?_, ?_, ?_⟩
      · intro empty
        have length := congrArg List.length empty
        rw [List.length_take, List.length_nil] at length
        omega
      · intro empty
        have length := congrArg List.length empty
        rw [List.length_drop, List.length_nil] at length
        omega
      · exact fun c member => isDigit_of_mem_digits c (List.mem_of_mem_take member)
      · exact fun c member => isDigit_of_mem_digits c (List.mem_of_mem_drop member)
      · have places : -((digits significand).length
            - ((digits significand).length - (-exponent).toNat) : Nat) = exponent := by
          omega
        rw [List.take_append_drop, ofDigits_digits, List.length_drop, places, nearest]
    · rw [if_neg inside]
      -- All digits stand behind the point, with zeros in front of them.
      refine ⟨['0'], List.replicate ((-exponent).toNat - (digits significand).length) '0'
        ++ digits significand, rfl, List.cons_ne_nil _ _, ?_, isDigit_of_mem_zero, ?_, ?_⟩
      · exact fun empty => nonempty (List.append_eq_nil_iff.mp empty).2
      · exact List.forall_mem_append.mpr ⟨isDigit_of_mem_zeros, isDigit_of_mem_digits⟩
      · have zeros : ['0'] = List.replicate 1 '0' := rfl
        have places : -((((-exponent).toNat - (digits significand).length)
            + (digits significand).length : Nat) : Int) = exponent := by
          omega
        rw [zeros, ofDigits_zeros, ofDigits_zeros, ofDigits_digits, List.length_append,
          List.length_replicate, places, nearest]

/-- The text `d.positional` is one token, a `float` with the value `d.nearest`. -/
theorem splits_positional (d : Decimal) :
    Splits EndsNumber d.positional [.token (.float d.nearest) d.positional] := by
  obtain ⟨whole, fraction, same, reads⟩ := d.positional_reads
  have splits := splits_float whole fraction reads.whole_ne_nil reads.fraction_ne_nil
    reads.whole_digits reads.fraction_digits
  rw [floatPiece, reads.nearest_eq, ← same] at splits
  exact splits

/-! ## With an exponent -/

/-- What stands before the exponent: one digit, an `integer`, or one digit, a point and further
digits, a `floatPiece`. -/
def mantissaPiece (d : Decimal) : Piece :=
  if (digits d.significand).tail.isEmpty then integer ((digits d.significand).take 1)
  else floatPiece ((digits d.significand).take 1) (digits d.significand).tail

/-- What an exponent is cut into: a name that starts with `e`, or the name `e`, a `dash` and an
integer. -/
def exponentPieces (n : Int) : List Piece :=
  if n < 0 then bareName "e" :: signedPieces n
  else [bareName (String.ofList ('e' :: digits n.natAbs))]

/-- What a number with an exponent is cut into: its `mantissaPiece` and its `exponentPieces`. -/
def scientificPieces (d : Decimal) : List Piece :=
  d.mantissaPiece :: exponentPieces (d.exponent + (digits d.significand).tail.length)

/-- An exponent is a name, with an integer behind a `dash` if it is negative. -/
theorem splits_exponent (n : Int) :
    Splits Apart ('e' :: signedDigits n) (exponentPieces n) := by
  rw [exponentPieces]
  -- Without a sign the digits go on with the name that the letter starts.
  by_cases negative : n < 0
  · rw [if_pos negative]
    have letter := splits_bareName (show Name.isIdentifier "e" = true by decide)
    have signed := (spells_signedDigits n).splits
    rw [signedDigits, if_pos negative] at signed ⊢
    exact letter.append signed fun rest _ => apart_cons (by decide) _
  · have identifier : Name.isIdentifier (String.ofList ('e' :: digits n.natAbs)) = true := by
      rw [Name.isIdentifier, String.toList_ofList, Bool.and_eq_true, List.all_eq_true]
      exact ⟨by decide, fun c member => isPart_of_isDigit (isDigit_of_mem_digits c member)⟩
    have name := splits_bareName identifier
    rw [String.toList_ofList] at name
    rw [if_neg negative, signedDigits, if_neg negative]
    exact name

/-- A number with an exponent, `d.scientific`, is cut in front of its exponent. -/
theorem splits_scientific (d : Decimal) : Splits Apart d.scientific d.scientificPieces := by
  obtain ⟨c, others, same⟩ := List.exists_cons_of_ne_nil (digits_ne_nil d.significand)
  have all := isDigit_of_mem_digits (n := d.significand)
  rw [same, List.forall_mem_cons] at all
  simp only [scientific, scientificPieces, mantissaPiece, same, List.take_succ_cons, List.take_zero,
    List.tail_cons]
  have exponent := splits_exponent (d.exponent + others.length)
  have letter (rest : List Char) : EndsNumber ('e' :: rest) :=
    ⟨by decide, fun point => absurd point (by decide)⟩
  have one : ∀ digit ∈ [c], digit.isDigit = true := by
    intro digit member
    rw [List.mem_singleton.mp member]
    exact all.1
  -- A single digit has no point behind it and is an integer.
  cases others with
  | nil =>
      exact (splits_integer (List.cons_ne_nil c []) one).append exponent fun rest _ => letter _
  | cons d others =>
      have mantissa := splits_float [c] (d :: others) (List.cons_ne_nil c [])
        (List.cons_ne_nil d others) one all.2
      exact mantissa.append exponent fun rest _ => letter _

/-- The text `positional` starts with a digit. -/
theorem startsWithDigit_positional (d : Decimal) : StartsWithDigit d.positional := by
  obtain ⟨whole, fraction, same, reads⟩ := d.positional_reads
  obtain ⟨c, more, rfl⟩ := List.exists_cons_of_ne_nil reads.whole_ne_nil
  exact ⟨c, more ++ '.' :: fraction, same, reads.whole_digits c List.mem_cons_self⟩

/-- The text `scientific` starts with a digit. -/
theorem startsWithDigit_scientific (d : Decimal) : StartsWithDigit d.scientific := by
  obtain ⟨c, more, same, digit⟩ := startsWithDigit_digits d.significand
  simp only [scientific, same]
  exact ⟨c, _, rfl, digit⟩

/-- What stands before the exponent, `mantissaPiece`, is a token that `isNumber`. -/
theorem mantissaPiece_eq (d : Decimal) :
    ∃ token text, d.mantissaPiece = .token token text ∧ token.isNumber = true := by
  obtain ⟨c, more, same, digit⟩ := startsWithDigit_digits d.significand
  rw [mantissaPiece, same]
  cases more with
  | nil =>
      -- One digit always fits.
      have small := ofDigits_one_le digit
      have fits : ofDigits [c] ≤ Int64.maxValue.toNatClampNeg := Nat.le_trans small (by decide)
      exact ⟨.integer (Int64.ofNat (ofDigits [c])), [c], if_pos fits, rfl⟩
  | cons d more => exact ⟨_, _, rfl, rfl⟩

/-- An exponent starts with a `bareName`. -/
theorem exponentPieces_eq (n : Int) :
    ∃ name rest, exponentPieces n = bareName name :: rest := by
  rw [exponentPieces]
  by_cases negative : n < 0
  · exact ⟨_, _, if_pos negative⟩
  · exact ⟨_, _, if_neg negative⟩

end Decimal

namespace Binary64

/-! ## With a sign -/

/-- The text of a number without exponent and sign: `0.0`, or `positional` of the shortest
decimal. -/
def positionalText (x : Binary64) : List Char :=
  if x.magnitude = 0#63 then ['0', '.', '0'] else x.shortest.positional

/-- What the text of a finite number, `x.text`, is cut into. -/
def textPieces (x : Binary64) : List Piece :=
  let sign := if x.negative then [.token .dash ['-']] else []
  sign ++ if x.isPositional then [.token (.float x.abs) x.positionalText]
    else x.shortest.scientificPieces

/-- What holds of a `dash`, of the numbers and of the pieces of the exponent holds of every piece of
a finite number, `x.textPieces`. -/
theorem forall_mem_textPieces {P : Piece → Prop} {x : Binary64} (line : P (.token .dash ['-']))
    (number : ∀ token text, token.isNumber = true → P (.token token text))
    (exponent : ∀ part ∈ Decimal.exponentPieces
      (x.shortest.exponent + (digits x.shortest.significand).tail.length), P part) :
    ∀ part ∈ x.textPieces, P part := by
  have sign : ∀ part ∈ (if x.negative then [Piece.token .dash ['-']] else []), P part := by
    split
    · exact List.forall_mem_singleton.mpr line
    · exact List.forall_mem_nil _
  refine List.forall_mem_append.mpr ⟨sign, ?_⟩
  split
  · exact List.forall_mem_singleton.mpr (number _ _ rfl)
  · obtain ⟨token, text, mantissa, isNumber⟩ := x.shortest.mantissaPiece_eq
    rw [Decimal.scientificPieces, mantissa]
    exact List.forall_mem_cons.mpr ⟨number token text isNumber, exponent⟩

/-- The digits of `0.0` are read as `zero`. -/
theorem ofDecimal_zero : ofDecimal (ofDigits ['0', '0']) (-1) = zero := by
  decide +kernel

/-- The text of a finite number without exponent and sign, `positionalText`, is one token with its
absolute value, `x.abs`. -/
theorem splits_positionalText {x : Binary64} (finite : x.isFinite = true) :
    Splits Apart x.positionalText [.token (.float x.abs) x.positionalText] := by
  rw [positionalText]
  -- Zero has no shortest decimal, and its text is fixed.
  by_cases none : x.magnitude = 0#63
  · have same : x.abs = zero := by rw [abs, none]; rfl
    rw [if_pos none, same, ← ofDecimal_zero]
    have splits := splits_float ['0'] ['0'] (List.cons_ne_nil _ _) (List.cons_ne_nil _ _)
      Decimal.isDigit_of_mem_zero Decimal.isDigit_of_mem_zero
    exact splits.weaken fun _ apart => Apart.endsNumber apart
  · rw [if_neg none, ← nearest_shortest finite]
    exact x.shortest.splits_positional.weaken fun _ apart => Apart.endsNumber apart

/-- The text of a number without exponent and sign, `positionalText`, starts with a digit. -/
theorem startsWithDigit_positionalText (x : Binary64) : StartsWithDigit x.positionalText := by
  rw [positionalText]
  by_cases none : x.magnitude = 0#63
  · rw [if_pos none]
    exact ⟨'0', ['.', '0'], rfl, by decide⟩
  · rw [if_neg none]
    exact x.shortest.startsWithDigit_positional

/-- The text of a finite number is its sign and what stands behind the sign: `positionalText`, or
`scientific` of the shortest decimal. -/
theorem text_eq {x : Binary64} (finite : x.isFinite = true) :
    x.text = (if x.negative then ['-'] else []) ++
      if x.isPositional then x.positionalText else x.shortest.scientific := by
  have number : x.isNaN = false := by
    rw [isFinite, decide_eq_true_eq, BitVec.lt_def] at finite
    rw [isNaN, decide_eq_false_iff_not, BitVec.lt_def]
    exact Nat.not_lt.mpr (Nat.le_of_lt finite)
  rw [text, number, finite, positionalText]
  -- Zero needs no exponent, so both ways to write it agree.
  by_cases none : x.magnitude = 0#63
  · have positional : x.isPositional = true := by
      rw [isPositional_iff]
      exact .inl ((units_eq_zero_iff x).mpr none)
    simp [none, positional]
  · simp [none]

/-- The text of a finite number is cut into its sign and its digits: `x.text` spells
`x.textPieces`. -/
theorem spells_text {x : Binary64} (finite : x.isFinite = true) : Spells x.text x.textPieces := by
  have body : Splits Apart (if x.isPositional then x.positionalText else x.shortest.scientific)
      (if x.isPositional then [.token (.float x.abs) x.positionalText]
        else x.shortest.scientificPieces) ∧
      StartsWithDigit (if x.isPositional then x.positionalText else x.shortest.scientific) := by
    by_cases positional : x.isPositional = true
    · rw [if_pos positional, if_pos positional]
      exact ⟨splits_positionalText finite, x.startsWithDigit_positionalText⟩
    · rw [if_neg positional, if_neg positional]
      exact ⟨x.shortest.splits_scientific, x.shortest.startsWithDigit_scientific⟩
  rw [text_eq finite, textPieces]
  cases x.negative with
  | false => exact ⟨body.2.solid, body.1⟩
  | true => exact ⟨⟨'-', _, rfl, by decide⟩, splits_minus body.1 body.2⟩

end Binary64

end CypherQuery
