import CypherQuery.Number.Binary64
import CypherQuery.Number.Digits

/-! # Rounding to binary floating point

The number `ofRatio num den` nearest to a ratio of two natural numbers, and from it the number
`ofDecimal significand exponent` nearest to a decimal. All of it is exact integer arithmetic on
multiples of `2 ^ (-1074)`. -/

namespace CypherQuery

/-- The quotient `num / den` rounded to the nearest natural number, a tie to the even neighbour. -/
def roundQuotient (num den : Nat) : Nat :=
  let quotient := num / den
  let twice := 2 * (num % den)
  if twice < den then quotient
  else if den < twice then quotient + 1
  else quotient + quotient % 2

/-- An exact quotient is its own rounding: `n * den` over `den` rounds to `n`. -/
theorem roundQuotient_mul {den : Nat} (pos : 0 < den) (n : Nat) :
    roundQuotient (n * den) den = n := by
  simp [roundQuotient, Nat.mul_div_cancel n pos, pos]

/-- A common factor does not change `roundQuotient`. -/
theorem roundQuotient_scale {factor : Nat} (pos : 0 < factor) (num den : Nat) :
    roundQuotient (num * factor) (den * factor) = roundQuotient num den := by
  have quotient : num * factor / (den * factor) = num / den :=
    Nat.mul_div_mul_right _ _ pos
  have remainder : num * factor % (den * factor) = num % den * factor :=
    Nat.mul_mod_mul_right _ _ _
  have below : 2 * (num % den * factor) < den * factor ↔ 2 * (num % den) < den := by
    rw [← Nat.mul_assoc]; exact Nat.mul_lt_mul_right pos
  have above : den * factor < 2 * (num % den * factor) ↔ den < 2 * (num % den) := by
    rw [← Nat.mul_assoc]; exact Nat.mul_lt_mul_right pos
  simp only [roundQuotient, quotient, remainder, below, above]

namespace Binary64

/-- The least positive number is `2 ^ (-precision)`. -/
@[irreducible] def precision : Nat :=
  1074

/-- How many times the least positive number makes one: `2 ^ precision`. -/
def unitsInOne : Nat :=
  1 <<< precision

/-- The positive number of a magnitude; from `infinityMagnitude` on it is infinity. -/
def ofMagnitude (n : Nat) : Binary64 :=
  if n < infinityMagnitude.toNat then ⟨false, BitVec.ofNat 63 n⟩ else infinity

/-- The number nearest to `num / den`, a tie to the even neighbour. The quotient is counted in units
of the least positive number; of its bits only the upper fifty-three are kept by `roundQuotient`,
and each bit that is dropped below them raises the exponent by one. -/
def ofRatio (num den : Nat) : Binary64 :=
  let scaled := num * unitsInOne
  let dropped := (scaled / den).log2 - 52
  -- The leading bit of the rounded quotient adds one to the exponent, and so does a carry.
  ofMagnitude (dropped * hiddenBit + roundQuotient scaled (den <<< dropped))

/-- The number nearest to `significand * 10 ^ exponent`. -/
def ofDecimal (significand : Nat) (exponent : Int) : Binary64 :=
  ofRatio (significand * tenTo exponent.toNat) (tenTo (-exponent).toNat)

/-- A common factor does not change the nearest number, `ofRatio`. -/
theorem ofRatio_scale {factor : Nat} (pos : 0 < factor) (num den : Nat) :
    ofRatio (num * factor) (den * factor) = ofRatio num den := by
  have swap : num * factor * unitsInOne = num * unitsInOne * factor := Nat.mul_right_comm _ _ _
  have quotient : num * unitsInOne * factor / (den * factor) = num * unitsInOne / den :=
    Nat.mul_div_mul_right _ _ pos
  have denominator (n : Nat) : (den * factor) <<< n = (den <<< n) * factor := by
    simp only [Nat.shiftLeft_eq]
    exact Nat.mul_right_comm _ _ _
  simp only [ofRatio, swap, quotient, denominator, roundQuotient_scale pos]

end Binary64

end CypherQuery
