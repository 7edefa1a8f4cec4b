/-! # Binary floating-point numbers

A `Binary64` is a number of 64 bits in sign and magnitude. The magnitude is the integer whose bits
are the eleven bits of the exponent and the fifty-two bits of the fraction, so that neighbouring
numbers have neighbouring magnitudes, and everything above `infinityMagnitude` is not a number. The
value of a finite number is `units`, a whole multiple of the least positive number. -/

namespace CypherQuery

/-- A binary floating-point number of 64 bits. -/
structure Binary64 where
  /-- Whether the sign bit is set. -/
  negative : Bool
  /-- The bits of exponent and fraction. -/
  magnitude : BitVec 63
  deriving DecidableEq, Repr

namespace Binary64

/-- The magnitude of the two infinities: all bits of the exponent and none of the fraction. What is
greater is no number, `isNaN`, and what is less is finite, `isFinite`. -/
def infinityMagnitude : BitVec 63 :=
  0x7FF0000000000000#63

/-- Positive zero. -/
def zero : Binary64 :=
  ⟨false, 0#63⟩

/-- Positive infinity. -/
def infinity : Binary64 :=
  ⟨false, infinityMagnitude⟩

/-- The value that is not a number, which `nan` is read as. -/
def notANumber : Binary64 :=
  ⟨false, 0x7FF8000000000000#63⟩

/-- Whether the value is not a number: its magnitude is above `infinityMagnitude`. -/
def isNaN (x : Binary64) : Bool :=
  decide (infinityMagnitude < x.magnitude)

/-- Whether the value is a number other than an infinity: its magnitude is below
`infinityMagnitude`. -/
def isFinite (x : Binary64) : Bool :=
  decide (x.magnitude < infinityMagnitude)

/-- The value with the opposite sign; also that of `zero` is changed. -/
def negate (x : Binary64) : Binary64 :=
  { x with negative := !x.negative }

/-- The value without its sign, which keeps the `magnitude`. -/
def abs (x : Binary64) : Binary64 :=
  { x with negative := false }

/-- Numeric equality: a value that `isNaN` differs from everything, itself included, and the two
zeros are equal. -/
def sameNumber (x y : Binary64) : Bool :=
  !x.isNaN && !y.isNaN && (x == y || (x.magnitude == 0#63 && y.magnitude == 0#63))

/-- The least magnitude whose fraction is zero again, `2 ^ 52`: quotient and remainder by it are the
exponent and the fraction. -/
def hiddenBit : Nat :=
  0x10000000000000

/-- The absolute value of a finite number, counted in units of `2 ^ (-1074)`, the least positive
number. A number with an exponent has a leading bit, `hiddenBit`, that is not among its fraction. -/
def units (x : Binary64) : Nat :=
  let exponent := x.magnitude.toNat / hiddenBit
  let fraction := x.magnitude.toNat % hiddenBit
  if exponent = 0 then fraction else (hiddenBit + fraction) <<< (exponent - 1)

/-- Changing the sign twice by `negate` changes nothing. -/
@[simp] theorem negate_negate (x : Binary64) : x.negate.negate = x := by
  cases x; simp [negate]

/-- The absolute value `abs` does not depend on the sign. -/
@[simp] theorem abs_negate (x : Binary64) : x.negate.abs = x.abs := rfl

/-- Changing the sign by `negate` keeps a number finite. -/
@[simp] theorem isFinite_negate (x : Binary64) : x.negate.isFinite = x.isFinite := rfl

/-- A number is finite if its `abs` is. -/
@[simp] theorem isFinite_abs (x : Binary64) : x.abs.isFinite = x.isFinite := rfl

/-- The count of `units` ignores the sign. -/
@[simp] theorem units_abs (x : Binary64) : x.abs.units = x.units := rfl

end Binary64

end CypherQuery
