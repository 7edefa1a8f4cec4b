/-! # Decimal digits

The `digits` of a natural number, the number `ofDigits` that a run of digits stands for, and the
powers of ten, `tenTo`, that move digits from place to place. -/

namespace CypherQuery

/-- The decimal digits of a number, most significant first; zero has the one digit `0`. -/
def digits (n : Nat) : List Char :=
  Nat.toDigits 10 n

/-- The number that a run of decimal digits stands for, `Nat.ofDigitChars` in base ten; leading
zeros do not matter. -/
def ofDigits (text : List Char) : Nat :=
  Nat.ofDigitChars 10 text 0

/-- Reading the `digits` of a number by `ofDigits` gives the number. -/
@[simp] theorem ofDigits_digits (n : Nat) : ofDigits (digits n) = n := by
  simp [ofDigits, digits]

/-- Every number has at least one digit: `digits n` is not empty. -/
theorem digits_ne_nil (n : Nat) : digits n ≠ [] := by
  simp [digits]

/-- The power `10 ^ places`: a one followed by that many zeros. -/
def tenTo (places : Nat) : Nat :=
  Nat.pow 10 places

/-- The signed decimal text of an integer: a minus sign for the negative ones, then the `digits` of
the absolute value. -/
def signedDigits (n : Int) : List Char :=
  if n < 0 then '-' :: digits n.natAbs else digits n.natAbs

end CypherQuery
