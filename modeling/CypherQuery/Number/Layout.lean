import CypherQuery.Number.Shortest

/-! # The text of floating-point numbers

How a number is written, `text`, and how a written number is read, `ofText?`. Zero and the numbers
from `0.0001` up to `10 ^ 16` are `positional`: a decimal point and at least one digit on either
side of it. Other finite numbers are `scientific`: one digit, further digits after a point if there
are any, and an exponent. -/

namespace CypherQuery

namespace Decimal

/-- Digits around a decimal point, at least one on either side: zeros fill the places that
`exponent` asks for. -/
def positional (d : Decimal) : List Char :=
  let text := digits d.significand
  let places := (-d.exponent).toNat
  if places = 0 then
    text ++ List.replicate d.exponent.toNat '0' ++ ['.', '0']
  else if places < text.length then
    text.take (text.length - places) ++ '.' :: text.drop (text.length - places)
  else
    '0' :: '.' :: List.replicate (places - text.length) '0' ++ text

/-- One digit before the point, the others behind it, and the power of ten after an `e`; no point if
there are no others. -/
def scientific (d : Decimal) : List Char :=
  let text := digits d.significand
  let fraction := text.tail
  let point := if fraction.isEmpty then [] else '.' :: fraction
  text.take 1 ++ point ++ 'e' :: signedDigits (d.exponent + fraction.length)

end Decimal

namespace Binary64

/-- Whether a number is written with a decimal point and no exponent: zero, or a magnitude between
those nearest to `10 ^ (-4)` and `10 ^ 16`. -/
def isPositional (x : Binary64) : Bool :=
  decide (x.magnitude = 0#63) ||
    (decide ((ofDecimal 1 (-4)).magnitude ≤ x.magnitude) &&
      decide (x.magnitude < (ofDecimal 1 16).magnitude))

/-- The text of a number: the digits of `shortest`, laid out by `positional` or `scientific`, or the
name of a value that has no digits. -/
def text (x : Binary64) : List Char :=
  if x.isNaN then ['N', 'a', 'N']
  else
    let sign := if x.negative then ['-'] else []
    let body :=
      if !x.isFinite then ['i', 'n', 'f']
      else if x.magnitude = 0#63 then ['0', '.', '0']
      else if x.isPositional then x.shortest.positional
      else x.shortest.scientific
    sign ++ body

/-! ## Reading -/

/-- The number nearest to a decimal of any exponent, `ofDecimal` where that can matter. Decimals
beyond every finite number, or closer to zero than half the least positive one, are settled by their
exponent. -/
def ofLongDecimal (significand : Nat) (exponent : Int) : Binary64 :=
  if significand = 0 then zero
  else if 400 < exponent then infinity
  else if exponent + (digits significand).length < -400 then zero
  else ofDecimal significand exponent

/-- An exponent as it is written after an `e`: an optional sign and at least one digit. -/
def readExponent? : List Char → Option Int
  | '-' :: text => if text.isEmpty || !text.all Char.isDigit then none else some (-(ofDigits text))
  | '+' :: text => if text.isEmpty || !text.all Char.isDigit then none else some (ofDigits text)
  | text => if text.isEmpty || !text.all Char.isDigit then none else some (ofDigits text)

/-- An unsigned number: digits with at most one point among them, then perhaps an exponent. -/
def readUnsigned? (text : List Char) : Option Binary64 :=
  let whole := text.takeWhile Char.isDigit
  let rest := text.dropWhile Char.isDigit
  let (fraction, rest) := match rest with
    | '.' :: rest => (rest.takeWhile Char.isDigit, rest.dropWhile Char.isDigit)
    | rest => ([], rest)
  if whole.isEmpty && fraction.isEmpty then none
  else
    let exponent? := match rest with
      | [] => some 0
      | mark :: rest => if mark = 'e' || mark = 'E' then readExponent? rest else none
    exponent?.map fun exponent =>
      ofLongDecimal (ofDigits (whole ++ fraction)) (exponent - fraction.length)

/-- An unsigned value: a number of `readUnsigned?`, or one of the names of infinity and of the value
that is not a number, in any letter case. -/
def readMagnitude? (text : List Char) : Option Binary64 :=
  let lower := String.ofList (text.map Char.toLower)
  if lower = "inf" || lower = "infinity" then some infinity
  else if lower = "nan" then some notANumber
  else readUnsigned? text

/-- The number that a text stands for: an optional sign and an unsigned value, `readMagnitude?`. -/
def ofText? (text : String) : Option Binary64 :=
  match text.toList with
  | '-' :: rest => (readMagnitude? rest).map negate
  | '+' :: rest => readMagnitude? rest
  | rest => readMagnitude? rest

end Binary64

end CypherQuery
