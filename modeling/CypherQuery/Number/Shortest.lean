import CypherQuery.Number.Rounding

/-! # Shortest decimals

The decimal `shortest x` has the fewest digits among those that read back as a given finite number,
and of those with equally few digits it is the nearest one. The grids of multiples of a power of ten
are tried from coarse to fine by `shortestFrom`; on each grid only the two neighbours of the number
can be the answer (`gridPoint?`). The finest grid holds the number itself, so the search always ends
with an answer. -/

namespace CypherQuery

/-- The decimal `significand * 10 ^ exponent`. -/
structure Decimal where
  /-- The digits, read as an integer. -/
  significand : Nat
  /-- The power of ten that the digits are multiplied by. -/
  exponent : Int
  deriving DecidableEq, Repr

namespace Decimal

/-- The binary number nearest to a decimal, by `ofDecimal`. -/
def nearest (d : Decimal) : Binary64 :=
  .ofDecimal d.significand d.exponent

end Decimal

namespace Binary64

/-- The nearer neighbour of a number among the multiples of `10 ^ exponent` that read back as its
absolute value, `x.abs`; halfway between two neighbours the upper one is the nearer. -/
def gridPoint? (x : Binary64) (exponent : Int) : Option Nat :=
  let num := x.units * tenTo (-exponent).toNat
  let den := unitsInOne * tenTo exponent.toNat
  let low := num / den
  -- The nearer neighbour comes first, and the other one only counts if the first does not fit.
  let neighbours := if 2 * (num % den) < den then [low, low + 1] else [low + 1, low]
  neighbours.find? fun n => ofDecimal n exponent == x.abs

/-- A point that `gridPoint?` chooses reads back as the absolute value of the number. -/
theorem ofDecimal_of_gridPoint? {x : Binary64} {exponent : Int} {n : Nat}
    (found : x.gridPoint? exponent = some n) : ofDecimal n exponent = x.abs := by
  have readsBack : (ofDecimal n exponent == x.abs) = true := by
    unfold gridPoint? at found
    have := List.find?_some found
    exact this
  exact eq_of_beq readsBack

/-- The first decimal found on the grids from `10 ^ (steps - precision)` downwards. The number
itself lies on the last of them, `10 ^ (-precision)`. -/
def shortestFrom (x : Binary64) : Nat → Decimal
  | 0 => ⟨x.units * (tenTo precision / unitsInOne), -(precision : Int)⟩
  | steps + 1 =>
      let exponent : Int := (steps + 1 : Int) - precision
      match x.gridPoint? exponent with
      | some n => ⟨n, exponent⟩
      | none => shortestFrom x steps

/-- The decimal with the fewest digits that reads back as the absolute value of a finite number:
`shortestFrom` a power of ten above the number. -/
def shortest (x : Binary64) : Decimal :=
  x.shortestFrom (precision + (digits (x.units / unitsInOne)).length)

end Binary64

end CypherQuery
