import CypherQuery.Number.Layout

/-! # Exact values of floating-point numbers

A finite number is a whole number of `units` of the least positive one. Rounding that exact value
gives the number back (`ofRatio_units`), so the decimal that is chosen for a number always reads
back as its absolute value (`nearest_shortest`). Greater magnitudes have more units
(`units_le_units_iff`), which settles in exact arithmetic which numbers are written without an
exponent (`isPositional_iff`): those that satisfy `IsModerate`. -/

namespace CypherQuery.Binary64

/-- There is at least one unit in one, `unitsInOne`. -/
theorem unitsInOne_pos : 0 < unitsInOne := by
  rw [unitsInOne, Nat.shiftLeft_eq, Nat.one_mul]
  exact Nat.two_pow_pos precision

/-- A magnitude is made of its exponent and its fraction, quotient and remainder by `hiddenBit`. -/
theorem magnitude_eq (x : Binary64) :
    x.magnitude.toNat / hiddenBit * hiddenBit + x.magnitude.toNat % hiddenBit
      = x.magnitude.toNat := by
  rw [Nat.mul_comm]
  exact Nat.div_add_mod _ _

/-- A fraction, `n % hiddenBit`, is smaller than the hidden bit. -/
theorem fraction_lt (n : Nat) : n % hiddenBit < hiddenBit :=
  Nat.mod_lt n (by decide)

/-- The number `ofMagnitude` of a finite magnitude is the number without its sign, `x.abs`. -/
theorem ofMagnitude_magnitude {x : Binary64} (finite : x.isFinite = true) :
    ofMagnitude x.magnitude.toNat = x.abs := by
  rw [isFinite, decide_eq_true_eq, BitVec.lt_def] at finite
  rw [ofMagnitude, if_pos finite, BitVec.ofNat_toNat, BitVec.setWidth_eq]
  rfl

/-- The rounding of a whole number `n` of units drops as many bits as `n` has beyond fifty-three:
`ofRatio n unitsInOne` in terms of `n.log2`. -/
theorem ofRatio_unitsInOne (n : Nat) :
    ofRatio n unitsInOne
      = ofMagnitude ((n.log2 - 52) * hiddenBit + roundQuotient n (1 <<< (n.log2 - 52))) := by
  have quotient : n * unitsInOne / unitsInOne = n := Nat.mul_div_cancel n unitsInOne_pos
  have shifted (places : Nat) : unitsInOne <<< places = 1 <<< places * unitsInOne := by
    rw [Nat.shiftLeft_eq, Nat.shiftLeft_eq, Nat.one_mul, Nat.mul_comm]
  rw [ofRatio]
  simp only [quotient, shifted, roundQuotient_scale unitsInOne_pos]

/-- A number below `hiddenBit` has at most fifty-two bits, so `ofRatio` drops none. -/
theorem log2_fraction {fraction : Nat} (small : fraction < hiddenBit) :
    fraction.log2 - 52 = 0 := by
  -- Without an exponent the units are the fraction, and rounding drops nothing.
  by_cases zero : fraction = 0
  · rw [zero, Nat.log2_zero]
  · have bound : fraction.log2 < 52 := (Nat.log2_lt zero).mpr small
    omega

/-- A fraction behind `hiddenBit` has fifty-three bits and those it is shifted by, which `ofRatio`
drops. -/
theorem log2_shifted {fraction : Nat} (small : fraction < hiddenBit) (places : Nat) :
    ((hiddenBit + fraction) <<< places).log2 - 52 = places := by
  have power := Nat.two_pow_pos places
  have bits : ((hiddenBit + fraction) <<< places).log2 = 52 + places := by
    rw [Nat.shiftLeft_eq]
    refine (Nat.log2_eq_iff (Nat.ne_of_gt (Nat.mul_pos (by unfold hiddenBit; omega) power))).mpr ?_
    rw [Nat.pow_add, Nat.add_assoc, Nat.pow_add, Nat.pow_succ 2 places]
    -- Between two to the power of fifty-two and twice that, both moved up by the same places.
    constructor
    · exact Nat.mul_le_mul_right _ (Nat.le_add_right hiddenBit fraction)
    · have double : (hiddenBit + fraction) * 2 ^ places < (2 * hiddenBit) * 2 ^ places :=
        Nat.mul_lt_mul_of_pos_right (by omega) power
      have same : (2 * hiddenBit) * 2 ^ places = 2 ^ 52 * (2 ^ places * 2) := by
        show (2 * 2 ^ 52) * 2 ^ places = _
        rw [Nat.mul_comm 2, Nat.mul_assoc, Nat.mul_comm 2 (2 ^ places)]
      omega
  rw [bits]
  omega

/-- Rounding the exact value `x.units / unitsInOne` of a finite number gives the number without its
sign, `x.abs`. -/
theorem ofRatio_units {x : Binary64} (finite : x.isFinite = true) :
    ofRatio x.units unitsInOne = x.abs := by
  have small := fraction_lt x.magnitude.toNat
  have whole := magnitude_eq x
  rw [ofRatio_unitsInOne, ← ofMagnitude_magnitude finite]
  apply congrArg ofMagnitude
  simp only [units]
  by_cases zero : x.magnitude.toNat / hiddenBit = 0
  · rw [if_pos zero, log2_fraction small, Nat.zero_mul, Nat.zero_add]
    rw [zero, Nat.zero_mul, Nat.zero_add] at whole
    rw [whole]
    have exact := roundQuotient_mul Nat.one_pos x.magnitude.toNat
    rwa [Nat.mul_one] at exact
  · rw [if_neg zero, log2_shifted small]
    obtain ⟨places, same⟩ := Nat.exists_eq_succ_of_ne_zero zero
    rw [same, Nat.succ_sub_one, Nat.shiftLeft_eq _ places, Nat.shiftLeft_eq 1, Nat.one_mul,
      roundQuotient_mul (Nat.two_pow_pos places)]
    rw [same, Nat.succ_mul] at whole
    omega

/-! ## The shortest decimal reads back -/

/-- The units in one divide `tenTo precision`, the power of ten with as many places. -/
theorem tenTo_precision :
    tenTo precision / unitsInOne * unitsInOne = tenTo precision := by
  refine Nat.div_mul_cancel ⟨Nat.pow 5 precision, ?_⟩
  rw [unitsInOne, Nat.shiftLeft_eq, Nat.one_mul]
  exact Nat.mul_pow 2 5 precision

/-- The point of the finest grid, `10 ^ (-precision)`, is the number itself. -/
theorem nearest_finest {x : Binary64} (finite : x.isFinite = true) :
    Decimal.nearest ⟨x.units * (tenTo precision / unitsInOne), -(precision : Int)⟩ = x.abs := by
  have pos : 0 < tenTo precision / unitsInOne := by
    refine Nat.pos_of_ne_zero fun none => ?_
    have whole := tenTo_precision
    rw [none, Nat.zero_mul] at whole
    exact absurd whole.symm (Nat.ne_of_gt (Nat.pow_pos (by decide)))
  have upward : (-(precision : Int)).toNat = 0 := by omega
  have downward : (-(-(precision : Int))).toNat = precision := by omega
  show ofRatio (_ * tenTo (-(precision : Int)).toNat) (tenTo (-(-(precision : Int))).toNat) = _
  rw [upward, downward, ← ofRatio_units finite]
  -- Numerator and denominator have a common factor, which rounding does not see.
  have scaled := ofRatio_scale pos x.units unitsInOne
  rw [Nat.mul_comm unitsInOne, tenTo_precision] at scaled
  rw [← scaled]
  exact congrArg (ofRatio · _) (Nat.mul_one _)

/-- Whichever grid `shortestFrom` starts on, the decimal found reads back as the absolute value,
`x.abs`. -/
theorem nearest_shortestFrom {x : Binary64} (finite : x.isFinite = true) (steps : Nat) :
    (x.shortestFrom steps).nearest = x.abs := by
  -- The search takes a point of a coarser grid only if that point reads back.
  induction steps with
  | zero => exact nearest_finest finite
  | succ steps ih =>
      rw [shortestFrom]
      split
      · next n found => exact ofDecimal_of_gridPoint? found
      · exact ih

/-- The decimal `shortest` of a finite number reads back, by `nearest`, as its absolute value. -/
theorem nearest_shortest {x : Binary64} (finite : x.isFinite = true) :
    x.shortest.nearest = x.abs :=
  nearest_shortestFrom finite _

/-- The exponent of the decimal that `shortestFrom` finds is none below the finest grid,
`-precision`. -/
theorem le_exponent_shortestFrom (x : Binary64) (steps : Nat) :
    -(precision : Int) ≤ (x.shortestFrom steps).exponent := by
  induction steps with
  | zero => exact Int.le_refl _
  | succ steps ih =>
      rw [shortestFrom]
      split
      · show -(precision : Int) ≤ (steps + 1 : Int) - precision
        omega
      · exact ih

/-! ## More magnitude, more units -/

/-- A number has fewer `units` than the numbers of the next exponent. -/
theorem units_lt_next (x : Binary64) :
    x.units < hiddenBit <<< (x.magnitude.toNat / hiddenBit) := by
  have small := fraction_lt x.magnitude.toNat
  simp only [units]
  by_cases zero : x.magnitude.toNat / hiddenBit = 0
  · rw [if_pos zero, zero]
    exact small
  · obtain ⟨places, same⟩ := Nat.exists_eq_succ_of_ne_zero zero
    rw [if_neg zero, same, Nat.succ_sub_one, Nat.shiftLeft_eq, Nat.shiftLeft_eq, Nat.pow_succ,
      Nat.mul_comm _ 2, ← Nat.mul_assoc]
    exact Nat.mul_lt_mul_of_pos_right (by omega) (Nat.two_pow_pos places)

/-- A number with an exponent has at least the `units` of its hidden bit. -/
theorem le_units {x : Binary64} {places : Nat}
    (exponent : x.magnitude.toNat / hiddenBit = places + 1) : hiddenBit <<< places ≤ x.units := by
  simp only [units]
  rw [exponent, if_neg (Nat.succ_ne_zero places), Nat.succ_sub_one, Nat.shiftLeft_eq,
    Nat.shiftLeft_eq]
  exact Nat.mul_le_mul_right _ (Nat.le_add_right _ _)

/-- More magnitude means more `units`. -/
theorem units_lt_units {x y : Binary64} (less : x.magnitude < y.magnitude) :
    x.units < y.units := by
  rw [BitVec.lt_def] at less
  have wholeX := magnitude_eq x
  have wholeY := magnitude_eq y
  have smallX := fraction_lt x.magnitude.toNat
  have smallY := fraction_lt y.magnitude.toNat
  have ordered : x.magnitude.toNat / hiddenBit ≤ y.magnitude.toNat / hiddenBit :=
    Nat.div_le_div_right (Nat.le_of_lt less)
  by_cases equal : x.magnitude.toNat / hiddenBit = y.magnitude.toNat / hiddenBit
  · -- With the same exponent, the fractions decide.
    have fractions : x.magnitude.toNat % hiddenBit < y.magnitude.toNat % hiddenBit := by
      rw [equal] at wholeX
      omega
    simp only [units]
    rw [equal]
    split
    · exact fractions
    · rw [Nat.shiftLeft_eq, Nat.shiftLeft_eq]
      exact Nat.mul_lt_mul_of_pos_right (by omega) (Nat.two_pow_pos _)
  · -- A greater exponent outweighs every fraction.
    have greater := Nat.lt_of_le_of_ne ordered equal
    obtain ⟨places, exponent⟩ := Nat.exists_eq_succ_of_ne_zero (Nat.ne_zero_of_lt greater)
    refine Nat.lt_of_lt_of_le (units_lt_next x) (Nat.le_trans ?_ (le_units exponent))
    rw [Nat.shiftLeft_eq, Nat.shiftLeft_eq]
    refine Nat.mul_le_mul_left _ (Nat.pow_le_pow_right (by decide) ?_)
    generalize x.magnitude.toNat / hiddenBit = small at *
    omega

/-- The `units` of two numbers are ordered as their magnitudes are. -/
theorem units_le_units_iff {x y : Binary64} : x.units ≤ y.units ↔ x.magnitude ≤ y.magnitude := by
  constructor
  · intro atMost
    refine BitVec.not_lt.mp fun less => ?_
    exact Nat.not_lt.mpr atMost (units_lt_units less)
  -- The strict version decides both ways; equal magnitudes have equal units.
  · intro atMost
    by_cases equal : x.magnitude = y.magnitude
    · exact Nat.le_of_eq (by rw [units, units, equal])
    · refine Nat.le_of_lt (units_lt_units ?_)
      rw [BitVec.le_def] at atMost
      rw [BitVec.lt_def]
      exact Nat.lt_of_le_of_ne atMost fun same => equal (BitVec.eq_of_toNat_eq same)

/-! ## Numbers of moderate size -/

/-- The number is zero, or its absolute value is at least `0.0001` and less than `10 ^ 16`, as an
exact statement about its `units`. -/
def IsModerate (x : Binary64) : Prop :=
  x.units = 0 ∨ unitsInOne ≤ x.units * 10000 ∧ x.units < 10000000000000000 * unitsInOne

/-- Whether a number is of moderate size can be computed. -/
instance (x : Binary64) : Decidable x.IsModerate :=
  inferInstanceAs (Decidable (_ ∨ _ ∧ _))

/-- The number nearest to `10 ^ (-4)`, the least that `isPositional` admits besides zero. -/
theorem magnitude_leastPositional :
    (ofDecimal 1 (-4)).magnitude = 0x3F1A36E2EB1C432D#63 := by
  decide +kernel

/-- The number nearest to `10 ^ 16`, the first that `isPositional` no longer admits. -/
theorem magnitude_leastScientific :
    (ofDecimal 1 16).magnitude = 0x4341C37937E08000#63 := by
  decide +kernel

/-- A number is no smaller than the one nearest to `10 ^ (-4)` exactly if it is no smaller than
`10 ^ (-4)`, counted in `units`. -/
theorem leastPositional_le_iff (x : Binary64) :
    0x3F1A36E2EB1C432D#63 ≤ x.magnitude ↔ unitsInOne ≤ x.units * 10000 := by
  have least : unitsInOne ≤ (⟨false, 0x3F1A36E2EB1C432D#63⟩ : Binary64).units * 10000 := by
    decide +kernel
  -- The number below is already smaller than a ten-thousandth.
  have below : (⟨false, 0x3F1A36E2EB1C432C#63⟩ : Binary64).units * 10000 < unitsInOne := by
    decide +kernel
  constructor
  · intro atLeast
    have more := units_le_units_iff (x := ⟨false, 0x3F1A36E2EB1C432D#63⟩).mpr atLeast
    exact Nat.le_trans least (Nat.mul_le_mul_right 10000 more)
  · intro atLeast
    refine BitVec.not_lt.mp fun less => ?_
    have smaller : x.magnitude ≤ 0x3F1A36E2EB1C432C#63 := by
      rw [BitVec.lt_def] at less
      rw [BitVec.le_def]
      exact Nat.le_of_lt_succ less
    have fewer := units_le_units_iff (y := ⟨false, 0x3F1A36E2EB1C432C#63⟩).mpr smaller
    have tooFew := Nat.lt_of_le_of_lt (Nat.mul_le_mul_right 10000 fewer) below
    exact absurd atLeast (Nat.not_le.mpr tooFew)

/-- A number is smaller than the one nearest to `10 ^ 16` exactly if it is smaller than `10 ^ 16`,
counted in `units`. -/
theorem lt_leastScientific_iff (x : Binary64) :
    x.magnitude < 0x4341C37937E08000#63 ↔ x.units < 10000000000000000 * unitsInOne := by
  -- Ten to the power of sixteen is a number of its own, so nothing is lost by rounding it.
  have exact : (⟨false, 0x4341C37937E08000#63⟩ : Binary64).units
      = 10000000000000000 * unitsInOne := by
    decide +kernel
  rw [← exact, ← Nat.not_le, units_le_units_iff, BitVec.not_le]

/-- Only zero has no `units`. -/
theorem units_eq_zero_iff (x : Binary64) : x.units = 0 ↔ x.magnitude = 0#63 := by
  have none : zero.units = 0 := by decide
  constructor
  · intro empty
    have atMost : x.units ≤ zero.units := Nat.le_of_eq (empty.trans none.symm)
    exact BitVec.le_zero_iff.mp (units_le_units_iff.mp atMost)
  · intro nothing
    rw [units, nothing]
    rfl

/-- The numbers that are written without an exponent, `isPositional`, are those of moderate size,
`IsModerate`. -/
theorem isPositional_iff (x : Binary64) : x.isPositional = true ↔ x.IsModerate := by
  rw [isPositional, Bool.or_eq_true, Bool.and_eq_true, decide_eq_true_eq, decide_eq_true_eq,
    decide_eq_true_eq, magnitude_leastPositional, magnitude_leastScientific,
    leastPositional_le_iff, lt_leastScientific_iff, ← units_eq_zero_iff]
  rfl

/-- A number that `IsModerate` is finite. -/
theorem IsModerate.isFinite {x : Binary64} (moderate : x.IsModerate) : x.isFinite = true := by
  rw [Binary64.isFinite, decide_eq_true_eq]
  -- Zero is finite, and whatever is below ten to the power of sixteen is below infinity.
  rcases moderate with zero | ⟨-, small⟩
  · rw [(units_eq_zero_iff x).mp zero]
    decide
  · have less := (lt_leastScientific_iff x).mpr small
    rw [BitVec.lt_def] at less ⊢
    exact Nat.lt_trans less (by decide)

end CypherQuery.Binary64
