import CueRouter.Binary.Format

/-!
# Rounding a quotient into a format

Every result is computed exactly as a quotient of natural numbers and rounded
once: to the nearest number of the format, a half going to the even neighbour,
and to infinity from half a unit above the largest finite number. The grid is
chosen from the binary size of the quotient. A significand that rounds up to
the next power of two carries into the exponent field by plain addition, since
magnitude patterns grow with the numbers they stand for.
-/

namespace CueRouter.Binary

/-- The whole number nearest to `numerator / denominator`, a half going to the
even neighbour. -/
def divideToEven (numerator denominator : Nat) : Nat :=
  let quotient := numerator / denominator
  let rest := numerator % denominator
  if 2 * rest < denominator then quotient
  else if denominator < 2 * rest then quotient + 1
  else quotient + quotient % 2

/-- The rounded quotient is within half a unit of the exact one. -/
theorem divideToEven_near (numerator denominator : Nat) (h : 0 < denominator) :
    2 * (divideToEven numerator denominator * denominator)
        ≤ 2 * numerator + denominator ∧
      2 * numerator
        ≤ 2 * (divideToEven numerator denominator * denominator) + denominator := by
  have split := Nat.div_add_mod numerator denominator
  have below := Nat.mod_lt numerator h
  unfold divideToEven
  simp only
  generalize numerator / denominator = quotient at *
  generalize numerator % denominator = rest at *
  have step : (quotient + 1) * denominator
      = denominator * quotient + denominator := by
    rw [Nat.add_mul, Nat.mul_comm]; simp
  have same : quotient * denominator = denominator * quotient := Nat.mul_comm ..
  split
  · omega
  · split
    · omega
    · rcases Nat.mod_two_eq_zero_or_one quotient with e | e
      · rw [e, Nat.add_zero]; omega
      · rw [e]; omega

/-- The numerator and denominator of `numerator / denominator / 2 ^ exponent`. -/
def scaleDown (numerator denominator : Nat) (exponent : Int) : Nat × Nat :=
  (numerator * Nat.pow 2 (-exponent).toNat, denominator * Nat.pow 2 exponent.toNat)

/-- The exponent of the greatest power of two that is at most
`numerator / denominator`. -/
def quotientLog (numerator denominator : Nat) : Int :=
  let guess : Int := (Nat.log2 numerator : Int) - Nat.log2 denominator
  let scaled := scaleDown numerator denominator guess
  if scaled.1 < scaled.2 then guess - 1 else guess

/-- The magnitude pattern nearest to `numerator / denominator`. -/
def Format.roundMagnitude (f : Format) (numerator denominator : Nat) : Nat :=
  if numerator = 0 then 0
  else
    let exponent := max f.leastExponent
      (quotientLog numerator denominator - f.fractionBits)
    let scaled := scaleDown numerator denominator exponent
    let significand := divideToEven scaled.1 scaled.2
    min f.infinity ((exponent - f.leastExponent).toNat * f.fractions + significand)

/-- The pattern nearest to `numerator / denominator` with the given sign. -/
def Format.round (f : Format) (negative : Bool) (numerator denominator : Nat) : Nat :=
  f.withSign negative (f.roundMagnitude numerator denominator)

/-- The pattern nearest to `significand * 2 ^ exponent` with the given sign. -/
def Format.roundScaled (f : Format) (negative : Bool) (significand : Nat)
    (exponent : Int) : Nat :=
  f.round negative (significand * Nat.pow 2 exponent.toNat) (Nat.pow 2 (-exponent).toNat)

/-- The pattern nearest to a whole number. -/
def Format.ofInt (f : Format) (n : Int) : Nat :=
  f.round (decide (n < 0)) n.natAbs 1

end CueRouter.Binary
