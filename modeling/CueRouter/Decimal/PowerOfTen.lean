import CueRouter.Binary.Double

/-!
# Powers of ten

Ten raised to a single precision number. The exponent is turned into an
exponent of two by one product in double precision, and split into the nearest
whole number of thirty-seconds and a rest. Two to the thirty-seconds is found by
square roots, each of which halves the relative error of the one before it. Two
to the rest is the value of a cubic, which on so short an interval is off by
less than one part in `2 ^ 33`. Both are taken in fixed point with 128 places,
and their product is rounded once to single precision.
-/

namespace CueRouter.Decimal

open Binary

/-- The square root of a natural number below `4 ^ bits`, cut off to a whole
number. -/
def squareRoot : (bits n : Nat) → Nat
  | 0, _ => 0
  | bits + 1, n =>
    let half := 2 * squareRoot bits (n / 4)
    if (half + 1) * (half + 1) ≤ n then half + 1 else half

/-- The places of the fixed-point roots. -/
def places : Nat := 128

/-- One in fixed point. -/
def unit : Nat := Nat.pow 2 places

/-- Two raised to `fraction / 2 ^ bits` in fixed point, reading the low `bits`
bits of the fraction: the power of `0.b1b2b3...` is the square root of two to
`b1` times the power of `0.b2b3...`. -/
def rootOfTwo : (bits fraction : Nat) → Nat
  | 0, _ => unit
  | bits + 1, fraction =>
    let rest := rootOfTwo bits fraction
    squareRoot (places + 1)
      ((if fraction.testBit bits then 2 * rest else rest) * unit)

/-- The coefficients of the cubic for two raised to a rest, the highest first;
each pair `(n, p)` is the number `n / 2 ^ p`. -/
def coefficients : List (Nat × Nat) :=
  [(0x1C6AF84B912394, 57), (0x1EBFCE50FAC4F3, 55), (0x162E42FF0C52D6, 53), (1, 0)]

/-- The value of the cubic at a rest, both in fixed point. -/
def cubic (rest : Int) : Int :=
  coefficients.foldl
    (fun sum c => sum * rest / unit + c.1 * Nat.pow 2 (places - c.2)) 0

/-- Two raised to a fixed-point exponent, as numerator and denominator. -/
def twoRaised (exponent : Int) : Nat × Nat :=
  let steps := (64 * exponent + unit) / (2 * unit)
  let rest := exponent - steps * (unit / 32 : Nat)
  let octaves := steps / 32
  let step := (steps % 32).toNat
  (rootOfTwo 5 step * (cubic rest).toNat * Nat.pow 2 octaves.toNat,
    unit * unit * Nat.pow 2 (-octaves).toNat)

/-- The binary logarithm of ten, exact to eleven places. -/
def logOfTen : Double := ⟨0x400A934F0979B22D⟩

/-- The size of the exponents of two from which on every power exceeds every
finite number, or rounds to zero if the exponent is negative. -/
def exponentLimit : Nat := 256

/-- Ten raised to the number. -/
def tenRaised (x : Single) : Single :=
  match (x.widen.multiply logOfTen).datum with
  | .nan => .ofDatum .nan
  | .infinite true => .zero
  | .infinite false => .ofDatum (.infinite false)
  | .finite negative significand exponent =>
    let size := significand * Nat.pow 2 (exponent + places).toNat /
      Nat.pow 2 (-(exponent + places)).toNat
    if exponentLimit * unit ≤ size then
      if negative then .zero else .ofDatum (.infinite false)
    else
      let power := twoRaised (if negative then -size else size)
      .ofQuotient power.1 power.2

end CueRouter.Decimal
