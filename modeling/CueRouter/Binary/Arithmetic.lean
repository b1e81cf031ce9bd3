import CueRouter.Binary.Rounding

/-!
# Arithmetic on data of a format

Each operation is exact on finite data and rounds once at the end. A sum of
opposite numbers is the positive zero, and only two negative zeros sum to the
negative one. Infinities absorb finite operands; an indeterminate form, and
every operation on what is not a number, is not a number.
-/

namespace CueRouter.Binary

/-- The exact numerator of a signed number on the grid `2 ^ grid`, which must
not be coarser than the number's own. -/
def onGrid (negative : Bool) (significand : Nat) (exponent grid : Int) : Int :=
  let scaled : Int := significand * Nat.pow 2 (exponent - grid).toNat
  if negative then -scaled else scaled

/-- The datum with its sign reversed. -/
def Datum.negate : Datum → Datum
  | .nan => .nan
  | .infinite negative => .infinite (!negative)
  | .finite negative significand exponent =>
    .finite (!negative) significand exponent

/-- The datum without its sign. -/
def Datum.magnitude : Datum → Datum
  | .nan => .nan
  | .infinite _ => .infinite false
  | .finite _ significand exponent => .finite false significand exponent

/-- The pattern nearest to a datum. -/
def Format.encode (f : Format) : Datum → Nat
  | .nan => f.notNumber
  | .infinite negative => f.withSign negative f.infinity
  | .finite negative significand exponent =>
    f.roundScaled negative significand exponent

/-- The rounded sum. -/
def Format.add (f : Format) : Datum → Datum → Nat
  | .nan, _ | _, .nan => f.notNumber
  | .infinite a, .infinite b =>
    if a = b then f.withSign a f.infinity else f.notNumber
  | .infinite a, _ => f.withSign a f.infinity
  | _, .infinite b => f.withSign b f.infinity
  | .finite a m i, .finite b n j =>
    let grid := min i j
    let sum := onGrid a m i grid + onGrid b n j grid
    let negative := if sum = 0 then a && b else decide (sum < 0)
    f.roundScaled negative sum.natAbs grid

/-- The rounded product. -/
def Format.multiply (f : Format) : Datum → Datum → Nat
  | .nan, _ | _, .nan => f.notNumber
  | .infinite a, .infinite b => f.withSign (a != b) f.infinity
  | .infinite a, .finite b n _ =>
    if n = 0 then f.notNumber else f.withSign (a != b) f.infinity
  | .finite a m _, .infinite b =>
    if m = 0 then f.notNumber else f.withSign (a != b) f.infinity
  | .finite a m i, .finite b n j => f.roundScaled (a != b) (m * n) (i + j)

/-- The rounded quotient. -/
def Format.divide (f : Format) : Datum → Datum → Nat
  | .nan, _ | _, .nan => f.notNumber
  | .infinite _, .infinite _ => f.notNumber
  | .infinite a, .finite b _ _ => f.withSign (a != b) f.infinity
  | .finite a _ _, .infinite b => f.withSign (a != b) 0
  | .finite a m i, .finite b n j =>
    if n = 0 then
      if m = 0 then f.notNumber else f.withSign (a != b) f.infinity
    else
      let scaled := scaleDown m n (j - i)
      f.round (a != b) scaled.1 scaled.2

/-- How two data compare as numbers; what is not a number compares with
nothing, and the two zeros are equal. -/
def Datum.compare? : Datum → Datum → Option Ordering
  | .nan, _ | _, .nan => none
  | .infinite a, .infinite b =>
    some (if a = b then .eq else if a then .lt else .gt)
  | .infinite a, _ => some (if a then .lt else .gt)
  | _, .infinite b => some (if b then .gt else .lt)
  | .finite a m i, .finite b n j =>
    let grid := min i j
    some (compare (onGrid a m i grid) (onGrid b n j grid))

/-- The whole number reached by cutting off the fraction, brought into the
bounds given; what is not a number gives zero. -/
def Datum.truncate (least greatest : Int) : Datum → Int
  | .nan => 0
  | .infinite negative => if negative then least else greatest
  | .finite negative significand exponent =>
    let whole : Int :=
      (significand * Nat.pow 2 exponent.toNat / Nat.pow 2 (-exponent).toNat : Nat)
    max least (min greatest (if negative then -whole else whole))

/-- Whether the datum is one of the two zeros. -/
def Datum.isZero : Datum → Bool
  | .finite _ significand _ => significand == 0
  | _ => false

end CueRouter.Binary
