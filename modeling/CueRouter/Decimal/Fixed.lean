import CueRouter.Binary.Single
import CueRouter.Text.Numeral

/-!
# Numbers with a fixed number of places

A floating-point number is written with a set number of decimal places by
rounding its exact value once, a half going to the even neighbour. The sign of
a negative number is kept also where all its places are zero.
-/

namespace CueRouter.Decimal

open Binary Text

/-- Digits padded with zeros in front to at least `width`. -/
def padded (width : Nat) (cs : List Char) : List Char :=
  List.replicate (width - cs.length) '0' ++ cs

/-- A natural number of units of `10 ^ -places`, with a point in front of the
last `places` digits; `places` is positive. -/
def withPoint (places units : Nat) : List Char :=
  let cs := padded (places + 1) (Numeral.digits units)
  let whole := cs.length - places
  cs.take whole ++ '.' :: cs.drop whole

/-- The datum as a text with `places` decimal places. -/
def fixed (places : Nat) : Datum → String
  | .nan => "NaN"
  | .infinite negative => if negative then "-inf" else "inf"
  | .finite negative significand exponent =>
    let units := divideToEven (significand * Nat.pow 2 exponent.toNat * Nat.pow 10 places)
      (Nat.pow 2 (-exponent).toNat)
    let cs := withPoint places units
    String.ofList (if negative then '-' :: cs else cs)

end CueRouter.Decimal
