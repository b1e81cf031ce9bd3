import CueRouter.Binary.Double
import CueRouter.Decimal.Fixed

/-!
# The shortest decimal that reads back

A double precision number is written with the fewest digits that single it
out. The reals that round to a number form an interval around it, reaching
half way to either neighbour, with the ends included exactly when its
significand is even. For one digit, two digits, and so on, the two neighbours
of the number on that decimal grid are tested; the first grid with a hit wins,
and of two hits the nearer, the upper one on a tie. The digits are written
positionally at every size.
-/

namespace CueRouter.Decimal

open Binary Text

/-- A positive number and the interval of the reals that round to it. All four
numbers count units of `2 ^ exponent`, four to the last place of the number. -/
structure Target where
  /-- The lower end of the interval. -/
  low : Nat
  /-- The number itself. -/
  value : Nat
  /-- The upper end of the interval. -/
  high : Nat
  /-- The exponent of the unit. -/
  exponent : Int
  /-- Whether the ends themselves round to the number. -/
  closed : Bool

/-- The interval of a positive number of the format. Just above a power of two
the neighbour below is only half as far away as the one above. -/
def Target.of (f : Format) (significand : Nat) (exponent : Int) : Target :=
  let narrowBelow := significand == f.fractions && f.leastExponent < exponent
  { low := if narrowBelow then 4 * significand - 1 else 4 * significand - 2
    value := 4 * significand
    high := 4 * significand + 2
    exponent := exponent - 2
    closed := significand % 2 == 0 }

/-- A decimal number `digits * 10 ^ exponent`. -/
structure Candidate where
  /-- The digits as a natural number. -/
  digits : Nat
  /-- The power of ten they are scaled by. -/
  exponent : Int
  deriving DecidableEq

/-- Compare `a * 10 ^ i` with `n * 2 ^ j`. -/
def compareScaled (a : Nat) (i : Int) (n : Nat) (j : Int) : Ordering :=
  compare (a * Nat.pow 10 i.toNat * Nat.pow 2 (-j).toNat)
    (n * Nat.pow 2 j.toNat * Nat.pow 10 (-i).toNat)

/-- Whether the decimal lies in the interval of the target. -/
def Target.admits (t : Target) (d : Candidate) : Bool :=
  let fromLow := compareScaled d.digits d.exponent t.low t.exponent
  let fromHigh := compareScaled d.digits d.exponent t.high t.exponent
  (fromLow == .gt || (t.closed && fromLow == .eq)) &&
    (fromHigh == .lt || (t.closed && fromHigh == .eq))

/-- The decimal of the grid `10 ^ exponent` that singles the target out, if one
of its two neighbours on that grid does. -/
def Target.onGrid? (t : Target) (exponent : Int) : Option Candidate :=
  let below := t.value * Nat.pow 2 t.exponent.toNat * Nat.pow 10 (-exponent).toNat
    / (Nat.pow 2 (-t.exponent).toNat * Nat.pow 10 exponent.toNat)
  let lower : Candidate := ⟨below, exponent⟩
  let upper : Candidate := ⟨below + 1, exponent⟩
  match t.admits lower, t.admits upper with
  | true, true =>
    if compareScaled (2 * below + 1) exponent (2 * t.value) t.exponent == .gt
    then some lower else some upper
  | true, false => some lower
  | false, true => some upper
  | false, false => none

/-- The digits of the exact value of the target, as a decimal. -/
def Target.exact (t : Target) : Candidate :=
  ⟨t.value * Nat.pow 2 t.exponent.toNat * Nat.pow 5 (-t.exponent).toNat, min 0 t.exponent⟩

/-- The least exponent whose power of ten exceeds the value of the target. -/
def Target.magnitude (t : Target) : Int :=
  (Numeral.digits t.exact.digits).length + t.exact.exponent

/-- Try the grids of `count` digits, `count + 1` digits and so on. -/
def Target.search (t : Target) (magnitude : Int) : (fuel count : Nat) → Option Candidate
  | 0, _ => none
  | fuel + 1, count =>
    match t.onGrid? (magnitude - count) with
    | some d => some d
    | none => t.search magnitude fuel (count + 1)

/-- The decimal of fewest digits in the interval of the target; seventeen
digits suffice, and the exact value stands behind them. -/
def Target.shortest (t : Target) : Candidate :=
  (t.search t.magnitude 17 1).getD t.exact

/-- The decimal without exponent, and without a fraction that is all zeros. -/
def Candidate.positional (d : Candidate) : List Char :=
  match d.exponent with
  | .ofNat zeros => Numeral.digits (d.digits * Nat.pow 10 zeros)
  | .negSucc n =>
    let cs := withPoint (n + 1) d.digits
    let kept := (cs.reverse.dropWhile (· == '0')).reverse
    if kept.getLast? == some '.' then kept.dropLast else kept

/-- The fewest digits that single out a double precision number. -/
def shortest (x : Double) : String :=
  match x.datum with
  | .nan => "NaN"
  | .infinite negative => if negative then "-inf" else "inf"
  | .finite negative significand exponent =>
    let cs := if significand = 0 then ['0']
      else (Target.of .wide significand exponent).shortest.positional
    String.ofList (if negative then '-' :: cs else cs)

end CueRouter.Decimal
