import CueRouter.Binary.Single

/-!
# Double precision numbers

The numbers of 64 bits, each held as its bit pattern. Comparison as numbers is
apart from equality of bits: zeros of either sign agree, and what is not a
number agrees with nothing. A number of 32 bits widens without loss; narrowing
rounds once.
-/

namespace CueRouter

/-- A floating-point number of 64 bits. -/
structure Double where
  /-- The bit pattern. -/
  bits : UInt64
  deriving DecidableEq, Inhabited

namespace Double

open Binary

/-- The number with the given pattern. -/
def ofPattern (pattern : Nat) : Double := ⟨.ofNat pattern⟩

/-- What the bits stand for. -/
def datum (x : Double) : Datum := Format.wide.decode x.bits.toNat

/-- The number nearest to a whole number. -/
def ofInt (n : Int) : Double := ofPattern (Format.wide.ofInt n)

/-- The positive zero. -/
def zero : Double := ⟨0⟩

/-- The rounded difference. -/
def subtract (x y : Double) : Double :=
  ofPattern (Format.wide.add x.datum y.datum.negate)

/-- The rounded product. -/
def multiply (x y : Double) : Double :=
  ofPattern (Format.wide.multiply x.datum y.datum)

/-- The rounded quotient. -/
def divide (x y : Double) : Double :=
  ofPattern (Format.wide.divide x.datum y.datum)

/-- Whether the number is a zero of either sign. -/
def isZero (x : Double) : Bool := x.datum.isZero

/-- How two numbers compare; nothing where one is not a number. -/
def compare? (x y : Double) : Option Ordering := x.datum.compare? y.datum

/-- Whether the two are equal as numbers. -/
def sameNumber (x y : Double) : Bool := x.compare? y == some .eq

/-- Whether the first is at most the second as numbers. -/
def atMost (x y : Double) : Bool :=
  x.compare? y == some .lt || x.compare? y == some .eq

/-- Whether the distance of `x` from zero exceeds `limit`. -/
def magnitudeExceeds (x limit : Double) : Bool :=
  x.datum.magnitude.compare? limit.datum == some .gt

/-- The nearest number of 32 bits. -/
def narrow (x : Double) : Single := Single.ofDatum x.datum

end Double

/-- The same number in 64 bits; no precision is lost. -/
def Single.widen (x : Single) : Double :=
  ⟨.ofNat (Binary.Format.wide.encode x.datum)⟩

end CueRouter
