import CueRouter.Binary.Arithmetic

/-!
# Single precision numbers

The numbers of 32 bits, each held as its bit pattern, so that equal values here
are equal bits. Arithmetic rounds every result once, to nearest with ties to
even; reading as a whole number cuts the fraction off and stops at the bounds.
-/

namespace CueRouter

/-- A floating-point number of 32 bits. -/
structure Single where
  /-- The bit pattern. -/
  bits : UInt32
  deriving DecidableEq, Inhabited

namespace Single

open Binary

/-- The number with the given pattern. -/
def ofPattern (pattern : Nat) : Single := ⟨.ofNat pattern⟩

/-- What the bits stand for. -/
def datum (x : Single) : Datum := Format.narrow.decode x.bits.toNat

/-- The positive zero. -/
def zero : Single := ⟨0⟩

/-- The number nearest to a quotient of natural numbers. -/
def ofQuotient (numerator denominator : Nat) : Single :=
  ofPattern (Format.narrow.round false numerator denominator)

/-- The number nearest to a whole number. -/
def ofInt (n : Int) : Single := ofPattern (Format.narrow.ofInt n)

/-- The number nearest to a datum. -/
def ofDatum (d : Datum) : Single := ofPattern (Format.narrow.encode d)

/-- The rounded sum. -/
def add (x y : Single) : Single :=
  ofPattern (Format.narrow.add x.datum y.datum)

/-- The rounded difference. -/
def subtract (x y : Single) : Single :=
  ofPattern (Format.narrow.add x.datum y.datum.negate)

/-- The rounded product. -/
def multiply (x y : Single) : Single :=
  ofPattern (Format.narrow.multiply x.datum y.datum)

/-- The rounded quotient. -/
def divide (x y : Single) : Single :=
  ofPattern (Format.narrow.divide x.datum y.datum)

/-- Whether the number is a zero of either sign. -/
def isZero (x : Single) : Bool := x.datum.isZero

/-- The whole number of 64 signed bits nearest to the number toward zero. -/
def truncate (x : Single) : Int64 :=
  .ofInt (x.datum.truncate (-9223372036854775808) 9223372036854775807)

end Single

end CueRouter
