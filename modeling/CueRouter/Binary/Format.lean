/-!
# Binary floating-point formats

A format is given by the widths of its fraction and exponent fields. A bit
pattern reads as one datum: not a number, an infinity, or a signed significand
scaled by a power of two. Magnitude patterns, that is patterns without the
sign bit, grow with the number they stand for, and the least of those that are
not finite is the infinity.
-/

namespace CueRouter.Binary

/-- The field widths of a floating-point format. -/
structure Format where
  /-- Bits of the fraction field. -/
  fractionBits : Nat
  /-- Bits of the exponent field. -/
  exponentBits : Nat

/-- The format of 32 bits. -/
def Format.narrow : Format := ⟨23, 8⟩

/-- The format of 64 bits. -/
def Format.wide : Format := ⟨52, 11⟩

namespace Format

/-- The number of magnitude patterns that share one exponent field. -/
def fractions (f : Format) : Nat := Nat.pow 2 f.fractionBits

/-- The number of magnitude patterns, which is also the sign bit. -/
def signBit (f : Format) : Nat := Nat.pow 2 (f.fractionBits + f.exponentBits)

/-- The magnitude pattern of the infinities. -/
def infinity (f : Format) : Nat := (Nat.pow 2 f.exponentBits - 1) * f.fractions

/-- The pattern that stands for every result that is not a number. -/
def notNumber (f : Format) : Nat := f.infinity + Nat.pow 2 (f.fractionBits - 1)

/-- The exponent of the least positive number. -/
def leastExponent (f : Format) : Int :=
  2 - Nat.pow 2 (f.exponentBits - 1) - f.fractionBits

end Format

/-- What a bit pattern stands for. -/
inductive Datum where
  /-- Not a number. -/
  | nan
  /-- An infinity of the given sign. -/
  | infinite (negative : Bool)
  /-- The number `significand * 2 ^ exponent`, negated if so marked. -/
  | finite (negative : Bool) (significand : Nat) (exponent : Int)
  deriving DecidableEq

/-- Read a bit pattern. A zero exponent field has no hidden bit. -/
def Format.decode (f : Format) (bits : Nat) : Datum :=
  let negative := bits / f.signBit % 2 == 1
  let magnitude := bits % f.signBit
  if f.infinity < magnitude then .nan
  else if magnitude = f.infinity then .infinite negative
  else
    let fraction := magnitude % f.fractions
    match magnitude / f.fractions with
    | 0 => .finite negative fraction f.leastExponent
    | field + 1 => .finite negative (f.fractions + fraction) (f.leastExponent + field)

/-- A magnitude pattern with its sign. -/
def Format.withSign (f : Format) (negative : Bool) (magnitude : Nat) : Nat :=
  if negative then f.signBit + magnitude else magnitude

end CueRouter.Binary
