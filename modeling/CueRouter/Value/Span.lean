import CueRouter.Text.Numeral
import CueRouter.Text.Split

/-!
# Spans

A span is an inclusive stretch of integers between two ends of 32 bits, written
`lo>hi`. The ends need not be in order; a span holds what lies between them
either way round. A text without the separator is a span of one number.
-/

namespace CueRouter

open Text

/-- An inclusive span of integers. -/
structure Span where
  /-- The first end. -/
  lo : Int32
  /-- The second end. -/
  hi : Int32
  deriving DecidableEq, Inhabited

namespace Span

/-- The character between the two ends in text. -/
def separator : Char := '>'

/-- The span of a single number. -/
def single (n : Int32) : Span := ⟨n, n⟩

/-- Apply the same function to both ends. -/
def map (f : Int32 → Int32) (span : Span) : Span := ⟨f span.lo, f span.hi⟩

/-- The lesser of the two ends. -/
def least (span : Span) : Int := min span.lo.toInt span.hi.toInt

/-- The greater of the two ends. -/
def greatest (span : Span) : Int := max span.lo.toInt span.hi.toInt

/-- Whether the number lies between the ends, ends included. -/
def contains (span : Span) (n : Int64) : Bool :=
  span.least ≤ n.toInt && n.toInt ≤ span.greatest

/-- Both ends with the separator between them. -/
def text (span : Span) : String :=
  String.ofList
    (Numeral.write span.lo.toInt ++ separator :: Numeral.write span.hi.toInt)

/-- One end, read with blank ends removed. -/
def readEnd (cs : List Char) : Except Numeral.Fault Int32 :=
  (Numeral.read Numeral.signed32 (trimChars cs)).map Int32.ofInt

/-- The span that the characters denote: the ends stand before and after the
first separator, and a text without one is both ends. -/
def ofChars (cs : List Char) : Except Numeral.Fault Span := do
  let halves := (splitAtFirst separator cs).getD (cs, cs)
  let lo ← readEnd halves.1
  let hi ← readEnd halves.2
  return ⟨lo, hi⟩

/-- The span that a text denotes. -/
def ofText (s : String) : Except Numeral.Fault Span := ofChars s.toList

end Span

end CueRouter
