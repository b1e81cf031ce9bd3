import CueRouter.Decimal.Fixed
import CueRouter.Value.Basic

/-!
# Values as text

Whole numbers are written in decimal, floats with two places, spans with both
ends, and references with the position of their variable.
-/

namespace CueRouter

open Text

/-- The decimal places that floats are shown with. -/
def shownPlaces : Nat := 2

/-- The position of a variable, as a text. -/
def Handle.text (handle : Handle) : String := Numeral.text handle.index

/-- The value as a text. -/
def Value.text : Value → String
  | byte n => Numeral.text n.toNat
  | int n => Numeral.text n.toInt
  | long n => Numeral.text n.toInt
  | float x => Decimal.fixed shownPlaces x.datum
  | range span => span.text
  | reference handle => "&" ++ handle.text
  | invalid => "invalid"

end CueRouter
