import CueRouter.Decimal.PowerOfTen

/-!
# Fader positions and linear gain

A fader is logarithmic: position one is unity gain, and every position below
it attenuates by a fixed number of decibels per unit, sixty at position zero.
At zero and below the fader is silent.
-/

namespace CueRouter.Fader

/-- The decibels between unity gain and the lowest audible position. -/
def rangeDecibels : Single := .ofInt 60

/-- The decibels of a tenfold gain. -/
def decadeDecibels : Single := .ofInt 20

/-- Whether the position is at or below zero. -/
def isSilent (position : Single) : Bool :=
  match position.datum.compare? Single.zero.datum with
  | some .lt | some .eq => true
  | _ => false

/-- The linear gain of a fader position. -/
def gain (position : Single) : Single :=
  if isSilent position then .zero
  else Decimal.tenRaised
    (((position.subtract (.ofInt 1)).multiply rangeDecibels).divide decadeDecibels)

end CueRouter.Fader
