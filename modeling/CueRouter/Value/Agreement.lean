import CueRouter.Value.Basic

/-!
# Agreement of values

A condition holds when its two sides agree. Plain numbers agree when they are
equal, compared as reals if either is a float and as whole numbers otherwise. A
number agrees with a span that it lies in, two spans agree when both ends do,
and a reference agrees only with a reference to the same variable. A failed
result agrees with nothing.
-/

namespace CueRouter

/-- Whether a real number lies between the ends, ends included. -/
def Span.containsReal (span : Span) (x : Double) : Bool :=
  (Double.ofInt span.least).atMost x && x.atMost (.ofInt span.greatest)

namespace Value

/-- Whether a numeric value lies in a span. -/
def liesIn (v : Value) (span : Span) : Bool :=
  v.toReal?.any span.containsReal

/-- Whether the real readings of two values are equal numbers. -/
def sameReal (a b : Value) : Bool :=
  match a.toReal?, b.toReal? with
  | some x, some y => x.sameNumber y
  | _, _ => false

/-- Whether the two sides of a condition agree. -/
def agrees : Value → Value → Bool
  | invalid, _ | _, invalid => false
  | reference a, reference b => a == b
  | reference _, _ | _, reference _ => false
  | range a, range b => a == b
  | range span, v | v, range span => v.liesIn span
  | float x, v => sameReal (float x) v
  | v, float x => sameReal v (float x)
  | a, b => a.toWhole? == b.toWhole?

/-- Whether two values are equal, floats as numbers and all others exactly. -/
def isEqual : Value → Value → Bool
  | float x, float y => x.widen.sameNumber y.widen
  | a, b => a == b

/-- A failed result agrees with nothing, itself included. -/
theorem agrees_invalid (v : Value) :
    v.agrees invalid = false ∧ invalid.agrees v = false := by
  cases v <;> exact ⟨rfl, rfl⟩

end Value

end CueRouter
