import CueRouter.Fault
import CueRouter.Value.Basic

/-!
# Literals

A literal is made of decimal digits, points, spaces and the span separator, and
its characters decide its kind: a separator makes a span, a point a float, and
anything else a whole number, which is an int where it fits and a long where it
does not. Blank ends are removed first.
-/

namespace CueRouter

open Text

/-- Whether a literal may contain the character. -/
def isLiteralChar (c : Char) : Bool :=
  Numeral.isDigit c || c == '.' || c == ' ' || c == Span.separator

/-- The float written as digits around a single point, with a digit on at least
one side. -/
def readPointed? (cs : List Char) : Option Single := do
  let halves ← splitAtFirst '.' cs
  let shown := halves.1 ++ halves.2
  if shown.isEmpty || !shown.all Numeral.isDigit then none
  else some (.ofQuotient (Numeral.digitsValue shown) (Nat.pow 10 halves.2.length))

/-- The whole number of the characters, as an int where it fits and as a long
where it does not. -/
def readWhole? (cs : List Char) : Option Value :=
  match Numeral.read Numeral.signed32 cs with
  | .ok n => some (.int (.ofInt n))
  | .error _ =>
    match Numeral.read Numeral.signed64 cs with
    | .ok n => some (.long (.ofInt n))
    | .error _ => none

/-- The value that trimmed characters denote. -/
def readLiteral? (cs : List Char) : Option Value :=
  if cs.isEmpty || !cs.all isLiteralChar then none
  else if cs.contains Span.separator then
    (Span.ofChars cs).toOption.map .range
  else if cs.contains '.' then (readPointed? cs).map .float
  else readWhole? cs

/-- The value that a literal denotes. -/
def Value.ofLiteral? (s : String) : Option Value := readLiteral? (trimChars s.toList)

/-- The value that a literal denotes, or the fault of a text that is none. -/
def Value.ofLiteral (s : String) : Except ConfigFault Value :=
  match Value.ofLiteral? s with
  | some v => .ok v
  | none => .error (.malformedToken s)

end CueRouter
