import CueRouter.Value.Basic

/-!
# Arithmetic on values

There are four operators and no precedence among them. A result has the kind
of its left operand; the right operand is read as that kind needs it. Whole
numbers are computed in 64 bits and wrap, first there and then in the width of
the kind; a span is computed end by end. Division by zero and operands that are
not numeric give the invalid value.
-/

namespace CueRouter

/-- An arithmetic operator. -/
inductive Operator where
  /-- The quotient, cut off to a whole number where the operands are whole. -/
  | divide
  /-- The product. -/
  | multiply
  /-- The sum. -/
  | add
  /-- The difference. -/
  | subtract
  deriving DecidableEq, Inhabited

namespace Operator

/-- The character that an operator is written with. -/
def symbol : Operator → Char
  | divide => '/'
  | multiply => '*'
  | add => '+'
  | subtract => '-'

/-- The operator written with the character. -/
def ofChar? (c : Char) : Option Operator :=
  [divide, multiply, add, subtract].find? fun op => op.symbol == c

/-- The operator on whole numbers of 64 bits. -/
def onWholes (op : Operator) (a b : Int64) : Option Int64 :=
  match op with
  | divide => if b = 0 then none else some (a / b)
  | multiply => some (a * b)
  | add => some (a + b)
  | subtract => some (a - b)

/-- The operator on floating-point numbers. -/
def onSingles (op : Operator) (a b : Single) : Option Single :=
  match op with
  | divide => if b.isZero then none else some (a.divide b)
  | multiply => some (a.multiply b)
  | add => some (a.add b)
  | subtract => some (a.subtract b)

/-- The operator on an end of a span, wrapped back to 32 bits. -/
def onEnds (op : Operator) (a : Int32) (b : Int64) : Option Int32 :=
  (op.onWholes a.toInt64 b).map Int64.toInt32

/-- The operator on both ends of a span. -/
def onSpans (op : Operator) (span : Span) (lo hi : Int64) : Option Span := do
  let lo ← op.onEnds span.lo lo
  let hi ← op.onEnds span.hi hi
  return ⟨lo, hi⟩

/-- An operator is read back from its symbol. -/
theorem ofChar?_symbol (op : Operator) : ofChar? op.symbol = some op := by
  cases op <;> decide

end Operator

namespace Value

/-- The result of an operator, if there is one. -/
def compute? (a : Value) (op : Operator) (b : Value) : Option Value :=
  match a with
  | byte n => do
    let m ← op.onWholes (.ofNat n.toNat) (← b.toWhole?)
    return .byte (.ofInt m.toInt)
  | int n => do
    let m ← op.onWholes n.toInt64 (← b.toWhole?)
    return .int m.toInt32
  | long n => do
    let m ← op.onWholes n (← b.toWhole?)
    return .long m
  | float x => do
    let y ← op.onSingles x (← b.toReal?).narrow
    return .float y
  | range span =>
    match b with
    | range other =>
      (op.onSpans span other.lo.toInt64 other.hi.toInt64).map .range
    | _ => do
      let m ← b.toWhole?
      (op.onSpans span m m).map .range
  | reference _ | invalid => none

/-- The result of an operator, in the kind of the left operand. -/
def apply (a : Value) (op : Operator) (b : Value) : Value :=
  (a.compute? op b).getD .invalid

end Value

end CueRouter
