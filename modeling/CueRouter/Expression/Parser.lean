import CueRouter.Expression.Basic

/-!
# Reading expressions

A text is cut at every operator character. Each piece between operators is one
operand, resolved in order, and the first piece that does not resolve decides
the fault of the whole.
-/

namespace CueRouter

/-- A piece of text that follows an operator. -/
structure OperandText where
  /-- The operator in front of the piece. -/
  operator : Operator
  /-- The piece. -/
  text : List Char
  deriving DecidableEq

/-- The pieces of a text: the one in front of the first operator, and those that
follow operators. -/
structure ExpressionText where
  /-- The piece in front of the first operator. -/
  start : List Char
  /-- The pieces that follow operators, in order. -/
  steps : List OperandText
  deriving DecidableEq

namespace ExpressionText

/-- Cut a text at every operator character. -/
def ofChars : List Char → ExpressionText
  | [] => ⟨[], []⟩
  | c :: cs =>
    let rest := ofChars cs
    match Operator.ofChar? c with
    | some operator => ⟨[], ⟨operator, rest.start⟩ :: rest.steps⟩
    | none => { rest with start := c :: rest.start }

/-- The pieces with their operators in between. -/
def toChars (pieces : ExpressionText) : List Char :=
  pieces.start ++ pieces.steps.flatMap fun step => step.operator.symbol :: step.text

theorem symbol_of_ofChar? {c : Char} {operator : Operator}
    (h : Operator.ofChar? c = some operator) : operator.symbol = c := by
  have := List.find?_some h
  simpa using this

/-- Cutting loses nothing. -/
theorem toChars_ofChars (cs : List Char) : (ofChars cs).toChars = cs := by
  induction cs with
  | nil => rfl
  | cons c cs ih =>
    unfold ofChars
    simp only
    cases h : Operator.ofChar? c with
    | some operator =>
      simp only [toChars, List.nil_append, List.flatMap_cons, List.cons_append]
      rw [symbol_of_ofChar? h]
      simpa [toChars] using ih
    | none => simpa [toChars] using ih

end ExpressionText

namespace Scope

/-- Resolve the operand behind an operator. -/
def readStep (scope : Scope) (keyNames : Bool) (step : OperandText) :
    Except ConfigFault Step := do
  let operand ← scope.readToken (String.ofList step.text) keyNames
  return ⟨step.operator, operand⟩

/-- Read an expression. -/
def readExpression (scope : Scope) (text : String) (keyNames : Bool) :
    Except ConfigFault Expression := do
  let pieces := ExpressionText.ofChars text.toList
  let start ← scope.readToken (String.ofList pieces.start) keyNames
  let steps ← pieces.steps.mapM (scope.readStep keyNames)
  return ⟨start, steps⟩

end Scope

end CueRouter
