import CueRouter.Expression.Token
import CueRouter.Value.Operator

/-!
# Expressions

An expression is an operand followed by operators, each with an operand of its
own. They apply strictly from left to right, so `1+2*3` is nine, and the result
has the kind of the first operand. An expression of constants only is folded
once and for all.
-/

namespace CueRouter

/-- An operator with its right operand. -/
structure Step where
  /-- The operator. -/
  operator : Operator
  /-- The right operand. -/
  operand : Token
  deriving DecidableEq

/-- A first operand and the steps applied to it from left to right. -/
structure Expression where
  /-- The first operand. -/
  start : Token
  /-- The steps in the order they apply. -/
  steps : List Step
  deriving DecidableEq

namespace Expression

/-- The expression without operands. -/
def empty : Expression := ⟨.nothing, []⟩

/-- The expression that always yields the value. -/
def constant (value : Value) : Expression := ⟨.constant value, []⟩

/-- Whether every operand is a constant. -/
def isConstant (expression : Expression) : Bool :=
  expression.start.isConstant &&
    expression.steps.all fun step => step.operand.isConstant

/-- The variable that the expression names, if it is a single variable. -/
def toVariable? (expression : Expression) : Option Handle :=
  match expression with
  | ⟨.variableAt handle, []⟩ => some handle
  | _ => none

/-- Apply one step to the value so far. -/
def applyStep (event : Event) (store : Store) (soFar : Value) (step : Step) : Value :=
  soFar.apply step.operator (step.operand.evaluate event store)

/-- The value of the expression. -/
def evaluate (expression : Expression) (event : Event) (store : Store) : Value :=
  expression.steps.foldl (applyStep event store)
    (expression.start.evaluate event store)

/-- The value of an expression of constants. -/
def fold? (expression : Expression) : Option Value :=
  if expression.isConstant then some (expression.evaluate .blank .empty) else none

/-- An expression of constants has its folded value for every event and
store. -/
theorem evaluate_of_fold? {expression : Expression} {value : Value}
    (h : expression.fold? = some value) (event : Event) (store : Store) :
    expression.evaluate event store = value := by
  obtain ⟨start, steps⟩ := expression
  unfold fold? at h
  split at h
  · next allConstant =>
    cases h
    simp only [isConstant, Bool.and_eq_true, List.all_eq_true] at allConstant
    obtain ⟨first, others⟩ := allConstant
    simp only [evaluate]
    rw [Token.evaluate_of_isConstant first event .blank store .empty]
    generalize start.evaluate .blank .empty = soFar
    induction steps generalizing soFar with
    | nil => rfl
    | cons step steps ih =>
      simp only [List.foldl_cons, applyStep]
      rw [Token.evaluate_of_isConstant (others step (by simp)) event .blank
        store .empty]
      exact ih (fun s member => others s (by simp [member])) _
  · cases h

end Expression

end CueRouter
