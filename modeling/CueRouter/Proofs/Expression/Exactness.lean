import CueRouter.Proofs.Expression.Validity

/-!
# Expressions without division

Sums, differences and products may be reduced to the width of a kind at any time or once at
the end: it makes no difference, however often a number is wrapped on the way. An expression
of these operators has therefore the exact value that its operands have as integers, applied
from left to right and reduced once. In a range, this holds at each end.
-/

namespace CueRouter.Expression

variable {event : Event} {store : Store} {steps : List Step}

/-- Reducing at every step changes nothing but multiples of the number of values, and
neither does another number to start from, if it differs by such a multiple. -/
theorem foldl_narrowed_modEq (kind : Kind) (endOf : Value → ℤ)
    (ring : ∀ step ∈ steps, step.operator ≠ .divide) {m n : ℤ}
    (same : m ≡ n [ZMOD kind.modulus]) :
    steps.foldl (Step.narrowed event store kind endOf) m ≡
      steps.foldl (Step.exact event store endOf) n [ZMOD kind.modulus] := by
  induction steps generalizing m n with
  | nil => exact same
  | cons step steps ih =>
    obtain ⟨first, rest⟩ := List.forall_mem_cons.mp ring
    have reduces : Step.narrowed event store kind endOf m step ≡
        Step.exact event store endOf m step [ZMOD kind.modulus] := kind.reduced_modEq _
    have moves : Step.exact event store endOf m step ≡
        Step.exact event store endOf n step [ZMOD kind.modulus] :=
      Operator.exact_modEq first same rfl
    exact ih rest (reduces.trans moves)

/-- Reducing at every step and once again comes to reducing once at the end. -/
theorem reduced_foldl_narrowed (kind : Kind) (endOf : Value → ℤ)
    (ring : ∀ step ∈ steps, step.operator ≠ .divide) (n : ℤ) :
    kind.reduced (steps.foldl (Step.narrowed event store kind endOf) n) =
      kind.reduced (steps.foldl (Step.exact event store endOf) n) :=
  Kind.reduced_eq_reduced_iff.mpr (foldl_narrowed_modEq kind endOf ring rfl)

/-- A step that does not divide is defined for every operand that has ends. -/
theorem defined_of_hasEnds {step : Step} (ring : step.operator ≠ .divide)
    (ends : (step.operand.evaluate event store).kind.hasEnds = true) (kind : Kind) :
    step.Defined event store kind := by
  obtain ⟨valid, plain⟩ :=
    Value.toWhole?_ne_none_iff.mp (Value.toWhole?_ne_none_of_hasEnds ends)
  exact ⟨valid, plain, fun divides => absurd divides ring⟩

/-- An expression that does not divide, of operands that have ends, yields a value of the
kind of the first operand. Each of its ends is the exact result at this end, from left to
right, reduced once to the kind. -/
theorem evaluate_exact (expression : Expression) (event : Event) (store : Store)
    (ring : ∀ step ∈ expression.steps, step.operator ≠ .divide)
    (begins : (expression.start.evaluate event store).kind.hasEnds = true)
    (continues : ∀ step ∈ expression.steps,
      (step.operand.evaluate event store).kind.hasEnds = true) :
    let start := expression.start.evaluate event store
    let result := expression.evaluate event store
    result.kind = start.kind ∧
      result.low =
        start.kind.reduced (expression.steps.foldl (Step.exact event store Value.low) start.low) ∧
      (start.kind = .range → result.high =
        start.kind.reduced
          (expression.steps.foldl (Step.exact event store Value.high) start.high)) := by
  intro start result
  have defined : ∀ step ∈ expression.steps, step.Defined event store start.kind :=
    fun step member => defined_of_hasEnds (ring step member) (continues step member) _
  have made : result = _ := foldl_eq_make begins defined
  rw [made]
  refine ⟨Value.kind_make begins _ _, ?_, fun range => ?_⟩
  · rw [Value.low_make begins, reduced_foldl_narrowed _ _ ring]
  · rw [Value.high_make range, reduced_foldl_narrowed _ _ ring]

/-- A range of numbers near the greatest and below zero, tripled and then lessened by
another range. -/
def tripled : Expression :=
  ⟨.constant (.range ⟨2000000000, -5⟩),
    [⟨.multiply, .constant (.byte 3)⟩, ⟨.subtract, .constant (.range ⟨1, 2⟩)⟩]⟩

/-- The low end has gone around once, and the high end has not. -/
theorem evaluate_exact_tripled :
    tripled.evaluate .blank .empty = .range ⟨5999999999 - 2 ^ 32, -17⟩ := by
  obtain ⟨kind, low, high⟩ :=
    evaluate_exact tripled .blank .empty (by decide) rfl (by decide)
  refine Value.eq_of_ends kind (by rw [kind]; rfl) (low.trans (by decide)) fun range => ?_
  exact (high (kind.symm.trans range)).trans (by decide)

end CueRouter.Expression
