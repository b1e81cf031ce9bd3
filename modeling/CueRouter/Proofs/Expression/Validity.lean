import CueRouter.Expression.Basic
import CueRouter.Proofs.Value.Arithmetic

/-!
# When an expression has a value

An expression fails at the first operand that has no number, at a first operand that is a
reference with something to apply to it, and at a division by zero. What failed stays
failed. Anything else has a value of the kind of the first operand, and where that kind has
ends, each step leaves the exact results at both of them, reduced to the kind. The quotient
of the least number by minus one is no exception.
-/

namespace CueRouter

namespace Step

/-- Whether the step has a result for numbers of the kind: its operand is a number, and
not zero if it is a divisor. -/
structure Defined (event : Event) (store : Store) (kind : Kind) (step : Step) : Prop where
  /-- The operand did not fail. -/
  valid : (step.operand.evaluate event store).isValid = true
  /-- The operand is not a reference. -/
  plain : (step.operand.evaluate event store).kind ≠ .reference
  /-- The operand is no zero that the kind would be divided by. -/
  divisible : step.operator = .divide →
    (step.operand.evaluate event store).isZeroAs kind = false

/-- The exact result of the step on one end, by the same end of its operand. -/
def exact (event : Event) (store : Store) (endOf : Value → ℤ) (n : ℤ) (step : Step) : ℤ :=
  step.operator.exact n (endOf (step.operand.evaluate event store))

/-- The exact result of the step on one end, reduced to the kind. -/
def narrowed (event : Event) (store : Store) (kind : Kind) (endOf : Value → ℤ) (n : ℤ)
    (step : Step) : ℤ :=
  kind.reduced (step.exact event store endOf n)

end Step

/-- The numeric values are those that are valid and no references. -/
theorem Value.toWhole?_ne_none_iff {v : Value} :
    v.toWhole? ≠ none ↔ v.isValid = true ∧ v.kind ≠ .reference := by
  rw [ne_eq, toWhole?_eq_none_iff, not_or, isValid, bne_iff_ne, and_comm]

namespace Expression

variable {event : Event} {store : Store} {soFar : Value} {step : Step}

/-- A step has a result for every number that it is defined for, and for nothing else. -/
theorem isValid_applyStep_iff :
    (applyStep event store soFar step).isValid = true ↔
      (soFar.isValid = true ∧ soFar.kind ≠ .reference) ∧
        step.Defined event store soFar.kind := by
  unfold applyStep
  rw [Value.isValid_apply_iff, Value.toWhole?_ne_none_iff, Value.toWhole?_ne_none_iff]
  refine and_congr_right fun _ => ?_
  constructor
  · rintro ⟨⟨valid, plain⟩, divisible⟩
    exact ⟨valid, plain, divisible⟩
  · rintro ⟨valid, plain, divisible⟩
    exact ⟨⟨valid, plain⟩, divisible⟩

/-- A step that is defined yields the exact results at the ends, reduced. -/
theorem applyStep_eq_make (ends : soFar.kind.hasEnds = true)
    (defined : step.Defined event store soFar.kind) :
    applyStep event store soFar step =
      soFar.kind.make (step.exact event store Value.low soFar.low)
        (step.exact event store Value.high soFar.high) := by
  have numeric := Value.toWhole?_ne_none_iff.mpr ⟨defined.valid, defined.plain⟩
  exact (Value.apply_eq_make step.operator ends numeric).trans
    (if_neg (Value.nonzero_iff.mp defined.divisible))

/-- Applying steps has a result exactly if every step is defined for the kind of the
value that they start from. -/
theorem isValid_foldl_iff (steps : List Step) :
    (steps.foldl (applyStep event store) soFar).isValid = true ↔
      soFar.isValid = true ∧ (soFar.kind = .reference → steps = []) ∧
        ∀ step ∈ steps, step.Defined event store soFar.kind := by
  induction steps generalizing soFar with
  | nil => simp
  | cons step steps ih =>
    rw [List.foldl_cons, ih]
    constructor
    · rintro ⟨valid, -, rest⟩
      obtain ⟨⟨begun, plain⟩, defined⟩ := isValid_applyStep_iff.mp valid
      have kind : (applyStep event store soFar step).kind = soFar.kind :=
        Value.kind_apply_of_isValid valid
      rw [kind] at rest
      exact ⟨begun, fun reference => absurd reference plain,
        List.forall_mem_cons.mpr ⟨defined, rest⟩⟩
    · rintro ⟨begun, reference, defined⟩
      have plain : soFar.kind ≠ .reference := fun kind => List.cons_ne_nil _ _ (reference kind)
      obtain ⟨first, rest⟩ := List.forall_mem_cons.mp defined
      have valid := isValid_applyStep_iff.mpr ⟨⟨begun, plain⟩, first⟩
      have kind : (applyStep event store soFar step).kind = soFar.kind :=
        Value.kind_apply_of_isValid valid
      rw [kind]
      exact ⟨valid, fun reference => absurd reference plain, rest⟩

/-- The result of applying steps is of the kind that they start from. -/
theorem kind_foldl_of_isValid {steps : List Step}
    (valid : (steps.foldl (applyStep event store) soFar).isValid = true) :
    (steps.foldl (applyStep event store) soFar).kind = soFar.kind := by
  induction steps generalizing soFar with
  | nil => rfl
  | cons step steps ih =>
    have next := (isValid_foldl_iff steps).mp valid
    exact (ih valid).trans (Value.kind_apply_of_isValid next.1)

/-- The result of applying steps that are defined, end by end. -/
theorem foldl_eq_make {steps : List Step} (ends : soFar.kind.hasEnds = true)
    (defined : ∀ step ∈ steps, step.Defined event store soFar.kind) :
    steps.foldl (applyStep event store) soFar =
      soFar.kind.make (steps.foldl (Step.narrowed event store soFar.kind Value.low) soFar.low)
        (steps.foldl (Step.narrowed event store soFar.kind Value.high) soFar.high) := by
  induction steps generalizing soFar with
  | nil => exact (Value.make_low_high ends).symm
  | cons step steps ih =>
    obtain ⟨first, rest⟩ := List.forall_mem_cons.mp defined
    have next := applyStep_eq_make ends first
    have kind := congrArg Value.kind next
    rw [Value.kind_make ends] at kind
    rw [← kind] at rest
    rw [List.foldl_cons, ih (by rwa [kind]) rest, kind, next, Value.low_make ends]
    refine (Value.make_eq_make_iff ends).mpr ⟨rfl, fun range => ?_⟩
    rw [Value.high_make range]
    rfl

/-- An expression has a value exactly if its first operand does, no step follows on a
reference, and every step is defined for the kind of the first operand. The value is of
that kind; where the kind has ends, it is what the steps leave at each end, computed exactly
and reduced. -/
theorem isValid_evaluate_iff (expression : Expression) (event : Event) (store : Store) :
    let start := expression.start.evaluate event store
    let result := expression.evaluate event store
    (result.isValid = true ↔
        start.isValid = true ∧ (start.kind = .reference → expression.steps = []) ∧
          ∀ step ∈ expression.steps, step.Defined event store start.kind) ∧
      (result.isValid = true → result.kind = start.kind) ∧
      (result.isValid = true → start.kind.hasEnds = true →
        result = start.kind.make
          (expression.steps.foldl (Step.narrowed event store start.kind Value.low) start.low)
          (expression.steps.foldl (Step.narrowed event store start.kind Value.high)
            start.high)) := by
  intro start result
  have defined : result.isValid = true ↔ _ := isValid_foldl_iff expression.steps
  refine ⟨defined, kind_foldl_of_isValid, fun valid ends => ?_⟩
  exact foldl_eq_make ends (defined.mp valid).2.2

/-- The least long number divided by minus one. -/
def leastQuotient : Expression :=
  ⟨.constant (.long .minValue), [⟨.divide, .constant (.int (-1))⟩]⟩

/-- A range divided by a range that ends at zero. -/
def zeroEndQuotient : Expression :=
  ⟨.constant (.range ⟨6, 8⟩), [⟨.divide, .constant (.range ⟨3, 0⟩)⟩]⟩

/-- The least number divided by minus one is itself again, and one zero end is enough for a
quotient to fail. -/
theorem isValid_evaluate_iff_quotients :
    leastQuotient.evaluate .blank .empty = .long .minValue ∧
      (zeroEndQuotient.evaluate .blank .empty).isValid = false := by
  obtain ⟨least, -, value⟩ := isValid_evaluate_iff leastQuotient .blank .empty
  obtain ⟨zeroEnd, -⟩ := isValid_evaluate_iff zeroEndQuotient .blank .empty
  have defined : ∀ step ∈ leastQuotient.steps, step.Defined .blank .empty .long := by
    intro step member
    rw [List.mem_singleton.mp member]
    exact ⟨rfl, nofun, fun _ => rfl⟩
  constructor
  · have valid := least.mpr ⟨rfl, nofun, defined⟩
    exact (value valid rfl).trans (by decide)
  · rw [← Bool.not_eq_true, zeroEnd]
    rintro ⟨-, -, defined⟩
    have divisible := (defined _ List.mem_cons_self).divisible rfl
    revert divisible
    decide

end Expression

end CueRouter
