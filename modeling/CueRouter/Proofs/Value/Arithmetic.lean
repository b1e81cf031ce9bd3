import CueRouter.Proofs.Value.Ends
import CueRouter.Value.Operator

/-!
# Arithmetic by ends

An operator has a result where both operands are numeric and nothing is divided by zero,
and the result is of the kind of the left operand. Where that kind has ends, each end of
the result is the exact result of the operator on integers, reduced to the kind: that the
number is wrapped to 64 bits on the way shows nowhere, and nothing overflows.
-/

namespace CueRouter

namespace Operator

/-- The operator on integers. A quotient is cut off towards zero. -/
def exact (op : Operator) (a b : ℤ) : ℤ :=
  match op with
  | divide => a.tdiv b
  | multiply => a * b
  | add => a + b
  | subtract => a - b

/-- In 64 bits, every operator has the exact result, wrapped, except for a quotient by
zero. -/
theorem onWholes_eq (op : Operator) (a b : Int64) :
    op.onWholes a b =
      if op = divide ∧ b.toInt = 0 then none
      else some (.ofInt (op.exact a.toInt b.toInt)) := by
  cases op with
  | divide =>
    by_cases zero : b.toInt = 0
    · rw [if_pos ⟨rfl, zero⟩]
      exact if_pos (Int64.toInt_inj.mp zero)
    · have quotient : a / b = .ofInt (a.toInt.tdiv b.toInt) := by
        apply Int64.toInt_inj.mp
        rw [Int64.toInt_div, Int64.toInt_ofInt]
      have nonzero : b ≠ 0 := by
        rintro rfl
        exact zero rfl
      rw [if_neg fun both => zero both.2]
      exact (if_neg nonzero).trans (congrArg some quotient)
  | multiply =>
    have product : a * b = .ofInt (a.toInt * b.toInt) := by
      rw [Int64.ofInt_mul, Int64.ofInt_toInt, Int64.ofInt_toInt]
    exact congrArg some product
  | add =>
    have sum : a + b = .ofInt (a.toInt + b.toInt) := by
      rw [Int64.ofInt_add, Int64.ofInt_toInt, Int64.ofInt_toInt]
    exact congrArg some sum
  | subtract =>
    have difference : a - b = .ofInt (a.toInt - b.toInt) := by
      rw [Int64.ofInt_sub, Int64.ofInt_toInt, Int64.ofInt_toInt]
    exact congrArg some difference

/-- On a span, every operator has the exact result at both ends, wrapped, except for a
quotient by zero at either end. -/
theorem onSpans_eq (op : Operator) (span : Span) (lo hi : Int64) :
    op.onSpans span lo hi =
      if op = divide ∧ (lo.toInt = 0 ∨ hi.toInt = 0) then none
      else some ⟨.ofInt (op.exact span.lo.toInt lo.toInt),
        .ofInt (op.exact span.hi.toInt hi.toInt)⟩ := by
  have each (a : Int32) (b : Int64) : op.onEnds a b =
      if op = divide ∧ b.toInt = 0 then none
      else some (.ofInt (op.exact a.toInt b.toInt)) := by
    unfold onEnds
    rw [onWholes_eq, Int32.toInt_toInt64]
    split
    · rfl
    · exact congrArg some Int64.toInt32_ofInt
  unfold onSpans
  rw [each, each]
  by_cases divides : op = divide
  · by_cases low : lo.toInt = 0 <;> by_cases high : hi.toInt = 0 <;> simp [divides, low, high]
  · simp [divides]

/-- Floating-point numbers have a result for every operator, except for a quotient by
zero. -/
theorem isSome_onSingles_iff (op : Operator) (x y : Single) :
    (op.onSingles x y).isSome = true ↔ ¬(op = divide ∧ y.isZero = true) := by
  cases op with
  | divide =>
    unfold onSingles
    cases y.isZero <;> simp
  | multiply | add | subtract => exact iff_of_true rfl fun both => nomatch both.1

/-- Sums, differences and products respect congruence. -/
theorem exact_modEq {op : Operator} (ring : op ≠ divide) {a a' b b' n : ℤ}
    (left : a ≡ a' [ZMOD n]) (right : b ≡ b' [ZMOD n]) :
    op.exact a b ≡ op.exact a' b' [ZMOD n] := by
  cases op with
  | divide => exact absurd rfl ring
  | multiply => exact left.mul right
  | add => exact left.add right
  | subtract => exact left.sub right

end Operator

namespace Value

/-- Whether dividing a value of the kind by this one is dividing by zero. What counts is
the floating-point number that the divisor converts to for a float, either end of it for a
range, and the whole number that it reads as for everything else. -/
def isZeroAs (v : Value) : Kind → Bool
  | .float => v.toReal?.any fun x => x.narrow.isZero
  | .range => v.low = 0 ∨ v.high = 0
  | .byte | .int | .long | .any | .reference | .invalid => v.low = 0

/-- That an operator does not divide by zero, in two forms. -/
theorem nonzero_iff {op : Operator} {v : Value} {kind : Kind} :
    (op = .divide → v.isZeroAs kind = false) ↔
      ¬(op = .divide ∧ v.isZeroAs kind = true) := by
  rw [not_and, Bool.not_eq_true]

/-- For a kind that has ends, dividing by a value is dividing by its ends. -/
theorem isZeroAs_iff {v : Value} {kind : Kind} (ends : kind.hasEnds = true) :
    v.isZeroAs kind = true ↔ v.low = 0 ∨ kind = .range ∧ v.high = 0 := by
  cases kind with
  | range => simp [isZeroAs]
  | byte | int | long => simp [isZeroAs]
  | float | any | reference | invalid => cases ends

/-- Exactly the values without a whole reading have no real one. -/
theorem toReal?_eq_none_iff {v : Value} : v.toReal? = none ↔ v.toWhole? = none := by
  cases v with
  | float => exact ⟨nofun, nofun⟩
  | byte | int | long | range | reference | invalid =>
    unfold toReal?
    dsimp only
    exact Option.map_eq_none_iff

variable {a b : Value}

/-- An operand that is not numeric has no result. -/
theorem apply_eq_invalid (op : Operator) (unread : a.toWhole? = none ∨ b.toWhole? = none) :
    a.apply op b = invalid := by
  have left : a.toWhole? = none → a.apply op b = invalid := by
    intro unread
    cases a with
    | byte | int | long | float | range => cases unread
    | reference | invalid => rfl
  have right : b.toWhole? = none → a.apply op b = invalid := by
    intro unread
    cases b with
    | byte | int | long | float | range => cases unread
    | reference | invalid => cases a <;> rfl
  exact unread.elim left right

/-- An operator on a value of an integer kind. -/
theorem apply_of_isInteger (op : Operator) (integer : a.kind.isInteger = true) {m : Int64}
    (reads : b.toWhole? = some m) (high : ℤ) :
    a.apply op b =
      if op = .divide ∧ b.isZeroAs a.kind = true then invalid
      else a.kind.make (op.exact a.low b.low) high := by
  have computed (narrow : Int64 → Value)
      (whole : a.compute? op b =
        b.toWhole?.bind fun m => (op.onWholes a.toWhole m).bind fun z => some (narrow z))
      (zero : b.isZeroAs a.kind = decide (b.low = 0))
      (made : ∀ n, narrow (.ofInt n) = a.kind.make n high) :
      a.apply op b = if op = .divide ∧ b.isZeroAs a.kind = true then invalid
        else a.kind.make (op.exact a.low b.low) high := by
    unfold apply
    rw [whole, reads, Option.bind_some, Operator.onWholes_eq, ← low_eq_of_toWhole? reads]
    simp only [zero, decide_eq_true_eq]
    split
    · rfl
    · exact made _
  cases a with
  | byte n =>
    have made (n : ℤ) : Kind.byte.make (Int64.ofInt n).toInt high = Kind.byte.make n high :=
      (make_eq_make_iff rfl).mpr ⟨Kind.reduced_toInt_ofInt .byte n, fun _ => rfl⟩
    exact computed (fun z => byte (.ofInt z.toInt)) rfl rfl made
  | int n =>
    exact computed (fun z => int z.toInt32) rfl rfl fun n => congrArg int Int64.toInt32_ofInt
  | long n => exact computed long rfl rfl fun n => rfl
  | float | range | reference | invalid => cases integer

/-- An operator on a range. -/
theorem apply_range (op : Operator) (span : Span) (numeric : b.toWhole? ≠ none) :
    (range span).apply op b =
      if op = .divide ∧ b.isZeroAs .range = true then invalid
      else Kind.range.make (op.exact (range span).low b.low)
        (op.exact (range span).high b.high) := by
  have computed (lo hi : Int64)
      (spans : (range span).compute? op b = (op.onSpans span lo hi).map range)
      (low : b.low = lo.toInt) (high : b.high = hi.toInt) :
      (range span).apply op b =
        if op = .divide ∧ b.isZeroAs .range = true then invalid
        else Kind.range.make (op.exact (range span).low b.low)
          (op.exact (range span).high b.high) := by
    have zero : b.isZeroAs .range = decide (lo.toInt = 0 ∨ hi.toInt = 0) := by
      rw [← low, ← high]
      rfl
    unfold apply
    rw [spans, Operator.onSpans_eq, low, high, low_range]
    simp only [zero, decide_eq_true_eq]
    split <;> rfl
  cases b with
  | range other =>
    have high : other.hi.toInt64.toInt = other.hi.toInt := Int32.toInt_toInt64 _
    exact computed other.lo.toInt64 other.hi.toInt64 rfl rfl high.symm
  | byte | int | long | float => exact computed _ _ rfl rfl rfl
  | reference | invalid => exact absurd rfl numeric

/-- An operator on a value that has ends yields the exact results at its ends, reduced,
unless it divides by zero. -/
theorem apply_eq_make (op : Operator) (ends : a.kind.hasEnds = true)
    (numeric : b.toWhole? ≠ none) :
    a.apply op b =
      if op = .divide ∧ b.isZeroAs a.kind = true then invalid
      else a.kind.make (op.exact a.low b.low) (op.exact a.high b.high) := by
  obtain ⟨m, reads⟩ := Option.ne_none_iff_exists'.mp numeric
  cases a with
  | range span => exact apply_range op span numeric
  | byte | int | long => exact apply_of_isInteger op rfl reads _
  | float | reference | invalid => cases ends

/-- To a value that has ends, operands with the same ends are the same. -/
theorem apply_eq_of_ends {c : Value} (op : Operator) (ends : a.kind.hasEnds = true)
    (left : b.toWhole? ≠ none) (right : c.toWhole? ≠ none) (low : b.low = c.low)
    (high : a.kind = .range → b.high = c.high) : a.apply op b = a.apply op c := by
  have zero : b.isZeroAs a.kind = c.isZeroAs a.kind := by
    rw [Bool.eq_iff_iff, isZeroAs_iff ends, isZeroAs_iff ends, low]
    exact or_congr_right (and_congr_right fun range => by rw [high range])
  rw [apply_eq_make op ends left, apply_eq_make op ends right, zero]
  split
  · rfl
  · refine (make_eq_make_iff ends).mpr ⟨by rw [low], fun range => by rw [high range]⟩

/-- An operator on a floating-point number. -/
theorem kind_apply_float (op : Operator) (x : Single) (numeric : b.toWhole? ≠ none) :
    ((float x).apply op b).kind =
      if op = .divide ∧ b.isZeroAs .float = true then .invalid else .float := by
  obtain ⟨y, reads⟩ := Option.ne_none_iff_exists'.mp (toReal?_eq_none_iff.not.mpr numeric)
  have zero : b.isZeroAs .float = y.narrow.isZero := by
    unfold isZeroAs
    rw [reads]
    rfl
  have computed : (float x).compute? op b =
      (op.onSingles x y.narrow).bind fun z => some (float z) := by
    unfold compute?
    dsimp only
    rw [reads]
    rfl
  have defined := op.isSome_onSingles_iff x y.narrow
  unfold apply
  rw [computed, zero]
  cases result : op.onSingles x y.narrow with
  | none =>
    rw [result, Option.isSome_none] at defined
    rw [if_pos (not_not.mp fun divides => by cases defined.mpr divides)]
    rfl
  | some z =>
    rw [result, Option.isSome_some] at defined
    rw [if_neg (defined.mp rfl)]
    rfl

/-- The result of an operator on numeric values is of the kind of the left one, unless it
divides by zero. -/
theorem kind_apply (op : Operator) (left : a.toWhole? ≠ none) (right : b.toWhole? ≠ none) :
    (a.apply op b).kind =
      if op = .divide ∧ b.isZeroAs a.kind = true then .invalid else a.kind := by
  have whole (ends : a.kind.hasEnds = true) : (a.apply op b).kind =
      if op = .divide ∧ b.isZeroAs a.kind = true then .invalid else a.kind := by
    rw [apply_eq_make op ends right]
    split
    · rfl
    · exact kind_make ends _ _
  cases a with
  | float x => exact kind_apply_float op x right
  | byte | int | long | range => exact whole rfl
  | reference | invalid => exact absurd rfl left

/-- An operator has a result exactly where both operands are numeric and it does not divide
by zero. -/
theorem isValid_apply_iff (op : Operator) :
    (a.apply op b).isValid = true ↔ a.toWhole? ≠ none ∧ b.toWhole? ≠ none ∧
      (op = .divide → b.isZeroAs a.kind = false) := by
  rw [isValid_iff]
  constructor
  · intro valid
    have left : a.toWhole? ≠ none := fun unread => valid (apply_eq_invalid op (.inl unread))
    have right : b.toWhole? ≠ none := fun unread => valid (apply_eq_invalid op (.inr unread))
    refine ⟨left, right, nonzero_iff.mpr fun zero => ?_⟩
    have kind := kind_apply op left right
    rw [if_pos zero] at kind
    exact valid (kind_eq_invalid_iff.mp kind)
  · rintro ⟨left, right, nonzero⟩ failed
    have kind := kind_apply op left right
    rw [if_neg (nonzero_iff.mp nonzero), failed] at kind
    exact left (toWhole?_eq_none_iff.mpr (.inr kind.symm))

/-- A result of an operator is of the kind of the left operand. -/
theorem kind_apply_of_isValid {op : Operator} (valid : (a.apply op b).isValid = true) :
    (a.apply op b).kind = a.kind := by
  obtain ⟨left, right, nonzero⟩ := (isValid_apply_iff op).mp valid
  rw [kind_apply op left right, if_neg (nonzero_iff.mp nonzero)]

end Value

end CueRouter
