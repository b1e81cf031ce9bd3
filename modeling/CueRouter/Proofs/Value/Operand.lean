import CueRouter.Proofs.Value.Arithmetic

/-!
# Converting the right operand

The right operand of an operator is read as it is, and only the result is reduced to the
kind of the left one. Reducing the operand first comes to the same for sums, differences
and products. For quotients it does so where the operand fits the kind, and it may differ
where the operand does not: a byte of 200 is divided by 258 in one order and by 2 in the
other.
-/

namespace CueRouter

namespace Kind

/-- Whether reducing the divisor to the kind changes nothing about a reduced quotient:
neither whether there is one nor what it is. -/
def DividesAlike (kind : Kind) (n m : ℤ) : Prop :=
  (kind.reduced m = 0 → m = 0) ∧
    kind.reduced (n.tdiv m) = kind.reduced (n.tdiv (kind.reduced m))

/-- A divisor within the width of the kind stays as it is. -/
theorem dividesAlike_of_reduced {kind : Kind} {m : ℤ} (fits : kind.reduced m = m) (n : ℤ) :
    kind.DividesAlike n m := by
  unfold DividesAlike
  rw [fits]
  exact ⟨id, rfl⟩

end Kind

namespace Value

/-- Whether reducing the divisor first changes nothing at any end of the dividend. -/
def DividesAlike (a b : Value) : Prop :=
  a.kind.DividesAlike a.low b.low ∧ (a.kind = .range → a.kind.DividesAlike a.high b.high)

variable {a b : Value}

/-- Where the low end fits a range, the high end does, too. -/
theorem reduced_high_of_reduced_low (fits : a.kind.reduced b.low = b.low)
    (range : a.kind = .range) : a.kind.reduced b.high = b.high := by
  by_cases spans : b.kind = .range
  · rw [range, ← spans]
    exact reduced_high spans
  · rwa [high_eq_low spans]

/-- At every end, a divisor within the width of the dividend stays as it is. -/
theorem dividesAlike_of_reduced (fits : a.kind.reduced b.low = b.low) : a.DividesAlike b :=
  ⟨Kind.dividesAlike_of_reduced fits _, fun range =>
    Kind.dividesAlike_of_reduced (reduced_high_of_reduced_low fits range) _⟩

/-- An operand that was converted to a kind has the ends that it had, reduced. -/
theorem ends_convert {kind : Kind} (left : kind.hasEnds = true)
    (right : b.kind.hasEnds = true) :
    (b.convert kind).toWhole? ≠ none ∧ (b.convert kind).low = kind.reduced b.low ∧
      (kind = .range → (b.convert kind).high = kind.reduced b.high) := by
  rw [convert_eq_make left (toWhole?_ne_none_of_hasEnds right)]
  refine ⟨toWhole?_ne_none_of_hasEnds ?_, low_make left _ _, fun range => high_make range _ _⟩
  rwa [kind_make left]

/-- Converting an operand that fits changes nothing. -/
theorem apply_convert_of_reduced (op : Operator) (left : a.kind.hasEnds = true)
    (right : b.kind.hasEnds = true) (fits : a.kind.reduced b.low = b.low) :
    a.apply op b = a.apply op (b.convert a.kind) := by
  obtain ⟨numeric, low, high⟩ := ends_convert left right
  refine apply_eq_of_ends op left (toWhole?_ne_none_of_hasEnds right) numeric ?_ ?_
  · rw [low, fits]
  · intro range
    rw [high range, reduced_high_of_reduced_low fits range]

/-- Converting an operand changes no sum, difference or product. -/
theorem apply_convert_of_ne_divide {op : Operator} (ring : op ≠ .divide)
    (left : a.kind.hasEnds = true) (right : b.kind.hasEnds = true) :
    a.apply op b = a.apply op (b.convert a.kind) := by
  obtain ⟨numeric, low, high⟩ := ends_convert left right
  have same (n m : ℤ) :
      a.kind.reduced (op.exact n m) = a.kind.reduced (op.exact n (a.kind.reduced m)) :=
    Kind.reduced_eq_reduced_iff.mpr (Operator.exact_modEq ring rfl (a.kind.reduced_modEq m).symm)
  rw [apply_eq_make op left (toWhole?_ne_none_of_hasEnds right), apply_eq_make op left numeric,
    if_neg fun divides => ring divides.1, if_neg fun divides => ring divides.1]
  refine (make_eq_make_iff left).mpr ⟨?_, fun range => ?_⟩
  · rw [low, same]
  · rw [high range, same]

/-- Dividing by a converted operand is dividing by its reduced ends. -/
theorem isZeroAs_convert_iff {kind : Kind} (left : kind.hasEnds = true)
    (right : b.kind.hasEnds = true) :
    (b.convert kind).isZeroAs kind = true ↔
      kind.reduced b.low = 0 ∨ kind = .range ∧ kind.reduced b.high = 0 := by
  obtain ⟨-, low, high⟩ := ends_convert left right
  rw [isZeroAs_iff left, low]
  exact or_congr_right (and_congr_right fun range => by rw [high range])

/-- Dividing by an operand that does not fit is never dividing by zero: a range fits every
range, so the operand has a single end, and zero fits every kind. -/
theorem not_isZeroAs_of_wide (left : a.kind.hasEnds = true) (right : b.kind.hasEnds = true)
    (wide : a.kind.reduced b.low ≠ b.low) : ¬b.isZeroAs a.kind = true := by
  have nonzero : b.low ≠ 0 := fun zero => wide (by rw [zero, a.kind.reduced_zero])
  rw [isZeroAs_iff left]
  rintro (zero | ⟨range, zero⟩)
  · exact nonzero zero
  · have single : b.kind ≠ .range := fun spans => wide (by rw [range, ← spans, reduced_low right])
    rw [high_eq_low single] at zero
    exact nonzero zero

/-- Dividing by an operand that does not fit comes to the same after converting it exactly
if it divides alike. -/
theorem divide_convert_iff (left : a.kind.hasEnds = true) (right : b.kind.hasEnds = true)
    (wide : a.kind.reduced b.low ≠ b.low) :
    a.apply .divide b = a.apply .divide (b.convert a.kind) ↔ a.DividesAlike b := by
  obtain ⟨numeric, low, high⟩ := ends_convert left right
  have vanishes := isZeroAs_convert_iff left right
  have nonzero := not_isZeroAs_of_wide left right wide
  have whole : b.low ≠ 0 ∧ (a.kind = .range → b.high ≠ 0) := by
    rw [isZeroAs_iff left, not_or, not_and] at nonzero
    exact nonzero
  rw [apply_eq_make .divide left (toWhole?_ne_none_of_hasEnds right),
    apply_eq_make .divide left numeric, if_neg fun divides => nonzero divides.2]
  by_cases zero : (b.convert a.kind).isZeroAs a.kind = true
  · rw [if_pos ⟨rfl, zero⟩]
    refine iff_of_false (make_ne_invalid left _ _) ?_
    rintro ⟨lows, highs⟩
    rcases vanishes.mp zero with zero | ⟨range, zero⟩
    · exact whole.1 (lows.1 zero)
    · exact whole.2 range ((highs range).1 zero)
  · rw [if_neg fun divides => zero divides.2, make_eq_make_iff left, low]
    have remains := not_or.mp (vanishes.not.mp zero)
    constructor
    · rintro ⟨lows, highs⟩
      refine ⟨⟨fun zero => absurd zero remains.1, lows⟩, fun range => ?_⟩
      have same := highs range
      rw [high range] at same
      exact ⟨fun zero => absurd ⟨range, zero⟩ remains.2, same⟩
    · rintro ⟨lows, highs⟩
      refine ⟨lows.2, fun range => ?_⟩
      rw [high range]
      exact (highs range).2

/-- Converting the right operand to the kind of the left one before an operator applies
changes no sum, no difference and no product, and a quotient exactly where the operand does
not divide alike. An operand that fits the kind always does. -/
theorem apply_convert_iff (op : Operator) (left : a.kind.hasEnds = true)
    (right : b.kind.hasEnds = true) :
    (a.apply op b = a.apply op (b.convert a.kind) ↔ (op = .divide → a.DividesAlike b)) ∧
      (a.kind.reduced b.low = b.low → a.DividesAlike b) := by
  refine ⟨?_, dividesAlike_of_reduced⟩
  by_cases ring : op = .divide
  · subst ring
    rw [imp_iff_right rfl]
    by_cases fits : a.kind.reduced b.low = b.low
    · exact iff_of_true (apply_convert_of_reduced .divide left right fits)
        (dividesAlike_of_reduced fits)
    · exact divide_convert_iff left right fits
  · exact iff_of_true (apply_convert_of_ne_divide ring left right) fun divides =>
      absurd divides ring

/-- Times 258, a byte is the same as times 2, but it is not divided alike. -/
theorem apply_convert_iff_byte :
    (byte 200).apply .multiply (int 258) = (byte 200).apply .multiply (byte 2) ∧
      ¬(byte 200).DividesAlike (int 258) := by
  refine ⟨(apply_convert_iff .multiply rfl rfl).1.mpr nofun, fun alike => ?_⟩
  have same := (apply_convert_iff .divide rfl rfl).1.mpr fun _ => alike
  revert same
  decide

/-- Converting the right operand first is not the same for every operator. -/
theorem not_apply_convert :
    ¬∀ (a b : Value) (op : Operator), a.kind.hasEnds = true → b.kind.hasEnds = true →
      a.apply op b = a.apply op (b.convert a.kind) := by
  intro same
  have divided := same (byte 200) (int 258) .divide rfl rfl
  revert divided
  decide

end Value

end CueRouter
