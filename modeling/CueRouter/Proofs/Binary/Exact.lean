import CueRouter.Proofs.Binary.Value
import Mathlib.Tactic.NormNum

/-!
# Whole numbers in double precision

A whole number up to the power of two above the fraction is represented as it is, and one
beyond is rounded to a number that is beyond as well. Hence differences of small whole
numbers are exact, and so are their comparisons with whole numbers of any size.
-/

namespace CueRouter

namespace Binary.Format

/-- The limit up to which double precision has every whole number. -/
def wholeLimit : Nat := 9007199254740992

theorem fractions_wide : wide.fractions = 4503599627370496 := by decide

theorem leastExponent_wide : wide.leastExponent = -1074 := by decide

theorem infinity_wide : wide.infinity = 9218868437227405312 := by decide

/-- The limit is a power of two. -/
theorem wholeLimit_eq : (wholeLimit : ℚ) = 2 ^ (53 : ℤ) := by
  norm_num [wholeLimit]

/-- The grid of a number that is at least one. -/
theorem grid_wide {numerator denominator : Nat}
    (large : -1022 ≤ quotientLog numerator denominator) :
    wide.grid numerator denominator = quotientLog numerator denominator - 52 := by
  unfold grid
  rw [leastExponent_wide]
  exact max_eq_right (by show (-1074 : ℤ) ≤ _ - 52; omega)

/-- The number that a quotient is rounded to, where that is less than infinite. -/
theorem value?_round {numerator denominator : Nat} (hn : 0 < numerator)
    (hd : 0 < denominator) (negative : Bool)
    (below : wide.field numerator denominator * wide.fractions +
      wide.significand numerator denominator < wide.infinity) :
    (wide.decode (wide.round negative numerator denominator)).value? =
      some (signed negative (wide.significand numerator denominator *
        2 ^ wide.grid numerator denominator)) := by
  have normal : wide.field numerator denominator = 0 ∨
      wide.fractions ≤ wide.significand numerator denominator := by
    rcases Nat.eq_zero_or_pos (wide.field numerator denominator) with zero | coarse
    · exact .inl zero
    · refine .inr (wide.fractions_le_significand hn hd ?_)
      rw [← wide.leastExponent_add_field]
      omega
  unfold round
  rw [wide.roundMagnitude_eq hn, Nat.min_eq_right below.le,
    wide.value?_decode negative below (wide.significand_le_fractions hn hd) normal,
    wide.leastExponent_add_field]

/-- The pattern of a grid that is not too coarse is finite. -/
theorem pattern_lt_infinity {numerator denominator : Nat} (hn : 0 < numerator)
    (hd : 0 < denominator) (low : wide.grid numerator denominator ≤ 970) :
    wide.field numerator denominator * wide.fractions +
      wide.significand numerator denominator < wide.infinity := by
  have binade := wide.significand_le_fractions hn hd
  have raised := wide.leastExponent_add_field numerator denominator
  rw [leastExponent_wide] at raised
  rw [fractions_wide] at binade ⊢
  rw [infinity_wide]
  have field : wide.field numerator denominator ≤ 2044 := by omega
  omega

/-- A whole number that is small enough is a multiple of its grid. -/
theorem exists_multiple {n : Nat} {size : ℤ} (bounded : size ≤ 53)
    (low : (2 : ℚ) ^ size ≤ n) (small : n ≤ wholeLimit) :
    ∃ m : Nat, (n : ℚ) = m * 2 ^ (size - 52) := by
  rcases lt_or_eq_of_le bounded with inside | rfl
  · refine ⟨n * 2 ^ (52 - size).toNat, ?_⟩
    have cancel : (2 : ℚ) ^ (52 - size).toNat * 2 ^ (size - 52) = 1 := by
      rw [← zpow_natCast, Int.toNat_of_nonneg (by omega), ← zpow_add]
      norm_num
    push_cast
    rw [mul_assoc, cancel, mul_one]
  · refine ⟨4503599627370496, ?_⟩
    rw [← wholeLimit_eq, Nat.cast_le] at low
    obtain rfl := Nat.le_antisymm small low
    norm_num [wholeLimit]

/-- A whole number that is small enough is represented as it is. -/
theorem value?_round_of_le {n denominator : Nat} (hd : 0 < denominator)
    (small : n ≤ wholeLimit) (negative : Bool) :
    (wide.decode (wide.round negative (n * denominator) denominator)).value? =
      some (signed negative n) := by
  have positive : (0 : ℚ) < denominator := Nat.cast_pos.mpr hd
  rcases Nat.eq_zero_or_pos n with rfl | hn
  · have zero : 0 * wide.fractions + 0 < wide.infinity := by decide
    have pattern : wide.round negative (0 * denominator) denominator =
        wide.withSign negative (0 * wide.fractions + 0) := by
      rw [Nat.zero_mul, Nat.zero_mul]
      rfl
    rw [pattern, wide.value?_decode negative zero (Nat.zero_le _) (.inl rfl), Nat.cast_zero,
      zero_mul]
  have hnd := Nat.mul_pos hn hd
  have quotient : ((n * denominator : Nat) : ℚ) / denominator = n := by
    push_cast
    exact mul_div_cancel_right₀ _ positive.ne'
  obtain ⟨low, high⟩ := quotientLog_bounds hnd hd
  rw [quotient] at low high
  have nonnegative : 0 < quotientLog (n * denominator) denominator + 1 := by
    refine (zpow_lt_zpow_iff_right₀ (one_lt_two (α := ℚ))).mp ?_
    rw [zpow_zero]
    exact lt_of_le_of_lt (Nat.one_le_cast.mpr hn) high
  have bounded : quotientLog (n * denominator) denominator ≤ 53 := by
    refine (zpow_le_zpow_iff_right₀ (one_lt_two (α := ℚ))).mp ?_
    rw [← wholeLimit_eq]
    exact low.trans (Nat.cast_le.mpr small)
  have grid : wide.grid (n * denominator) denominator =
      quotientLog (n * denominator) denominator - 52 := grid_wide (by omega)
  obtain ⟨m, multiple⟩ := exists_multiple bounded low small
  rw [← grid] at multiple
  rw [value?_round hnd hd negative (pattern_lt_infinity hnd hd (by omega)),
    wide.significand_eq hd (quotient.trans multiple), multiple]

/-- A number that is not below the limit is rounded to one that is not either, or to
infinity. -/
theorem value?_round_of_ge {numerator denominator : Nat} (hd : 0 < denominator)
    (large : wholeLimit * denominator ≤ numerator) (negative : Bool) :
    wide.decode (wide.round negative numerator denominator) = .infinite negative ∨
      ∃ v : ℚ, (wholeLimit : ℚ) ≤ v ∧
        (wide.decode (wide.round negative numerator denominator)).value? =
          some (signed negative v) := by
  have positive : (0 : ℚ) < denominator := Nat.cast_pos.mpr hd
  have hn : 0 < numerator := Nat.lt_of_lt_of_le (Nat.mul_pos (by decide) hd) large
  have high := (quotientLog_bounds hn hd).2
  have size : 53 < quotientLog numerator denominator + 1 := by
    refine (zpow_lt_zpow_iff_right₀ (one_lt_two (α := ℚ))).mp (lt_of_le_of_lt ?_ high)
    rw [← wholeLimit_eq, le_div_iff₀ positive]
    exact_mod_cast large
  have grid : wide.grid numerator denominator = quotientLog numerator denominator - 52 :=
    grid_wide (by omega)
  rcases Nat.lt_or_ge (wide.field numerator denominator * wide.fractions +
    wide.significand numerator denominator) wide.infinity with finite | infinite
  · refine .inr ⟨_, ?_, value?_round hn hd negative finite⟩
    have filled := wide.fractions_le_significand hn hd (by
      rw [leastExponent_wide, grid]
      omega)
    calc (wholeLimit : ℚ) = wide.fractions * 2 ^ (1 : ℤ) := by
          rw [wholeLimit_eq, wide.fractions_mul]
          rfl
      _ ≤ wide.significand numerator denominator * 2 ^ wide.grid numerator denominator :=
          mul_le_mul (Nat.cast_le.mpr filled)
            (zpow_le_zpow_right₀ one_le_two (by omega)) (by positivity) (by positivity)
  · left
    unfold round
    rw [wide.roundMagnitude_eq hn, Nat.min_eq_left infinite]
    exact wide.decode_infinity negative

end Binary.Format

namespace Double

open Binary

/-- The number that a double precision number stands for, if it is finite. -/
def value? (x : Double) : Option ℚ := x.datum.value?

/-- A rounded quotient reads as its pattern. -/
theorem datum_round (negative : Bool) (numerator denominator : Nat) :
    (ofPattern (Format.wide.round negative numerator denominator)).datum =
      Format.wide.decode (Format.wide.round negative numerator denominator) := by
  have magnitude : Format.wide.roundMagnitude numerator denominator ≤ Format.wide.infinity := by
    unfold Format.roundMagnitude
    split
    · exact Nat.zero_le _
    · exact Nat.min_le_left _ _
  have pattern : Format.wide.round negative numerator denominator < 2 ^ 64 := by
    have sign : Format.wide.signBit = 9223372036854775808 := by decide
    rw [Format.infinity_wide] at magnitude
    unfold Format.round Format.withSign
    rw [sign]
    split <;> omega
  unfold datum ofPattern
  rw [UInt64.toNat_ofNat', Nat.mod_eq_of_lt pattern]

/-- The number stands for the whole number, or both are beyond the limit up to which there
is every whole number, on the same side. -/
def Approximates (x : Double) (n : ℤ) : Prop :=
  (n.natAbs ≤ Format.wholeLimit ∧ x.value? = some (n : ℚ)) ∨
    (Format.wholeLimit ≤ n.natAbs ∧ (x.datum = .infinite (decide (n < 0)) ∨
      ∃ v : ℚ, (Format.wholeLimit : ℚ) ≤ v ∧ x.value? = some (signed (decide (n < 0)) v)))

/-- Up to the limit it is the whole number. -/
theorem Approximates.value?_eq {x : Double} {n : ℤ} (h : x.Approximates n)
    (small : n.natAbs < Format.wholeLimit) : x.value? = some (n : ℚ) := by
  rcases h with ⟨-, same⟩ | ⟨large, -⟩
  · exact same
  · exact absurd small (Nat.not_lt.mpr large)

/-- The size of a whole number with its sign is the number. -/
theorem signed_natAbs {negative : Bool} {n : ℤ} (sign : n ≠ 0 → negative = decide (n < 0)) :
    signed negative n.natAbs = n := by
  rcases eq_or_ne n 0 with rfl | nonzero
  · cases negative <;> rfl
  · rw [sign nonzero, Nat.cast_natAbs, signed]
    by_cases below : n < 0
    · rw [decide_eq_true below, if_pos rfl, abs_of_neg below]
      push_cast
      ring
    · rw [decide_eq_false below, if_neg Bool.false_ne_true, abs_of_nonneg (le_of_not_gt below)]

/-- What a quotient that is a whole number is rounded to. -/
theorem approximates_round {n : ℤ} {denominator : Nat} (hd : 0 < denominator)
    {negative : Bool} (sign : n ≠ 0 → negative = decide (n < 0)) :
    (ofPattern (Format.wide.round negative (n.natAbs * denominator) denominator)).Approximates
      n := by
  unfold Approximates value?
  rw [datum_round]
  rcases Nat.le_total n.natAbs Format.wholeLimit with small | large
  · refine .inl ⟨small, ?_⟩
    rw [Format.value?_round_of_le hd small, signed_natAbs sign]
  · refine .inr ⟨large, ?_⟩
    have nonzero : n ≠ 0 := by
      rintro rfl
      exact absurd large (by decide)
    rw [sign nonzero]
    exact Format.value?_round_of_ge hd (Nat.mul_le_mul_right _ large) _

/-- What a whole number is converted to. -/
theorem approximates_ofInt (n : ℤ) : (ofInt n).Approximates n := by
  have round := approximates_round Nat.one_pos (n := n) (fun _ => rfl)
  rw [Nat.mul_one] at round
  exact round

/-- A scaled significand that is a whole number, as a quotient of natural numbers. -/
theorem mul_pow_eq {m : Nat} {e : ℤ} {n : Nat} (h : (m : ℚ) * 2 ^ e = n) :
    m * Nat.pow 2 e.toNat = n * Nat.pow 2 (-e).toNat := by
  have positive : (0 : ℚ) < 2 ^ (-e).toNat := by positivity
  rw [zpow_eq_div, ← mul_div_assoc, div_eq_iff positive.ne'] at h
  rw [Nat.pow_eq, Nat.pow_eq]
  exact_mod_cast h

/-- What a scaled significand that is a whole number is rounded to. -/
theorem approximates_roundScaled {significand : Nat} {exponent n : ℤ} {negative : Bool}
    (size : (significand : ℚ) * 2 ^ exponent = n.natAbs)
    (sign : n ≠ 0 → negative = decide (n < 0)) :
    (ofPattern (Format.wide.roundScaled negative significand exponent)).Approximates n := by
  unfold Format.roundScaled
  rw [mul_pow_eq size]
  exact approximates_round (Nat.pow_pos (by decide)) sign

/-- A finite datum that stands for a whole number: its size and its sign. -/
theorem natAbs_of_signed {negative : Bool} {x : ℚ} {n : ℤ} (nonnegative : 0 ≤ x)
    (h : signed negative x = n) :
    x = n.natAbs ∧ (n ≠ 0 → negative = decide (n < 0)) := by
  rw [Nat.cast_natAbs, Int.cast_abs, ← h]
  unfold signed at h ⊢
  cases negative with
  | false =>
    simp only [Bool.false_eq_true, if_false] at h ⊢
    refine ⟨(abs_of_nonneg nonnegative).symm, fun _ => ?_⟩
    rw [h] at nonnegative
    exact (decide_eq_false (not_lt.mpr (by exact_mod_cast nonnegative))).symm
  | true =>
    simp only [if_true] at h ⊢
    refine ⟨by rw [abs_neg, abs_of_nonneg nonnegative], fun nonzero => ?_⟩
    have below : (n : ℚ) ≤ 0 := by
      rw [← h]
      exact neg_nonpos_of_nonneg nonnegative
    exact (decide_eq_true (lt_of_le_of_ne (by exact_mod_cast below) nonzero)).symm

/-- A finite datum that stands for a whole number within the bounds is that number cut
off. -/
theorem truncate_eq {d : Datum} {n least greatest : ℤ} (h : d.value? = some (n : ℚ))
    (above : least ≤ n) (below : n ≤ greatest) : d.truncate least greatest = n := by
  cases d with
  | nan | infinite => cases h
  | finite negative significand exponent =>
    obtain ⟨size, sign⟩ := natAbs_of_signed (by positivity) (Option.some.inj h)
    have positive : 0 < Nat.pow 2 (-exponent).toNat := Nat.pow_pos (by decide)
    unfold Datum.truncate
    dsimp only
    rw [mul_pow_eq size, Nat.mul_div_cancel _ positive]
    have whole : (if negative then -(n.natAbs : ℤ) else n.natAbs) = n := by
      rcases eq_or_ne n 0 with rfl | nonzero
      · cases negative <;> rfl
      · rw [sign nonzero]
        by_cases less : n < 0
        · rw [decide_eq_true less, if_pos rfl]
          omega
        · rw [decide_eq_false less, if_neg Bool.false_ne_true]
          omega
    rw [whole]
    omega

/-- What the encoding of a whole number reads as. -/
theorem approximates_encode {d : Datum} {n : ℤ} (h : d.value? = some (n : ℚ)) :
    (ofPattern (Format.wide.encode d)).Approximates n := by
  cases d with
  | nan | infinite => cases h
  | finite negative significand exponent =>
    obtain ⟨size, sign⟩ := natAbs_of_signed (by positivity) (Option.some.inj h)
    exact approximates_roundScaled size sign

/-- Widening a whole number of single precision. -/
theorem approximates_widen {x : Single} {n : ℤ} (h : x.datum.value? = some (n : ℚ)) :
    x.widen.Approximates n :=
  approximates_encode h

/-- The sign of a datum reversed. -/
theorem value?_negate {d : Datum} {x : ℚ} (h : d.value? = some x) :
    d.negate.value? = some (-x) := by
  cases d with
  | nan | infinite => cases h
  | finite negative significand exponent =>
    cases h
    unfold Datum.negate Datum.value? signed
    cases negative <;> simp

/-- The difference of two whole numbers is exact, where it is small enough. -/
theorem value?_subtract {x y : Double} {n m : ℤ} (hx : x.value? = some (n : ℚ))
    (hy : y.value? = some (m : ℚ)) (small : (n - m).natAbs < Format.wholeLimit) :
    (x.subtract y).value? = some ((n - m : ℤ) : ℚ) := by
  have hy := value?_negate hy
  unfold subtract
  unfold value? at hx
  generalize x.datum = d at hx
  generalize y.datum.negate = e at hy
  cases d with
  | nan | infinite => cases hx
  | finite a p i =>
    cases e with
    | nan | infinite => cases hy
    | finite b q j =>
      unfold Format.add
      dsimp only
      have grid : (0 : ℚ) < 2 ^ min i j := by positivity
      have sum : ((onGrid a p i (min i j) + onGrid b q j (min i j) : ℤ) : ℚ) *
          2 ^ min i j = (n - m : ℤ) := by
        push_cast
        rw [add_mul, onGrid_mul _ _ (min_le_left i j), onGrid_mul _ _ (min_le_right i j),
          Option.some.inj hx, Option.some.inj hy]
        ring
      generalize onGrid a p i (min i j) + onGrid b q j (min i j) = total at sum ⊢
      refine Approximates.value?_eq (approximates_roundScaled ?_ fun nonzero => ?_) small
      · rw [Nat.cast_natAbs, Nat.cast_natAbs, Int.cast_abs, Int.cast_abs, ← sum, abs_mul,
          abs_of_pos grid]
      · have apart : total ≠ 0 := by
          rintro rfl
          rw [Int.cast_zero, zero_mul] at sum
          exact nonzero (by exact_mod_cast sum.symm)
        rw [if_neg apart, decide_eq_decide, ← Int.cast_lt_zero (R := ℚ),
          ← Int.cast_lt_zero (R := ℚ), ← sum, ← mul_lt_mul_iff_left₀ grid, zero_mul]

/-- A small whole number compares with what a whole number of any size is rounded to as with
that number. -/
theorem compare?_of_approximates {x y : Double} {m n : ℤ} (hx : x.value? = some (m : ℚ))
    (small : m.natAbs < Format.wholeLimit) (hy : y.Approximates n) :
    x.compare? y = some (compare m n) := by
  unfold compare?
  rcases hy with ⟨-, same⟩ | ⟨large, beyond⟩
  · have cast := Int.cast_strictMono (R := ℚ).cmp_map_eq m n
    rw [cmp_eq_compare, cmp_eq_compare] at cast
    rw [Datum.compare?_eq hx same, cast]
  · have positive : (m.natAbs : ℚ) < Format.wholeLimit := Nat.cast_lt.mpr small
    have sizes : |(m : ℚ)| < Format.wholeLimit := by
      rwa [Nat.cast_natAbs, Int.cast_abs] at positive
    obtain ⟨above, below⟩ := abs_lt.mp sizes
    by_cases negative : n < 0
    · have order : compare m n = .gt := compare_gt_iff_gt.mpr (by omega)
      rw [decide_eq_true negative] at beyond
      rw [order]
      rcases beyond with infinite | ⟨v, far, same⟩
      · rw [infinite]
        exact Datum.compare?_infinite hx true
      · rw [Datum.compare?_eq hx same, Option.some.injEq, compare_gt_iff_gt]
        show -v < m
        linarith
    · have order : compare m n = .lt := compare_lt_iff_lt.mpr (by omega)
      rw [decide_eq_false negative] at beyond
      rw [order]
      rcases beyond with infinite | ⟨v, far, same⟩
      · rw [infinite]
        exact Datum.compare?_infinite hx false
      · rw [Datum.compare?_eq hx same, Option.some.injEq, compare_lt_iff_lt]
        show m < v
        linarith

/-- Whether a small number is farther from zero than a whole number. -/
theorem magnitudeExceeds_iff {x limit : Double} {n : ℤ} {most : Nat}
    (hx : x.value? = some (n : ℚ)) (small : n.natAbs < Format.wholeLimit)
    (hlimit : limit.Approximates most) : x.magnitudeExceeds limit = true ↔ most < n.natAbs := by
  have size : x.datum.magnitude.value? = some (n.natAbs : ℚ) := by
    unfold value? at hx
    generalize x.datum = d at hx
    cases d with
    | nan | infinite => cases hx
    | finite negative significand exponent =>
      have same := (natAbs_of_signed (by positivity) (Option.some.inj hx)).1
      exact congrArg some same
  unfold magnitudeExceeds
  rcases hlimit with ⟨-, same⟩ | ⟨large, beyond⟩
  · rw [Datum.compare?_eq size same, beq_iff_eq, Option.some.injEq, compare_gt_iff_gt]
    push_cast
    exact Nat.cast_lt
  · rw [Int.natAbs_natCast] at large
    have positive : decide ((most : ℤ) < 0) = false :=
      decide_eq_false (Int.not_lt.mpr (Int.natCast_nonneg most))
    rw [positive] at beyond
    refine iff_of_false ?_ (Nat.not_lt.mpr (Nat.le_of_lt (Nat.lt_of_lt_of_le small large)))
    rcases beyond with infinite | ⟨v, far, same⟩
    · rw [infinite]
      generalize x.datum.magnitude = d at size
      cases d with
      | nan | infinite => cases size
      | finite =>
        show ¬(some Ordering.lt == some Ordering.gt) = true
        decide
    · rw [Datum.compare?_eq size same, beq_iff_eq, Option.some.injEq, compare_gt_iff_gt]
      refine not_lt.mpr (le_trans ?_ far)
      exact Nat.cast_le.mpr small.le

end Double
end CueRouter
