import CueRouter.Binary.Double
import Mathlib.Algebra.Order.Field.Power
import Mathlib.Data.Rat.Cast.Order
import Mathlib.Order.Compare
import Mathlib.Tactic.FieldSimp
import Mathlib.Tactic.Linarith
import Mathlib.Tactic.Positivity
import Mathlib.Tactic.Ring

/-!
# The numbers that patterns stand for

A finite datum stands for a rational number. Data compare as their numbers do, and the
pattern nearest to a quotient is that of a significand on the grid of the quotient, no
further than half a unit from it.
-/

namespace CueRouter.Binary

/-- The sign as a factor. -/
def signed (negative : Bool) (x : ℚ) : ℚ := if negative then -x else x

/-- The number that a datum stands for, if it is finite. -/
def Datum.value? : Datum → Option ℚ
  | .nan | .infinite _ => none
  | .finite negative significand exponent =>
    some (signed negative (significand * 2 ^ exponent))

/-! ## Powers of two -/

/-- A power of two with an integer exponent is a quotient of natural powers. -/
theorem zpow_eq_div (e : ℤ) : (2 : ℚ) ^ e = 2 ^ e.toNat / 2 ^ (-e).toNat := by
  rcases le_total 0 e with up | down
  · obtain ⟨n, rfl⟩ := Int.eq_ofNat_of_zero_le up
    simp
  · obtain ⟨n, hn⟩ := Int.eq_ofNat_of_zero_le (Int.neg_nonneg_of_nonpos down)
    obtain rfl : e = -n := by omega
    simp

/-- Powers of two add their exponents. -/
theorem zpow_add (d e : ℤ) : (2 : ℚ) ^ (d + e) = 2 ^ d * 2 ^ e :=
  zpow_add₀ two_ne_zero d e

/-! ## Grids -/

/-- A number on a grid that is not coarser than its own. -/
theorem onGrid_mul (negative : Bool) (significand : Nat) {exponent grid : ℤ}
    (fine : grid ≤ exponent) :
    (onGrid negative significand exponent grid : ℚ) * 2 ^ grid =
      signed negative (significand * 2 ^ exponent) := by
  have shift : (2 : ℚ) ^ (exponent - grid).toNat * 2 ^ grid = 2 ^ exponent := by
    rw [← zpow_natCast, ← zpow_add, Int.toNat_of_nonneg (Int.sub_nonneg_of_le fine),
      Int.sub_add_cancel]
  have scaled : ((significand * Nat.pow 2 (exponent - grid).toNat : ℤ) : ℚ) * 2 ^ grid =
      significand * 2 ^ exponent := by
    push_cast [Nat.pow_eq]
    rw [mul_assoc, shift]
  unfold onGrid signed
  cases negative with
  | false => exact scaled
  | true =>
    simp only [if_true]
    rw [← scaled]
    push_cast
    ring

/-- Finite data compare as their numbers do. -/
theorem Datum.compare?_eq {d e : Datum} {x y : ℚ} (hx : d.value? = some x)
    (hy : e.value? = some y) : d.compare? e = some (compare x y) := by
  cases d with
  | nan | infinite => cases hx
  | finite a m i =>
    cases e with
    | nan | infinite => cases hy
    | finite b n j =>
      cases hx
      cases hy
      unfold Datum.compare?
      dsimp only
      rw [← onGrid_mul a m (min_le_left i j), ← onGrid_mul b n (min_le_right i j)]
      have grows : StrictMono fun z : ℤ => (z : ℚ) * 2 ^ min i j := by
        intro z w less
        have positive : (0 : ℚ) < 2 ^ min i j := by positivity
        exact mul_lt_mul_of_pos_right (Int.cast_lt.mpr less) positive
      have same := grows.cmp_map_eq (onGrid a m i (min i j)) (onGrid b n j (min i j))
      rw [cmp_eq_compare, cmp_eq_compare] at same
      rw [same]

/-- Every finite datum is on the same side of an infinity. -/
theorem Datum.compare?_infinite {d : Datum} {x : ℚ} (h : d.value? = some x) (negative : Bool) :
    d.compare? (.infinite negative) = some (if negative then .gt else .lt) := by
  cases d with
  | nan | infinite => cases h
  | finite => rfl

/-- Data compare the other way round with the order reversed. -/
theorem Datum.compare?_swap (d e : Datum) : e.compare? d = (d.compare? e).map Ordering.swap := by
  cases d with
  | nan => cases e <;> rfl
  | infinite a =>
    cases e with
    | nan => rfl
    | infinite b => cases a <;> cases b <;> rfl
    | finite => cases a <;> rfl
  | finite a m i =>
    cases e with
    | nan => rfl
    | infinite b => cases b <;> rfl
    | finite b n j =>
      unfold Datum.compare?
      dsimp only
      rw [min_comm, Option.map_some, ← Std.OrientedCmp.eq_swap]

/-- Dividing by a power of two, as a quotient of natural numbers. -/
theorem scaleDown_eq (numerator denominator : Nat) (exponent : ℤ) :
    ((scaleDown numerator denominator exponent).1 : ℚ) /
        (scaleDown numerator denominator exponent).2 =
      numerator / denominator / 2 ^ exponent := by
  unfold scaleDown
  rw [zpow_eq_div]
  push_cast [Nat.pow_eq]
  field_simp

/-- The denominator stays positive. -/
theorem scaleDown_pos (numerator : Nat) {denominator : Nat} (h : 0 < denominator)
    (exponent : ℤ) : 0 < (scaleDown numerator denominator exponent).2 :=
  Nat.mul_pos h (Nat.pow_pos (by decide))

/-! ## The size of a quotient -/

/-- A positive number lies between the powers of two at its binary size. -/
theorem log2_bounds {n : Nat} (h : 0 < n) :
    (2 : ℚ) ^ (n.log2 : ℤ) ≤ n ∧ (n : ℚ) < 2 ^ ((n.log2 : ℤ) + 1) := by
  have low := Nat.log2_self_le (Nat.ne_of_gt h)
  have high := Nat.lt_log2_self (n := n)
  refine ⟨?_, ?_⟩
  · rw [zpow_natCast]
    exact_mod_cast low
  · rw [← Nat.cast_succ, zpow_natCast]
    exact_mod_cast high

/-- A quotient is below a power of two where what is left after dividing is. -/
theorem scaleDown_lt_iff (numerator : Nat) {denominator : Nat} (h : 0 < denominator)
    (exponent : ℤ) :
    (scaleDown numerator denominator exponent).1 <
        (scaleDown numerator denominator exponent).2 ↔
      (numerator : ℚ) / denominator < 2 ^ exponent := by
  have positive : (0 : ℚ) < (scaleDown numerator denominator exponent).2 :=
    Nat.cast_pos.mpr (scaleDown_pos numerator h exponent)
  have power : (0 : ℚ) < 2 ^ exponent := by positivity
  rw [← Nat.cast_lt (α := ℚ), ← div_lt_one positive, scaleDown_eq, div_lt_one power]

/-- The binary size of a quotient is that of the greatest power of two below it. -/
theorem quotientLog_bounds {numerator denominator : Nat} (hn : 0 < numerator)
    (hd : 0 < denominator) :
    (2 : ℚ) ^ quotientLog numerator denominator ≤ numerator / denominator ∧
      (numerator : ℚ) / denominator < 2 ^ (quotientLog numerator denominator + 1) := by
  obtain ⟨nlow, nhigh⟩ := log2_bounds hn
  obtain ⟨dlow, dhigh⟩ := log2_bounds hd
  have positive : (0 : ℚ) < denominator := Nat.cast_pos.mpr hd
  let guess : ℤ := (numerator.log2 : ℤ) - denominator.log2
  have below : (2 : ℚ) ^ (guess - 1) ≤ numerator / denominator := by
    rw [le_div_iff₀ positive]
    calc (2 : ℚ) ^ (guess - 1) * denominator
        ≤ 2 ^ (guess - 1) * 2 ^ ((denominator.log2 : ℤ) + 1) :=
          mul_le_mul_of_nonneg_left dhigh.le (by positivity)
      _ = 2 ^ (numerator.log2 : ℤ) := by
          rw [← zpow_add]
          congr 1
          omega
      _ ≤ numerator := nlow
  have above : (numerator : ℚ) / denominator < 2 ^ (guess + 1) := by
    rw [div_lt_iff₀ positive]
    calc (numerator : ℚ) < 2 ^ ((numerator.log2 : ℤ) + 1) := nhigh
      _ = 2 ^ (guess + 1) * 2 ^ (denominator.log2 : ℤ) := by
          rw [← zpow_add]
          congr 1
          omega
      _ ≤ 2 ^ (guess + 1) * denominator :=
          mul_le_mul_of_nonneg_left dlow (by positivity)
  unfold quotientLog
  dsimp only
  by_cases less : (scaleDown numerator denominator guess).1 <
      (scaleDown numerator denominator guess).2
  · rw [if_pos less, Int.sub_add_cancel]
    exact ⟨below, (scaleDown_lt_iff numerator hd guess).mp less⟩
  · rw [if_neg less]
    rw [scaleDown_lt_iff numerator hd, not_lt] at less
    exact ⟨less, above⟩

/-! ## Rounding to a significand -/

/-- Rounding does not lead below a whole number that the quotient is not below. -/
theorem le_divideToEven {n numerator denominator : Nat} (h : 0 < denominator)
    (le : n * denominator ≤ numerator) : n ≤ divideToEven numerator denominator := by
  by_contra less
  have near := (divideToEven_near numerator denominator h).2
  have step := Nat.mul_le_mul_right denominator (Nat.succ_le_of_lt (Nat.lt_of_not_le less))
  rw [Nat.succ_mul] at step
  omega

/-- Rounding does not lead above a whole number that the quotient is not above. -/
theorem divideToEven_le {n numerator denominator : Nat} (h : 0 < denominator)
    (le : numerator ≤ n * denominator) : divideToEven numerator denominator ≤ n := by
  by_contra more
  have near := (divideToEven_near numerator denominator h).1
  have step := Nat.mul_le_mul_right denominator (Nat.succ_le_of_lt (Nat.lt_of_not_le more))
  rw [Nat.succ_mul] at step
  omega

namespace Format

variable (f : Format) {numerator denominator : Nat}

/-- The exponent of the grid that a quotient is rounded to. -/
def grid (numerator denominator : Nat) : ℤ :=
  max f.leastExponent (quotientLog numerator denominator - f.fractionBits)

/-- The significand that a quotient is rounded to. -/
def significand (numerator denominator : Nat) : Nat :=
  let scaled := scaleDown numerator denominator (f.grid numerator denominator)
  divideToEven scaled.1 scaled.2

/-- How far the grid is above the finest one. -/
def field (numerator denominator : Nat) : Nat :=
  (f.grid numerator denominator - f.leastExponent).toNat

/-- The grid is the finest one, raised by the field. -/
theorem leastExponent_add_field (numerator denominator : Nat) :
    f.leastExponent + f.field numerator denominator = f.grid numerator denominator := by
  have above : f.leastExponent ≤ f.grid numerator denominator := le_max_left _ _
  unfold field
  omega

/-- The magnitude pattern is that of the significand on the grid, or the infinity. -/
theorem roundMagnitude_eq (h : 0 < numerator) (denominator : Nat) :
    f.roundMagnitude numerator denominator =
      min f.infinity (f.field numerator denominator * f.fractions +
        f.significand numerator denominator) := by
  unfold roundMagnitude
  rw [if_neg (Nat.ne_of_gt h)]
  rfl

/-- The significand is a multiple of the grid that the quotient is not below. -/
theorem le_significand (h : 0 < denominator) {n : Nat}
    (le : n * 2 ^ f.grid numerator denominator ≤ (numerator : ℚ) / denominator) :
    n ≤ f.significand numerator denominator := by
  have positive : (0 : ℚ) <
      (scaleDown numerator denominator (f.grid numerator denominator)).2 :=
    Nat.cast_pos.mpr (scaleDown_pos numerator h _)
  have power : (0 : ℚ) < 2 ^ f.grid numerator denominator := by positivity
  rw [← le_div_iff₀ power, ← scaleDown_eq, le_div_iff₀ positive] at le
  exact le_divideToEven (scaleDown_pos numerator h _) (by exact_mod_cast le)

/-- The significand is a multiple of the grid that the quotient is not above. -/
theorem significand_le (h : 0 < denominator) {n : Nat}
    (le : (numerator : ℚ) / denominator ≤ n * 2 ^ f.grid numerator denominator) :
    f.significand numerator denominator ≤ n := by
  have positive : (0 : ℚ) <
      (scaleDown numerator denominator (f.grid numerator denominator)).2 :=
    Nat.cast_pos.mpr (scaleDown_pos numerator h _)
  have power : (0 : ℚ) < 2 ^ f.grid numerator denominator := by positivity
  rw [← div_le_iff₀ power, ← scaleDown_eq, div_le_iff₀ positive] at le
  exact divideToEven_le (scaleDown_pos numerator h _) (by exact_mod_cast le)

/-- A quotient on its grid is not rounded. -/
theorem significand_eq (h : 0 < denominator) {n : Nat}
    (eq : (numerator : ℚ) / denominator = n * 2 ^ f.grid numerator denominator) :
    f.significand numerator denominator = n :=
  le_antisymm (f.significand_le h eq.le) (f.le_significand h eq.ge)

/-- A binade has a power of two of patterns. -/
theorem fractions_mul (e : ℤ) : (f.fractions : ℚ) * 2 ^ e = 2 ^ (f.fractionBits + e) := by
  unfold fractions
  rw [zpow_add, zpow_natCast]
  push_cast [Nat.pow_eq]
  rfl

/-- The significand has no more than one binade above it. -/
theorem significand_le_fractions (hn : 0 < numerator) (hd : 0 < denominator) :
    f.significand numerator denominator ≤ 2 * f.fractions := by
  refine f.significand_le hd ?_
  have above := (quotientLog_bounds hn hd).2
  have fine : quotientLog numerator denominator - f.fractionBits ≤
      f.grid numerator denominator := le_max_right _ _
  calc (numerator : ℚ) / denominator
      ≤ 2 ^ (quotientLog numerator denominator + 1) := above.le
    _ ≤ 2 ^ (1 + (f.fractionBits + f.grid numerator denominator)) :=
        zpow_le_zpow_right₀ (by norm_num) (by omega)
    _ = (2 * f.fractions : Nat) * 2 ^ f.grid numerator denominator := by
        rw [zpow_add, ← f.fractions_mul, zpow_one]
        push_cast
        ring

/-- Above the finest grid, the significand fills a binade. -/
theorem fractions_le_significand (hn : 0 < numerator) (hd : 0 < denominator)
    (coarse : f.leastExponent < f.grid numerator denominator) :
    f.fractions ≤ f.significand numerator denominator := by
  refine f.le_significand hd ?_
  have same : f.grid numerator denominator =
      quotientLog numerator denominator - f.fractionBits := by
    unfold grid at coarse ⊢
    refine max_eq_right (le_of_not_ge fun below => ?_)
    rw [max_eq_left below] at coarse
    exact lt_irrefl _ coarse
  rw [f.fractions_mul, same, add_sub_cancel]
  exact (quotientLog_bounds hn hd).1

/-! ## Reading patterns -/

theorem fractions_pos : 0 < f.fractions := Nat.pow_pos (by decide)

/-- The infinity is a magnitude pattern. -/
theorem infinity_lt_signBit : f.infinity < f.signBit := by
  have positive : 0 < Nat.pow 2 f.exponentBits := Nat.pow_pos (by decide)
  have whole : f.signBit = Nat.pow 2 f.exponentBits * f.fractions := by
    unfold signBit fractions
    rw [Nat.pow_eq, Nat.pow_eq, Nat.pow_eq, Nat.add_comm, Nat.pow_add]
  rw [whole, infinity]
  exact Nat.mul_lt_mul_of_pos_right (Nat.sub_lt positive (by decide)) f.fractions_pos

/-- The two parts of a pattern below the infinity or at it. -/
theorem withSign_parts (negative : Bool) {magnitude : Nat} (h : magnitude ≤ f.infinity) :
    (f.withSign negative magnitude / f.signBit % 2 == 1) = negative ∧
      f.withSign negative magnitude % f.signBit = magnitude := by
  have below : magnitude < f.signBit := Nat.lt_of_le_of_lt h f.infinity_lt_signBit
  have positive : 0 < f.signBit := Nat.zero_lt_of_lt below
  unfold withSign
  cases negative with
  | false =>
    simp only [Bool.false_eq_true, if_false]
    rw [Nat.div_eq_of_lt below, Nat.mod_eq_of_lt below]
    exact ⟨rfl, rfl⟩
  | true =>
    simp only [if_true]
    rw [Nat.add_div_left _ positive, Nat.div_eq_of_lt below, Nat.add_mod_left,
      Nat.mod_eq_of_lt below]
    exact ⟨rfl, rfl⟩

/-- The infinities read as such. -/
theorem decode_infinity (negative : Bool) :
    f.decode (f.withSign negative f.infinity) = .infinite negative := by
  obtain ⟨sign, magnitude⟩ := f.withSign_parts negative (Nat.le_refl _)
  unfold decode
  dsimp only
  rw [sign, magnitude, if_neg (Nat.lt_irrefl _), if_pos rfl]

/-- A pattern below the infinity reads as its significand on the grid of its field. A
significand at the end of its binade carries into the next field, for the same number. -/
theorem value?_decode (negative : Bool) {field significand : Nat}
    (below : field * f.fractions + significand < f.infinity)
    (binade : significand ≤ 2 * f.fractions) (normal : field = 0 ∨ f.fractions ≤ significand) :
    (f.decode (f.withSign negative (field * f.fractions + significand))).value? =
      some (signed negative (significand * 2 ^ (f.leastExponent + field))) := by
  obtain ⟨sign, magnitude⟩ := f.withSign_parts negative below.le
  have positive := f.fractions_pos
  unfold decode
  dsimp only
  rw [sign, magnitude, if_neg (Nat.lt_asymm below), if_neg (Nat.ne_of_lt below)]
  rcases Nat.lt_or_ge significand f.fractions with small | large
  · obtain rfl : field = 0 := normal.resolve_right (Nat.not_le.mpr small)
    rw [Nat.zero_mul, Nat.zero_add, Nat.mod_eq_of_lt small, Nat.div_eq_of_lt small]
    simp [Datum.value?]
  · obtain ⟨fraction, rfl⟩ := Nat.exists_eq_add_of_le large
    have next : field * f.fractions + (f.fractions + fraction) =
        fraction + (field + 1) * f.fractions := by
      rw [Nat.succ_mul]
      omega
    rw [next, Nat.add_mul_mod_self_right, Nat.add_mul_div_right _ _ positive]
    rcases Nat.lt_or_ge fraction f.fractions with inside | last
    · rw [Nat.mod_eq_of_lt inside, Nat.div_eq_of_lt inside, Nat.zero_add]
      rfl
    · obtain rfl : fraction = f.fractions := by omega
      rw [Nat.mod_self, Nat.div_self positive, Nat.add_comm 1]
      have carried : ((f.fractions + 0 : Nat) : ℚ) * 2 ^ (f.leastExponent + (field + 1 : Nat)) =
          ((f.fractions + f.fractions : Nat) : ℚ) * 2 ^ (f.leastExponent + field) := by
        push_cast
        rw [← Int.add_assoc, zpow_add _ 1, zpow_one]
        ring
      exact congrArg (fun x => some (signed negative x)) carried

end Format

end CueRouter.Binary
