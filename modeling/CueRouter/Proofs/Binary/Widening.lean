import CueRouter.Proofs.Binary.Exact
import Mathlib.Algebra.Order.Floor.Semifield
import Mathlib.Data.Rat.Floor

/-!
# Numbers that both precisions have

A significand that is short enough is not rounded in double precision, so a number of single
precision is widened to the same number. Comparison and cutting off depend on what data stand
for only: data that compare as equal are cut off to the same whole number. A whole number is
cut off to itself after it was converted exactly if it has a short significand, or is the
greatest of 64 bits, which is rounded up and stopped at the bound.
-/

namespace CueRouter

namespace Binary

/-! ## What data stand for -/

/-- The number or the infinity, by its sign, that a datum stands for. -/
def Datum.amount? : Datum → Option (Bool ⊕ ℚ)
  | .nan => none
  | .infinite negative => some (.inl negative)
  | .finite negative significand exponent =>
    some (.inr (signed negative (significand * 2 ^ exponent)))

/-- A number is what a finite datum stands for. -/
theorem Datum.amount?_of_value? {d : Datum} {x : ℚ} (h : d.value? = some x) :
    d.amount? = some (.inr x) := by
  cases d with
  | nan | infinite => cases h
  | finite negative significand exponent =>
    cases h
    rfl

/-- Data compare as equal exactly if they stand for the same. -/
theorem Datum.compare?_eq_iff {d e : Datum} :
    d.compare? e = some .eq ↔ ∃ a, d.amount? = some a ∧ e.amount? = some a := by
  have numbers {x y : ℚ} (hx : d.value? = some x) (hy : e.value? = some y) :
      d.compare? e = some .eq ↔ x = y := by
    rw [compare?_eq hx hy, Option.some.injEq, compare_eq_iff_eq]
  cases d with
  | nan => simp [compare?, amount?]
  | infinite negative =>
    cases e with
    | nan => simp [compare?, amount?]
    | infinite other => cases negative <;> cases other <;> simp [compare?, amount?]
    | finite => cases negative <;> simp [compare?, amount?]
  | finite negative significand exponent =>
    cases e with
    | nan => simp [compare?, amount?]
    | infinite other => cases other <;> simp [compare?, amount?]
    | finite =>
      rw [numbers rfl rfl]
      simp [amount?, eq_comm]

/-- A scaled significand is a quotient of natural numbers. -/
theorem div_pow_eq (significand : Nat) (exponent : ℤ) :
    ((significand * Nat.pow 2 exponent.toNat : Nat) : ℚ) / (Nat.pow 2 (-exponent).toNat : Nat) =
      significand * 2 ^ exponent := by
  rw [zpow_eq_div, ← mul_div_assoc]
  push_cast [Nat.pow_eq]
  rfl

/-- The whole part of a scaled significand. -/
theorem div_pow_eq_floor (significand : Nat) (exponent : ℤ) :
    significand * Nat.pow 2 exponent.toNat / Nat.pow 2 (-exponent).toNat =
      ⌊(significand : ℚ) * 2 ^ exponent⌋₊ := by
  rw [← div_pow_eq, Nat.floor_div_eq_div]

/-- Numbers with a sign are the same if they have the same size, and the same sign unless
they are zero. -/
theorem signed_eq_signed {a b : Bool} {x y : ℚ} (hx : 0 ≤ x) (hy : 0 ≤ y)
    (same : signed a x = signed b y) : x = y ∧ (x = 0 ∨ a = b) := by
  unfold signed at same
  cases a <;> cases b <;> simp only [if_true, Bool.false_eq_true, if_false] at same
  · exact ⟨same, .inr rfl⟩
  · have zero : x = 0 := by linarith
    exact ⟨by linarith, .inl zero⟩
  · have zero : x = 0 := by linarith
    exact ⟨by linarith, .inl zero⟩
  · exact ⟨neg_injective same, .inr rfl⟩

/-- Data that stand for the same are cut off to the same whole number. -/
theorem Datum.truncate_congr {d e : Datum} (same : d.amount? = e.amount?) (least greatest : ℤ) :
    d.truncate least greatest = e.truncate least greatest := by
  cases d with
  | nan =>
    cases e with
    | nan => rfl
    | infinite | finite => cases same
  | infinite negative =>
    cases e with
    | infinite other =>
      cases same
      rfl
    | nan | finite => cases same
  | finite a m i =>
    cases e with
    | nan | infinite => cases same
    | finite b n j =>
      have numbers := Sum.inr.inj (Option.some.inj same)
      obtain ⟨size, sign⟩ := signed_eq_signed (by positivity) (by positivity) numbers
      unfold truncate
      dsimp only
      rw [div_pow_eq_floor, div_pow_eq_floor, ← size]
      rcases sign with zero | rfl
      · rw [zero, Nat.floor_zero]
        simp
      · rfl

/-! ## Short significands -/

namespace Format

/-- The significand and the exponent that a pattern reads as. -/
theorem bounds_of_decode {f : Format} {bits significand : Nat} {negative : Bool} {exponent : ℤ}
    (h : f.decode bits = .finite negative significand exponent) :
    significand < 2 * f.fractions ∧ f.leastExponent ≤ exponent ∧
      exponent < f.leastExponent + Nat.pow 2 f.exponentBits := by
  have rest := Nat.mod_lt (bits % f.signBit) f.fractions_pos
  unfold decode at h
  dsimp only at h
  split at h
  · cases h
  · split at h
    · cases h
    · next above infinite =>
      have below : bits % f.signBit < (Nat.pow 2 f.exponentBits - 1) * f.fractions :=
        Nat.lt_of_le_of_ne (Nat.le_of_not_lt above) infinite
      have field : bits % f.signBit / f.fractions < Nat.pow 2 f.exponentBits - 1 :=
        Nat.div_lt_of_lt_mul (by rwa [Nat.mul_comm] at below)
      split at h
      · cases h
        omega
      · next hfield =>
        cases h
        rw [hfield] at field
        omega

/-- A quotient with a significand that is short enough is represented as it is. -/
theorem value?_round_of_short {numerator denominator significand : Nat} {exponent : ℤ}
    (hd : 0 < denominator) (short : significand < wholeLimit) (fine : -1074 ≤ exponent)
    (low : exponent ≤ 970)
    (same : (numerator : ℚ) / denominator = significand * 2 ^ exponent) (negative : Bool) :
    (wide.decode (wide.round negative numerator denominator)).value? =
      some (signed negative (significand * 2 ^ exponent)) := by
  have positive : (0 : ℚ) < denominator := Nat.cast_pos.mpr hd
  have power : (0 : ℚ) < 2 ^ exponent := by positivity
  rcases Nat.eq_zero_or_pos numerator with rfl | hn
  · rw [← same, Nat.cast_zero, zero_div]
    have zero := value?_round_of_le hd (Nat.zero_le wholeLimit) negative
    rwa [Nat.zero_mul, Nat.cast_zero] at zero
  · have size : quotientLog numerator denominator < 53 + exponent := by
      have below := (quotientLog_bounds hn hd).1
      refine (zpow_lt_zpow_iff_right₀ (one_lt_two (α := ℚ))).mp (lt_of_le_of_lt below ?_)
      rw [same, zpow_add, ← wholeLimit_eq]
      exact mul_lt_mul_of_pos_right (Nat.cast_lt.mpr short) power
    have grid : wide.grid numerator denominator ≤ exponent := by
      unfold Format.grid
      rw [leastExponent_wide]
      exact max_le fine (by show _ - (52 : ℤ) ≤ _; omega)
    have scaled : ((significand * 2 ^ (exponent - wide.grid numerator denominator).toNat : Nat) : ℚ)
        * 2 ^ wide.grid numerator denominator = significand * 2 ^ exponent := by
      push_cast
      rw [mul_assoc, ← zpow_natCast, ← zpow_add, Int.toNat_of_nonneg (by omega),
        Int.sub_add_cancel]
    rw [value?_round hn hd negative (pattern_lt_infinity hn hd (by omega)),
      wide.significand_eq hd (same.trans scaled.symm), scaled]

end Format

end Binary

namespace Double

open Binary

/-- Widening keeps what a number of single precision stands for. -/
theorem amount?_widen (x : Single) : x.widen.datum.amount? = x.datum.amount? := by
  unfold Single.widen
  cases h : x.datum with
  | nan => decide
  | infinite negative => cases negative <;> decide
  | finite negative significand exponent =>
    have fractions : Format.narrow.fractions = 8388608 := by decide
    have least : Format.narrow.leastExponent = -149 := by decide
    have fields : Nat.pow 2 Format.narrow.exponentBits = 256 := by decide
    have limit : Format.wholeLimit = 9007199254740992 := rfl
    obtain ⟨short, fine, low⟩ := Format.bounds_of_decode h
    have exact := Format.value?_round_of_short (Nat.pow_pos (by decide)) (by omega) (by omega)
      (by omega) (div_pow_eq significand exponent) negative
    rw [← datum_round] at exact
    exact Datum.amount?_of_value? exact

/-- The whole number is a power of two times a number that has room in the significand. -/
def IsExact (n : ℤ) : Prop :=
  ∃ (significand : ℤ) (exponent : ℕ), significand.natAbs < Format.wholeLimit ∧
    n = significand * 2 ^ exponent

/-- The whole number that a number is cut off to, within 64 bits. -/
def truncate (x : Double) : ℤ := x.datum.truncate (-9223372036854775808) 9223372036854775807

/-- Numbers that compare as equal are cut off to the same whole number. -/
theorem truncate_eq_of_sameNumber {x y : Double} (same : x.sameNumber y = true) :
    x.truncate = y.truncate := by
  obtain ⟨a, hx, hy⟩ := Datum.compare?_eq_iff.mp (eq_of_beq same)
  exact Datum.truncate_congr (hx.trans hy.symm) _ _

/-- What a number is cut off to has room in 64 bits. -/
theorem truncate_bounds (x : Double) : -2 ^ 63 ≤ x.truncate ∧ x.truncate < 2 ^ 63 := by
  unfold truncate
  cases x.datum with
  | nan => decide
  | infinite negative => cases negative <;> decide
  | finite negative significand exponent =>
    unfold Datum.truncate
    dsimp only
    omega

/-- A widened number is cut off like the number itself. -/
theorem truncate_widen (x : Single) : x.widen.truncate = x.truncate.toInt := by
  obtain ⟨above, below⟩ := truncate_bounds x.widen
  have same : x.widen.truncate =
      x.datum.truncate (-9223372036854775808) 9223372036854775807 :=
    Datum.truncate_congr (amount?_widen x) _ _
  unfold Single.truncate
  rw [← same, Int64.toInt_ofInt, Int.bmod_eq_of_le]
  · exact above
  · exact below

/-- A small whole number has room in the significand. -/
theorem isExact_of_lt {n : ℤ} (small : n.natAbs < Format.wholeLimit) : IsExact n :=
  ⟨n, 0, small, by rw [pow_zero, mul_one]⟩

/-- The sign makes no difference to the significand. -/
theorem IsExact.neg {n : ℤ} (exact : IsExact n) : IsExact (-n) := by
  obtain ⟨significand, exponent, short, rfl⟩ := exact
  exact ⟨-significand, exponent, by rwa [Int.natAbs_neg], (neg_mul _ _).symm⟩

/-- A whole number of 64 bits with a short significand is converted as it is. -/
theorem value?_ofInt_of_isExact {n : ℤ} (exact : IsExact n) (bounded : n.natAbs ≤ 2 ^ 63) :
    (ofInt n).value? = some (n : ℚ) := by
  obtain ⟨significand, exponent, short, rfl⟩ := exact
  rcases eq_or_ne significand 0 with rfl | nonzero
  · rw [zero_mul]
    exact (approximates_ofInt 0).value?_eq (by decide)
  · have product : (significand * 2 ^ exponent).natAbs = significand.natAbs * 2 ^ exponent := by
      rw [Int.natAbs_mul, Int.natAbs_pow]
      rfl
    have low : exponent ≤ 63 := by
      refine (Nat.pow_le_pow_iff_right (Nat.one_lt_two)).mp (le_trans ?_ bounded)
      rw [product]
      exact Nat.le_mul_of_pos_left _ (Int.natAbs_pos.mpr nonzero)
    have size : ((significand * 2 ^ exponent).natAbs : ℚ) / (1 : Nat) =
        significand.natAbs * 2 ^ (exponent : ℤ) := by
      rw [product, zpow_natCast]
      push_cast
      rw [div_one]
    have rounded := Format.value?_round_of_short Nat.one_pos short (by omega) (by omega) size
      (decide (significand * 2 ^ exponent < 0))
    unfold value? ofInt Format.ofInt
    rw [datum_round, rounded, ← size, Nat.cast_one, div_one, signed_natAbs fun _ => rfl]

/-- The whole part of a short significand that was scaled has a short significand. -/
theorem isExact_div_pow {significand : Nat} (short : significand < Format.wholeLimit)
    (exponent : ℤ) :
    IsExact (significand * Nat.pow 2 exponent.toNat / Nat.pow 2 (-exponent).toNat : Nat) := by
  rcases le_total 0 exponent with up | down
  · have bare : (-exponent).toNat = 0 := Int.toNat_of_nonpos (by omega)
    refine ⟨significand, exponent.toNat, short, ?_⟩
    rw [bare, Nat.pow_eq, Nat.pow_eq, Nat.pow_zero, Nat.div_one]
    push_cast
    rfl
  · have bare : exponent.toNat = 0 := Int.toNat_of_nonpos down
    have le : significand * Nat.pow 2 exponent.toNat / Nat.pow 2 (-exponent).toNat ≤
        significand := by
      rw [bare, Nat.pow_eq, Nat.pow_zero, Nat.mul_one]
      exact Nat.div_le_self _ _
    exact isExact_of_lt (lt_of_le_of_lt le short)

/-- What a number is cut off to has a short significand, unless it is stopped at the
greatest whole number. -/
theorem isExact_truncate (x : Double) : IsExact x.truncate ∨ x.truncate = 2 ^ 63 - 1 := by
  have least : IsExact (-9223372036854775808) := ⟨-1, 63, by decide, by decide⟩
  unfold truncate
  cases h : x.datum with
  | nan => exact .inl (isExact_of_lt (by decide))
  | infinite negative =>
    cases negative with
    | false => exact .inr rfl
    | true => exact .inl least
  | finite negative significand exponent =>
    have short := (Format.bounds_of_decode h).1
    rw [Format.fractions_wide] at short
    have whole := isExact_div_pow short exponent
    unfold Datum.truncate
    dsimp only
    generalize significand * Nat.pow 2 exponent.toNat / Nat.pow 2 (-exponent).toNat = n at whole
    have either : IsExact (if negative then -(n : ℤ) else n) := by
      cases negative with
      | false => exact whole
      | true => exact whole.neg
    generalize (if negative then -(n : ℤ) else n) = m at either
    have stopped : max (-9223372036854775808) (min 9223372036854775807 m) = m ∨
        max (-9223372036854775808) (min 9223372036854775807 m) = -9223372036854775808 ∨
        max (-9223372036854775808) (min 9223372036854775807 m) = 2 ^ 63 - 1 := by omega
    rcases stopped with same | low | high
    · rw [same]
      exact .inl either
    · rw [low]
      exact .inl least
    · exact .inr high

/-- A whole number is cut off to itself after it was converted exactly if it has a short
significand or is the greatest one. -/
theorem truncate_ofInt_iff {n : ℤ} (above : -2 ^ 63 ≤ n) (below : n < 2 ^ 63) :
    (ofInt n).truncate = n ↔ IsExact n ∨ n = 2 ^ 63 - 1 := by
  constructor
  · intro same
    have cut := isExact_truncate (ofInt n)
    rwa [same] at cut
  · rintro (exact | rfl)
    · exact truncate_eq (value?_ofInt_of_isExact exact (by omega)) (by omega) (by omega)
    · decide +kernel

end Double

end CueRouter
