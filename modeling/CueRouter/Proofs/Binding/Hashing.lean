import CueRouter.Proofs.Binary.Widening
import CueRouter.Proofs.Binding.Bucket

/-!
# Equal values and their buckets

Buckets are numbered by whole readings, but a float agrees with whatever has its real reading.
Two plain numbers that agree meet in one bucket, however many there are, unless one is a float
and the other a long number that is rounded on its way to double precision: several long
numbers then agree with the same float, and only one of them can have its bucket.
-/

namespace CueRouter

namespace Value

/-- The value is a long number that is not cut off to itself after it was converted to double
precision: its significand is too long, and it is not the greatest one, which is stopped at. -/
def IsRounded : Value → Prop
  | long n => ¬Double.IsExact n.toInt ∧ n.toInt ≠ 2 ^ 63 - 1
  | byte _ | int _ | float _ | range _ | reference _ | invalid => False

variable {v live constant : Value}

/-- Both readings of a plain number, and when the real one is cut off to the whole one. -/
theorem exists_readings (scalar : v.isScalar = true) :
    ∃ x n, v.toReal? = some x ∧ v.toWhole? = some n ∧ (x.truncate = n.toInt ↔ ¬v.IsRounded) := by
  have limit : Binary.Format.wholeLimit = 9007199254740992 := rfl
  have small {n : Int64} (h : n.toInt.natAbs < 2 ^ 32) :
      (Double.ofInt n.toInt).truncate = n.toInt :=
    (Double.truncate_ofInt_iff n.le_toInt n.toInt_lt).mpr
      (.inl (Double.isExact_of_lt (by omega)))
  cases v with
  | float x =>
    exact ⟨x.widen, x.truncate, rfl, rfl, iff_of_true (Double.truncate_widen x) id⟩
  | byte n =>
    have below := n.toNat_lt
    have same : (Int64.ofNat n.toNat).toInt = n.toNat := Int64.toInt_ofNat_of_lt (by omega)
    exact ⟨_, .ofNat n.toNat, rfl, rfl, iff_of_true (small (by omega)) id⟩
  | int n =>
    have above := n.le_toInt
    have below := n.toInt_lt
    have same : n.toInt64.toInt = n.toInt := n.toInt_toInt64
    exact ⟨_, n.toInt64, rfl, rfl, iff_of_true (small (by omega)) id⟩
  | long n =>
    refine ⟨_, n, rfl, rfl, (Double.truncate_ofInt_iff n.le_toInt n.toInt_lt).trans ?_⟩
    unfold IsRounded
    rw [not_and_or, not_not, not_not]
  | range | reference | invalid => cases scalar

/-- Where a float is involved, plain numbers agree exactly if their real readings are equal. -/
theorem agrees_eq_sameReal (hl : live.isScalar = true) (hc : constant.isScalar = true)
    (mixed : live.kind = .float ∨ constant.kind = .float) :
    live.agrees constant = live.sameReal constant := by
  cases live with
  | float => cases constant <;> first | rfl | cases hc
  | byte | int | long =>
    cases constant with
    | float => rfl
    | byte | int | long => rcases mixed with first | second <;> contradiction
    | range | reference | invalid => cases hc
  | range | reference | invalid => cases hl

/-- Floats are not rounded any further. -/
theorem not_isRounded_of_float (float : v.kind = .float) : ¬v.IsRounded := by
  cases v with
  | float => exact id
  | byte | int | long | range | reference | invalid => cases float

/-- Plain numbers that agree have the same whole reading, unless one of them is a float and
the other is rounded. -/
theorem toWhole?_eq_iff_of_agrees (hl : live.isScalar = true) (hc : constant.isScalar = true)
    (h : live.agrees constant = true) :
    live.toWhole? = constant.toWhole? ↔
      ¬(live.kind = .float ∧ constant.IsRounded ∨ live.IsRounded ∧ constant.kind = .float) := by
  obtain ⟨x, n, hx, hn, cutLive⟩ := exists_readings hl
  obtain ⟨y, m, hy, hm, cutConstant⟩ := exists_readings hc
  by_cases mixed : live.kind = .float ∨ constant.kind = .float
  · have same : x.truncate = y.truncate := by
      rw [agrees_eq_sameReal hl hc mixed, sameReal, hx, hy] at h
      exact Double.truncate_eq_of_sameNumber h
    rw [hn, hm, Option.some.injEq, ← Int64.toInt_inj]
    rcases mixed with float | float
    · have reading := cutLive.mpr (not_isRounded_of_float float)
      rw [← reading, same, cutConstant]
      have other := not_isRounded_of_float float
      tauto
    · have reading := cutConstant.mpr (not_isRounded_of_float float)
      rw [← reading, ← same, eq_comm, cutLive]
      have other := not_isRounded_of_float float
      tauto
  · obtain ⟨first, second⟩ := not_or.mp mixed
    have whole : live.isWhole = true := by
      cases live with
      | byte | int | long => rfl
      | float => exact absurd rfl first
      | range | reference | invalid => cases hl
    have noFloat : ∀ x, constant ≠ .float x := by
      rintro x rfl
      exact second rfl
    refine iff_of_true (toWhole?_eq_of_agrees whole hc noFloat h) ?_
    tauto

end Value

/-! ## Buckets -/

/-- Numbers that have the same bucket, however many there are, are the same. -/
theorem eq_of_bucketOf {n m : Int64}
    (same : ∀ buckets, 1 ≤ buckets → buckets < 2 ^ 32 → bucketOf buckets n = bucketOf buckets m) :
    n = m := by
  have divides (buckets : ℕ) (nonempty : 1 ≤ buckets) (few : buckets < 2 ^ 32) :
      buckets ∣ (n.toInt - m.toInt).natAbs := by
    have left := Int.emod_nonneg n.toInt (by omega : (buckets : ℤ) ≠ 0)
    have right := Int.emod_nonneg m.toInt (by omega : (buckets : ℤ) ≠ 0)
    have equal := same buckets nonempty few
    have rest : n.toInt % buckets = m.toInt % buckets := by
      unfold bucketOf at equal
      omega
    exact Int.natCast_dvd.mp (Int.dvd_of_emod_eq_zero
      (Int.emod_eq_emod_iff_emod_sub_eq_zero.mp rest))
  have two : 4294967295 * 4294967293 ∣ (n.toInt - m.toInt).natAbs :=
    Nat.Coprime.mul_dvd_of_dvd_of_dvd (by decide +kernel) (divides _ (by decide) (by decide))
      (divides _ (by decide) (by decide))
  have three : 4294967295 * 4294967293 * 2147483648 ∣ (n.toInt - m.toInt).natAbs :=
    Nat.Coprime.mul_dvd_of_dvd_of_dvd (by decide +kernel) two
      (divides _ (by decide) (by decide))
  have small : (n.toInt - m.toInt).natAbs < 4294967295 * 4294967293 * 2147483648 := by
    have lowFirst := n.le_toInt
    have highFirst := n.toInt_lt
    have lowSecond := m.le_toInt
    have highSecond := m.toInt_lt
    omega
  have zero := Nat.eq_zero_of_dvd_of_lt three small
  refine Int64.toInt_inj.mp ?_
  omega

/-- The bucket of a condition on the indexed field is that which an event selects, where the
condition compares the field with the constant and the event has the live value there. -/
def SharesBucket (live constant : Value) (buckets : Nat) : Prop :=
  ∀ (field : Field) (expression : Expression) (set : BucketSet) (event : Event),
    field.buckets = some buckets → expression.fold? = some constant →
      set.spread = some ⟨field.index, buckets⟩ → event.field field.index = live →
        set.primary event = .ok (Condition.bucketFor field expression)

/-- Plain numbers share their bucket if their whole readings have the same one. -/
theorem sharesBucket_iff_bucketOf {live constant : Value} (hl : live.isScalar = true)
    (hc : constant.isScalar = true) (buckets : Nat) :
    SharesBucket live constant buckets ↔
      live.toWhole?.map (bucketOf buckets) = constant.toWhole?.map (bucketOf buckets) := by
  have sides (field : Field) (expression : Expression) (set : BucketSet) (event : Event)
      (hfield : field.buckets = some buckets) (hfold : expression.fold? = some constant)
      (hspread : set.spread = some ⟨field.index, buckets⟩)
      (hevent : event.field field.index = live) :
      set.primary event = .ok (live.toWhole?.map (bucketOf buckets)) ∧
        Condition.bucketFor field expression = constant.toWhole?.map (bucketOf buckets) := by
    constructor
    · simp [BucketSet.primary, hspread, hevent, hl]
    · simp [Condition.bucketFor, hfield, hfold, hc]
  constructor
  · intro shares
    have both := shares ⟨"", 0, .any, some buckets, false⟩ (.constant constant)
      ⟨some ⟨0, buckets⟩, #[]⟩ ⟨.key, [live], false⟩ rfl rfl rfl rfl
    obtain ⟨selected, confined⟩ := sides ⟨"", 0, .any, some buckets, false⟩ (.constant constant)
      ⟨some ⟨0, buckets⟩, #[]⟩ ⟨.key, [live], false⟩ rfl rfl rfl rfl
    rw [selected, confined] at both
    exact Except.ok.inj both
  · intro same field expression set event hfield hfold hspread hevent
    obtain ⟨selected, confined⟩ := sides field expression set event hfield hfold hspread hevent
    rw [selected, confined, same]

/-- Plain numbers that agree share their bucket, however many there are, exactly if none of
them is a float while the other is rounded. -/
theorem sharesBucket_iff {live constant : Value} (hl : live.isScalar = true)
    (hc : constant.isScalar = true) (h : live.agrees constant = true) :
    (∀ buckets, 1 ≤ buckets → buckets < 2 ^ 32 → SharesBucket live constant buckets) ↔
      ¬(live.kind = .float ∧ constant.IsRounded ∨ live.IsRounded ∧ constant.kind = .float) := by
  rw [← Value.toWhole?_eq_iff_of_agrees hl hc h]
  constructor
  · intro shares
    obtain ⟨-, n, -, hn, -⟩ := Value.exists_readings hl
    obtain ⟨-, m, -, hm, -⟩ := Value.exists_readings hc
    have same : n = m := by
      refine eq_of_bucketOf fun buckets nonempty few => ?_
      have readings := (sharesBucket_iff_bucketOf hl hc buckets).mp (shares buckets nonempty few)
      rw [hn, hm] at readings
      exact Option.some.inj readings
    rw [hn, hm, same]
  · intro same buckets nonempty few
    rw [sharesBucket_iff_bucketOf hl hc, same]

/-- A power of two far beyond the limit of double precision has the bucket of the float that
it agrees with. -/
theorem sharesBucket_iff_power :
    SharesBucket (.long 1152921504606846976) (.float ⟨0x5d800000⟩) 7 := by
  refine (sharesBucket_iff (by decide) (by decide) (by decide +kernel)).mpr ?_ 7 (by decide)
    (by decide)
  rintro (⟨float, -⟩ | ⟨⟨rounded, -⟩, -⟩)
  · cases float
  · exact rounded ⟨1, 60, by decide, by decide⟩

/-- An odd number beyond the limit of double precision agrees with the float next to it, and
has another bucket. -/
theorem not_sharesBucket_odd :
    ¬∀ live constant : Value, live.isScalar = true → constant.isScalar = true →
      live.agrees constant = true → ∀ buckets, 1 ≤ buckets → SharesBucket live constant buckets := by
  intro all
  have shares := all (.long 9007199254740993) (.float ⟨0x5a000000⟩) (by decide) (by decide)
    (by decide +kernel) 16 (by decide)
  rw [sharesBucket_iff_bucketOf (by decide) (by decide)] at shares
  revert shares
  decide +kernel

end CueRouter
