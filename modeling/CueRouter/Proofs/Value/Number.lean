import CueRouter.Proofs.Binary.Exact
import CueRouter.Proofs.Variable.Whole

/-!
# Values as numbers

A numeric value stands for a number, a range for its first end. Where the number is a
whole one, both readings of the value agree with it: the whole reading as long as there is
room for it in 64 bits, and the real reading up to the limit of double precision.
-/

namespace CueRouter

open Binary

namespace Value

/-- The number that a value stands for, if it is numeric and finite. -/
def number? : Value → Option ℚ
  | float x => x.datum.value?
  | v => v.whole?.map Int.cast

variable {v : Value} {n : ℤ}

/-- A value of an integer kind stands for what it reads as. -/
theorem number?_of_isInteger (integer : v.kind.isInteger = true) (h : v.whole? = some n) :
    v.number? = some (n : ℚ) := by
  have plain : v.number? = v.whole?.map Int.cast := by
    cases v with
    | float => cases integer
    | byte | int | long | range | reference | invalid => rfl
  rw [plain, h]
  rfl

/-- The real reading of a value that stands for a whole number. -/
theorem exists_approximates (h : v.number? = some (n : ℚ)) :
    ∃ x, v.toReal? = some x ∧ x.Approximates n := by
  have viaWhole (same : v.toReal? = v.toWhole?.map fun n => Double.ofInt n.toInt)
      (plain : v.number? = v.whole?.map Int.cast) :
      ∃ x, v.toReal? = some x ∧ x.Approximates n := by
    rw [plain] at h
    obtain ⟨k, hk, cast⟩ := Option.map_eq_some_iff.mp h
    obtain ⟨m, hm, rfl⟩ := Option.map_eq_some_iff.mp hk
    rw [same, hm, ← Int.cast_injective cast]
    exact ⟨_, rfl, Double.approximates_ofInt _⟩
  cases v with
  | float x => exact ⟨x.widen, rfl, Double.approximates_widen h⟩
  | byte | int | long | range | reference | invalid => exact viaWhole rfl rfl

/-- The whole reading of a value that stands for a whole number of 64 bits. -/
theorem whole?_of_number? (h : v.number? = some (n : ℚ)) (above : -2 ^ 63 ≤ n)
    (below : n < 2 ^ 63) : v.whole? = some n := by
  have plain (same : v.number? = v.whole?.map Int.cast) : v.whole? = some n := by
    rw [same] at h
    obtain ⟨k, hk, cast⟩ := Option.map_eq_some_iff.mp h
    rw [hk, Int.cast_injective cast]
  cases v with
  | float x =>
    have cut : x.datum.truncate (-9223372036854775808) 9223372036854775807 = n :=
      Double.truncate_eq h (by omega) (by omega)
    unfold whole? toWhole? Single.truncate
    dsimp only
    rw [cut, Option.map_some, Int64.toInt_ofInt, Int.bmod_eq_of_le]
    · exact above
    · exact below
  | byte | int | long | range | reference | invalid => exact plain rfl

end Value

end CueRouter
