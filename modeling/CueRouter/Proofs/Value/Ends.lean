import CueRouter.Proofs.Variable.Whole
import Mathlib.Data.Int.ModEq

/-!
# Values by their ends

A range is made of two whole numbers, its ends. A byte, an int and a long number are both
ends of their own. A value of these kinds is determined by its kind and its ends, each of
which is limited to the width of the kind; integers beyond that width are reduced to it,
and reducing forgets nothing but multiples of the number of values there are.
-/

namespace CueRouter

namespace Kind

/-- Whether a value of the kind is made of whole numbers, one or two. -/
def hasEnds : Kind → Bool
  | byte | int | long | range => true
  | float | any | reference | invalid => false

/-- How many numbers there are for an end of the kind. -/
def modulus : Kind → ℕ
  | byte => 2 ^ 8
  | int | range => 2 ^ 32
  | long | float | any | reference | invalid => 2 ^ 64

/-- The integer reduced to the width of the kind. Bytes are unsigned, and everything else
is signed. -/
def reduced : Kind → ℤ → ℤ
  | byte, n => n % 2 ^ 8
  | int, n | range, n => n.bmod (2 ^ 32)
  | long, n | float, n | any, n | reference, n | invalid, n => n.bmod (2 ^ 64)

/-- Integers have the same balanced remainder if they are congruent. -/
theorem bmod_eq_bmod_iff {m n : ℤ} {k : ℕ} : m.bmod k = n.bmod k ↔ m ≡ n [ZMOD k] := by
  unfold Int.ModEq
  constructor
  · intro same
    have remainders := congrArg (· % (k : ℤ)) same
    simpa only [Int.bmod_emod] using remainders
  · intro congruent
    rw [← Int.emod_bmod m k, congruent, Int.emod_bmod]

/-- Reducing tells two integers apart exactly if they are not congruent. -/
theorem reduced_eq_reduced_iff {kind : Kind} {m n : ℤ} :
    kind.reduced m = kind.reduced n ↔ m ≡ n [ZMOD kind.modulus] := by
  cases kind with
  | byte => exact Iff.rfl
  | int | long | float | range | any | reference | invalid => exact bmod_eq_bmod_iff

/-- The reduced integer is congruent to the integer. -/
theorem reduced_modEq (kind : Kind) (n : ℤ) : kind.reduced n ≡ n [ZMOD kind.modulus] := by
  cases kind with
  | byte => exact Int.mod_modEq n _
  | int | long | float | range | any | reference | invalid => exact Int.bmod_emod

/-- Zero is reduced to itself. -/
theorem reduced_zero (kind : Kind) : kind.reduced 0 = 0 := by cases kind <;> rfl

/-- Every width goes into 64 bits. -/
theorem modulus_dvd (kind : Kind) : (kind.modulus : ℤ) ∣ 2 ^ 64 := by
  cases kind with
  | byte => exact pow_dvd_pow 2 (show 8 ≤ 64 by decide)
  | int | range => exact pow_dvd_pow 2 (show 32 ≤ 64 by decide)
  | long | float | any | reference | invalid => exact dvd_refl _

/-- An integer may be wrapped to 64 bits before it is reduced. -/
theorem reduced_toInt_ofInt (kind : Kind) (n : ℤ) :
    kind.reduced (Int64.ofInt n).toInt = kind.reduced n := by
  have wide : (Int64.ofInt n).toInt ≡ n [ZMOD 2 ^ 64] := by
    rw [Int64.toInt_ofInt]
    exact Int.bmod_emod
  exact reduced_eq_reduced_iff.mpr (wide.of_dvd kind.modulus_dvd)

/-- The value of the kind with these ends, reduced. A single number is its low end. -/
def make (kind : Kind) (low high : ℤ) : Value :=
  match kind with
  | byte => .byte (.ofInt low)
  | int => .int (.ofInt low)
  | long => .long (.ofInt low)
  | range => .range ⟨.ofInt low, .ofInt high⟩
  | float | any | reference | invalid => .invalid

end Kind

namespace Value

/-- The whole number that a value reads as: the first end of a range, and zero for a value
that is not numeric. -/
def low (v : Value) : ℤ := v.toWhole.toInt

/-- The second end of a range, and the whole number that any other value reads as. -/
def high : Value → ℤ
  | range span => span.hi.toInt
  | v => v.low

/-- A value reads as its low end. -/
theorem low_eq_of_whole? {v : Value} {n : ℤ} (reads : v.whole? = some n) : v.low = n := by
  obtain ⟨m, whole, rfl⟩ := Option.map_eq_some_iff.mp reads
  unfold low toWhole
  rw [whole, Option.getD_some]

theorem low_eq_of_toWhole? {v : Value} {m : Int64} (reads : v.toWhole? = some m) :
    v.low = m.toInt :=
  low_eq_of_whole? (Option.map_eq_some_iff.mpr ⟨m, reads, rfl⟩)

theorem low_byte (n : UInt8) : (byte n).low = n.toNat := low_eq_of_whole? (whole?_byte n)

theorem low_int (n : Int32) : (int n).low = n.toInt := low_eq_of_whole? (whole?_int n)

theorem low_range (span : Span) : (range span).low = span.lo.toInt :=
  Int32.toInt_toInt64 span.lo

/-- Only a range has two ends. -/
theorem high_eq_low {v : Value} (single : v.kind ≠ .range) : v.high = v.low := by
  cases v with
  | range => exact absurd rfl single
  | byte | int | long | float | reference | invalid => rfl

/-- A value that has ends is numeric. -/
theorem toWhole?_ne_none_of_hasEnds {v : Value} (ends : v.kind.hasEnds = true) :
    v.toWhole? ≠ none := by
  intro unread
  rcases toWhole?_eq_none_iff.mp unread with kind | kind <;> rw [kind] at ends <;> cases ends

/-- The number of a byte that was made from an integer. -/
theorem toNat_ofInt (n : ℤ) : ((UInt8.ofInt n).toNat : ℤ) = n % 2 ^ 8 := by
  have low := Int.emod_nonneg n (show (2 ^ 8 : ℤ) ≠ 0 by decide)
  have high := Int.emod_lt_of_pos n (show (0 : ℤ) < 2 ^ 8 by decide)
  unfold UInt8.ofInt
  rw [UInt8.toNat_ofNat']
  omega

variable {kind : Kind}

theorem kind_make (ends : kind.hasEnds = true) (low high : ℤ) :
    (kind.make low high).kind = kind := by
  cases kind with
  | byte | int | long | range => rfl
  | float | any | reference | invalid => cases ends

/-- What is made of ends is valid. -/
theorem make_ne_invalid (ends : kind.hasEnds = true) (low high : ℤ) :
    kind.make low high ≠ invalid := by
  cases kind with
  | byte | int | long | range => exact nofun
  | float | any | reference | invalid => cases ends

/-- The low end of a value that was made is reduced. -/
theorem low_make (ends : kind.hasEnds = true) (low high : ℤ) :
    (kind.make low high).low = kind.reduced low := by
  cases kind with
  | byte => exact (low_byte _).trans (toNat_ofInt low)
  | int => exact (low_int _).trans Int32.toInt_ofInt
  | long => exact Int64.toInt_ofInt
  | range => exact (low_range _).trans Int32.toInt_ofInt
  | float | any | reference | invalid => cases ends

/-- The high end of a range that was made is reduced. -/
theorem high_make (range : kind = .range) (low high : ℤ) :
    (kind.make low high).high = kind.reduced high := by
  subst range
  exact Int32.toInt_ofInt

/-- A value is made of its ends. -/
theorem make_low_high {v : Value} (ends : v.kind.hasEnds = true) :
    v.kind.make v.low v.high = v := by
  cases v with
  | byte n =>
    have small := n.toNat_lt
    have value := toNat_ofInt n.toNat
    have same : UInt8.ofInt n.toNat = n := UInt8.toNat_inj.mp (by omega)
    unfold Value.kind Kind.make
    rw [low_byte, same]
  | int n =>
    unfold Value.kind Kind.make
    rw [low_int, Int32.ofInt_toInt]
  | long n => exact congrArg long (Int64.ofInt_toInt n)
  | range span =>
    unfold Value.kind Kind.make
    rw [low_range, Int32.ofInt_toInt]
    exact congrArg (fun hi => range ⟨span.lo, hi⟩) (Int32.ofInt_toInt span.hi)
  | float | reference | invalid => cases ends

/-- The ends of a value are within the width of its kind. -/
theorem reduced_low {v : Value} (ends : v.kind.hasEnds = true) :
    v.kind.reduced v.low = v.low := by
  have same := congrArg low (make_low_high ends)
  rwa [low_make ends] at same

/-- The second end of a range is within its width. -/
theorem reduced_high {v : Value} (range : v.kind = .range) :
    v.kind.reduced v.high = v.high := by
  have ends : v.kind.hasEnds = true := by rw [range]; rfl
  have same := congrArg high (make_low_high ends)
  rwa [high_make range] at same

/-- Values of one kind with the same ends are the same. -/
theorem eq_of_ends {u v : Value} (kinds : u.kind = v.kind) (ends : u.kind.hasEnds = true)
    (low : u.low = v.low) (high : u.kind = .range → u.high = v.high) : u = v := by
  have same : u.kind.make u.low u.high = v.kind.make v.low v.high := by
    rw [← kinds, low]
    cases kind : u.kind with
    | range => rw [high kind]
    | byte | int | long | float | any | reference | invalid => rfl
  rwa [make_low_high ends, make_low_high (kinds ▸ ends)] at same

/-- What is made of two pairs of ends is the same exactly if the ends are congruent. -/
theorem make_eq_make_iff (ends : kind.hasEnds = true) {l l' h h' : ℤ} :
    kind.make l h = kind.make l' h' ↔
      kind.reduced l = kind.reduced l' ∧
        (kind = .range → kind.reduced h = kind.reduced h') := by
  constructor
  · intro same
    have low := congrArg low same
    rw [low_make ends, low_make ends] at low
    refine ⟨low, fun range => ?_⟩
    have high := congrArg high same
    rwa [high_make range, high_make range] at high
  · rintro ⟨low, high⟩
    have kinds := (kind_make ends l h).trans (kind_make ends l' h').symm
    refine eq_of_ends kinds (by rwa [kind_make ends]) ?_ ?_
    · rw [low_make ends, low_make ends, low]
    · rw [kind_make ends]
      intro range
      rw [high_make range, high_make range, high range]

/-- Converting a numeric value to a kind that has ends keeps the ends, reduced. -/
theorem convert_eq_make {v : Value} (ends : kind.hasEnds = true)
    (numeric : v.toWhole? ≠ none) : v.convert kind = kind.make v.low v.high := by
  by_cases same : v.kind = kind
  · subst same
    rw [convert_kind, make_low_high ends]
  · obtain ⟨m, reads⟩ := Option.ne_none_iff_exists'.mp numeric
    have low : v.low = m.toInt := low_eq_of_toWhole? reads
    have narrow : m.toInt32 = .ofInt m.toInt := by
      rw [← Int64.toInt32_ofInt, Int64.ofInt_toInt]
    unfold convert
    rw [if_neg same]
    cases kind with
    | byte =>
      unfold viaWhole Kind.make
      rw [reads, low]
    | int =>
      unfold viaWhole Kind.make
      rw [reads, low, ← narrow]
    | long =>
      unfold viaWhole Kind.make
      rw [reads, low, Int64.ofInt_toInt]
    | range =>
      unfold viaWhole Kind.make
      rw [reads, high_eq_low same, low, ← narrow]
      rfl
    | float | any | reference | invalid => cases ends

end Value

end CueRouter
