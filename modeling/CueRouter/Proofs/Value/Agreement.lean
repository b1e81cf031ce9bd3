import CueRouter.Proofs.Value.Number
import CueRouter.Value.Agreement

/-!
# Which values agree

Agreement of values that are no floats is a relation of its own: two integers that are the
same number, a range and an integer in it, two ranges with the same ends, two references to
one variable, and nothing else. An integer is compared with the ends of a range in double
precision, where a large one is rounded. The ends have 32 bits and are not rounded, and
rounding leaves an integer on its side of them, so the comparison is that of the integers.
-/

namespace CueRouter

open Binary

/-! ## Integers in a range -/

/-- A small integer and one of any size are in the same order when they are converted. -/
theorem Double.atMost_ofInt_iff {m : ℤ} (small : m.natAbs < Format.wholeLimit) (n : ℤ) :
    ((ofInt m).atMost (ofInt n) = true ↔ m ≤ n) ∧
      ((ofInt n).atMost (ofInt m) = true ↔ n ≤ m) := by
  have forward : (ofInt m).compare? (ofInt n) = some (compare m n) :=
    compare?_of_approximates ((approximates_ofInt m).value?_eq small) small
      (approximates_ofInt n)
  have backward : (ofInt n).compare? (ofInt m) = some (compare m n).swap := by
    unfold compare? at forward ⊢
    rw [Datum.compare?_swap, forward, Option.map_some]
  unfold atMost
  rw [forward, backward]
  rcases lt_trichotomy m n with less | rfl | greater
  · simp [compare_lt_iff_lt.mpr less, less.le, less]
  · simp
  · simp [compare_gt_iff_gt.mpr greater, greater.le, greater]

namespace Span

variable (span : Span)

/-- The ends of a span are small. -/
theorem natAbs_ends_lt : span.least.natAbs < Format.wholeLimit ∧
    span.greatest.natAbs < Format.wholeLimit := by
  have lo := And.intro span.lo.le_toInt span.lo.toInt_lt
  have hi := And.intro span.hi.le_toInt span.hi.toInt_lt
  unfold least greatest Format.wholeLimit
  omega

/-- An integer of any size lies between the ends in double precision exactly if it lies
between them. -/
theorem containsReal_ofInt (n : Int64) :
    span.containsReal (.ofInt n.toInt) = span.contains n := by
  obtain ⟨least, greatest⟩ := span.natAbs_ends_lt
  have above := (Double.atMost_ofInt_iff least n.toInt).1
  have below := (Double.atMost_ofInt_iff greatest n.toInt).2
  rw [Bool.eq_iff_iff, containsReal, contains, Bool.and_eq_true, Bool.and_eq_true, above, below,
    decide_eq_true_iff, decide_eq_true_iff]

end Span

namespace Value

/-! ## The relation -/

/-- The integer that a byte, an int or a long number is. -/
def integer? : Value → Option ℤ
  | byte n => some n.toNat
  | int n => some n.toInt
  | long n => some n.toInt
  | float _ | range _ | reference _ | invalid => none

/-- The pairs of values without a float that agree. -/
inductive Concurs : Value → Value → Prop
  /-- Two integers of any kinds that are the same number. -/
  | integers {a b : Value} {n : ℤ} (left : a.integer? = some n) (right : b.integer? = some n) :
    Concurs a b
  /-- A range and an integer in it. -/
  | around {span : Span} {v : Value} {n : Int64} (number : v.integer? = some n.toInt)
    (inside : span.contains n = true) : Concurs (range span) v
  /-- An integer and a range around it. -/
  | within {span : Span} {v : Value} {n : Int64} (number : v.integer? = some n.toInt)
    (inside : span.contains n = true) : Concurs v (range span)
  /-- Two ranges with the same ends. -/
  | ranges {a b : Span} (first : a.lo = b.lo) (second : a.hi = b.hi) :
    Concurs (range a) (range b)
  /-- Two references to one variable. -/
  | references (handle : Handle) : Concurs (reference handle) (reference handle)

variable {a b v : Value} {m n : Int64} {span : Span}

/-- The order of the two sides does not matter. -/
theorem Concurs.symm (h : Concurs a b) : Concurs b a := by
  cases h with
  | integers left right => exact .integers right left
  | around number inside => exact .within number inside
  | within number inside => exact .around number inside
  | ranges first second => exact .ranges first.symm second.symm
  | references handle => exact .references handle

/-! ## Agreement by kinds -/

/-- An integer reads as itself. -/
theorem toWhole?_of_integer? (h : v.integer? = some n.toInt) : v.toWhole? = some n := by
  have integer : v.kind.isInteger = true ∧ v.whole? = some n.toInt := by
    cases v with
    | byte => exact ⟨rfl, (whole?_byte _).trans h⟩
    | int => exact ⟨rfl, (whole?_int _).trans h⟩
    | long => exact ⟨rfl, h⟩
    | float | range | reference | invalid => cases h
  obtain ⟨k, reading, same⟩ := Option.map_eq_some_iff.mp integer.2
  rw [reading, Int64.toInt_inj.mp same]

/-- Every integer among the values has 64 bits. -/
theorem exists_integer? {k : ℤ} (h : v.integer? = some k) : ∃ n : Int64, k = n.toInt := by
  cases v with
  | byte b =>
    cases h
    have small : b.toNat < 2 ^ 63 := Nat.lt_trans b.toNat_lt (by decide)
    exact ⟨.ofNat b.toNat, (Int64.toInt_ofNat_of_lt small).symm⟩
  | int i =>
    cases h
    exact ⟨i.toInt64, (Int32.toInt_toInt64 i).symm⟩
  | long l =>
    cases h
    exact ⟨l, rfl⟩
  | float | range | reference | invalid => cases h

/-- A value that is no float is an integer, a range, a reference or invalid. -/
theorem integer_or_range_or_reference (h : v.kind ≠ .float) :
    (∃ n : Int64, v.integer? = some n.toInt) ∨ (∃ span, v = range span) ∨
      (∃ handle, v = reference handle) ∨ v = invalid := by
  have integer {k : ℤ} (same : v.integer? = some k) : ∃ n : Int64, v.integer? = some n.toInt := by
    obtain ⟨n, rfl⟩ := exists_integer? same
    exact ⟨n, same⟩
  cases v with
  | byte | int | long => exact .inl (integer rfl)
  | float => exact absurd rfl h
  | range span => exact .inr (.inl ⟨span, rfl⟩)
  | reference handle => exact .inr (.inr (.inl ⟨handle, rfl⟩))
  | invalid => exact .inr (.inr (.inr rfl))

/-- Two integers agree if they are the same. -/
theorem agrees_integers (ha : a.integer? = some m.toInt) (hb : b.integer? = some n.toInt) :
    a.agrees b = (m == n) := by
  have compared : a.agrees b = (a.toWhole? == b.toWhole?) := by
    cases a with
    | byte | int | long =>
      cases b with
      | byte | int | long => rfl
      | float | range | reference | invalid => cases hb
    | float | range | reference | invalid => cases ha
  rw [compared, toWhole?_of_integer? ha, toWhole?_of_integer? hb]
  rfl

/-- An integer agrees with a range that holds it, on either side. -/
theorem agrees_range (h : v.integer? = some n.toInt) :
    (range span).agrees v = span.contains n ∧ v.agrees (range span) = span.contains n := by
  have real : v.liesIn span = span.contains n := by
    have reading : v.toReal? = v.toWhole?.map fun n => Double.ofInt n.toInt := by
      cases v with
      | float => cases h
      | byte | int | long | range | reference | invalid => rfl
    rw [liesIn, reading, toWhole?_of_integer? h]
    exact span.containsReal_ofInt n
  rw [← real]
  cases v with
  | byte | int | long => exact ⟨rfl, rfl⟩
  | float | range | reference | invalid => cases h

/-- An integer agrees with no reference, on either side. -/
theorem agrees_reference (h : v.integer? = some n.toInt) (handle : Handle) :
    (reference handle).agrees v = false ∧ v.agrees (reference handle) = false := by
  cases v with
  | byte | int | long => exact ⟨rfl, rfl⟩
  | float | range | reference | invalid => cases h

/-- Values that concur agree. -/
theorem Concurs.agrees (h : Concurs a b) : a.agrees b = true := by
  cases h with
  | integers left right =>
    obtain ⟨n, rfl⟩ := exists_integer? left
    rw [agrees_integers left right, beq_self_eq_true]
  | around number inside => rw [(agrees_range number).1, inside]
  | within number inside => rw [(agrees_range number).2, inside]
  | ranges first second =>
    refine beq_iff_eq.mpr ?_
    rw [Span.mk.injEq]
    exact ⟨first, second⟩
  | references handle => exact beq_iff_eq.mpr rfl

/-- Values that agree and are no floats concur. -/
theorem concurs_of_agrees (ha : a.kind ≠ .float) (hb : b.kind ≠ .float)
    (h : a.agrees b = true) : Concurs a b := by
  rcases integer_or_range_or_reference ha with ⟨m, hm⟩ | ⟨s, rfl⟩ | ⟨handle, rfl⟩ | rfl
  · rcases integer_or_range_or_reference hb with ⟨n, hn⟩ | ⟨t, rfl⟩ | ⟨other, rfl⟩ | rfl
    · rw [agrees_integers hm hn, beq_iff_eq] at h
      exact .integers hm (h ▸ hn)
    · exact .within hm ((agrees_range hm).2 ▸ h)
    · simp [(agrees_reference hm other).2] at h
    · simp [(agrees_invalid a).1] at h
  · rcases integer_or_range_or_reference hb with ⟨n, hn⟩ | ⟨t, rfl⟩ | ⟨other, rfl⟩ | rfl
    · exact .around hn ((agrees_range hn).1 ▸ h)
    · obtain rfl : s = t := beq_iff_eq.mp h
      exact .ranges rfl rfl
    · exact absurd h Bool.false_ne_true
    · exact absurd h Bool.false_ne_true
  · rcases integer_or_range_or_reference hb with ⟨n, hn⟩ | ⟨t, rfl⟩ | ⟨other, rfl⟩ | rfl
    · simp [(agrees_reference hn handle).1] at h
    · exact absurd h Bool.false_ne_true
    · obtain rfl : handle = other := beq_iff_eq.mp h
      exact .references handle
    · exact absurd h Bool.false_ne_true
  · simp [(agrees_invalid b).2] at h

/-- Agreement of values that are no floats is symmetric, and it is the relation. -/
theorem agrees_iff_concurs (a b : Value) (ha : a.kind ≠ .float) (hb : b.kind ≠ .float) :
    a.agrees b = b.agrees a ∧ (a.agrees b = true ↔ Concurs a b) := by
  have same {c d : Value} (hc : c.kind ≠ .float) (hd : d.kind ≠ .float) :
      c.agrees d = true ↔ Concurs c d := ⟨concurs_of_agrees hc hd, Concurs.agrees⟩
  refine ⟨?_, same ha hb⟩
  rw [Bool.eq_iff_iff, same ha hb, same hb ha]
  exact ⟨Concurs.symm, Concurs.symm⟩

/-- A range written from its greater end to its lesser one, and an integer just beyond 32
bits. -/
theorem agrees_iff_concurs_beyondEnd :
    (range ⟨2147483647, -5⟩).kind ≠ .float ∧ (long 2147483648).kind ≠ .float ∧
      (range ⟨2147483647, -5⟩).agrees (long 2147483648) =
        (long 2147483648).agrees (range ⟨2147483647, -5⟩) ∧
      ((range ⟨2147483647, -5⟩).agrees (long 2147483648) = true ↔
        Concurs (range ⟨2147483647, -5⟩) (long 2147483648)) :=
  ⟨Kind.noConfusion, Kind.noConfusion,
    agrees_iff_concurs _ _ Kind.noConfusion Kind.noConfusion⟩

end Value

end CueRouter
