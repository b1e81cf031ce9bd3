import CueRouter.Proofs.Text.Numeral

/-!
# Reading signed numerals

Within bounds on both sides of zero, a numeral is a run of digits with a sign in front of it
or without one. Reading accepts exactly these texts, as far as their number is within the
bounds, and yields this number. Behind a minus sign the running total goes down, which is
going up in the mirror. What is written of a number is such a numeral for this number.
-/

namespace CueRouter.Text.Numeral

/-- The characters are a run of digits for the number, with a sign in front or without. -/
inductive Signed : List Char → Int → Prop
  /-- Digits without a sign. -/
  | plain {ds : List Char} (digits : Digits ds) : Signed ds (digitsValue ds)
  /-- Digits behind a plus sign. -/
  | plus {ds : List Char} (digits : Digits ds) : Signed ('+' :: ds) (digitsValue ds)
  /-- Digits behind a minus sign, for a number that is not above zero. -/
  | minus {ds : List Char} (digits : Digits ds) : Signed ('-' :: ds) (-digitsValue ds)

variable {bounds : Bounds} {c : Char} {cs ds : List Char} {n : Int}

/-! ## Characters -/

/-- A signed numeral is made of digits and signs. -/
theorem Signed.figure (h : Signed cs n) (member : c ∈ cs) :
    isDigit c = true ∨ c = '+' ∨ c = '-' := by
  cases h with
  | plain digits => exact .inl (digits.all c member)
  | plus digits =>
    rcases List.mem_cons.mp member with sign | digit
    · exact .inr (.inl sign)
    · exact .inl (digits.all c digit)
  | minus digits =>
    rcases List.mem_cons.mp member with sign | digit
    · exact .inr (.inr sign)
    · exact .inl (digits.all c digit)

/-- There is nothing to trim from a signed numeral. -/
theorem Signed.trimChars (h : Signed cs n) : trimChars cs = cs := by
  refine trimChars_of_not_blank fun c member => ?_
  rcases h.figure member with digit | rfl | rfl
  · exact isBlank_of_isDigit digit
  · rfl
  · rfl

/-- Behind a plus sign, a signed numeral is a run of digits for the number. -/
theorem signed_plus_iff : Signed ('+' :: ds) n ↔ Digits ds ∧ n = digitsValue ds := by
  constructor
  · intro h
    cases h with
    | plain digits => cases digits.all '+' List.mem_cons_self
    | plus digits => exact ⟨digits, rfl⟩
  · rintro ⟨digits, rfl⟩
    exact .plus digits

/-- Behind a minus sign, a signed numeral is a run of digits for the negative of the
number. -/
theorem signed_minus_iff : Signed ('-' :: ds) n ↔ Digits ds ∧ n = -digitsValue ds := by
  constructor
  · intro h
    cases h with
    | plain digits => cases digits.all '-' List.mem_cons_self
    | minus digits => exact ⟨digits, rfl⟩
  · rintro ⟨digits, rfl⟩
    exact .minus digits

/-- Without a sign in front, a signed numeral is a run of digits for the number. -/
theorem signed_iff_of_head (noPlus : cs.head? ≠ some '+') (noMinus : cs.head? ≠ some '-') :
    Signed cs n ↔ Digits cs ∧ n = digitsValue cs := by
  constructor
  · intro h
    cases h with
    | plain digits => exact ⟨digits, rfl⟩
    | plus => exact absurd rfl noPlus
    | minus => exact absurd rfl noMinus
  · rintro ⟨digits, rfl⟩
    exact .plain digits

/-! ## Reading -/

/-- The bounds with every number in the place of its negative. -/
def Bounds.mirrored (bounds : Bounds) : Bounds := ⟨-bounds.greatest, -bounds.least⟩

@[simp] theorem Bounds.least_mirrored (bounds : Bounds) :
    bounds.mirrored.least = -bounds.greatest := rfl

@[simp] theorem Bounds.greatest_mirrored (bounds : Bounds) :
    bounds.mirrored.greatest = -bounds.least := rfl

/-- Going down within the bounds is going up within the mirrored ones. -/
theorem extend_eq_ok_iff_mirrored (bounds : Bounds) (start : Int) :
    extend bounds true start cs = .ok n ↔
      extend bounds.mirrored false (-start) cs = .ok (-n) := by
  induction cs generalizing start with
  | nil => simp [extend]
  | cons c cs ih =>
    by_cases digit : isDigit c = true
    · have step : -start * 10 + digitValue c = -(start * 10 - digitValue c) := by omega
      rw [extend, extend, if_pos digit, if_pos digit]
      simp only [if_true, Bool.false_eq_true, if_false, step, Bounds.least_mirrored,
        Bounds.greatest_mirrored, Int.neg_lt_neg_iff]
      by_cases above : bounds.greatest < start * 10 - digitValue c
      · by_cases below : start * 10 - digitValue c < bounds.least
        · simp [above, below]
        · simp [above, below]
      · by_cases below : start * 10 - digitValue c < bounds.least
        · simp [above, below]
        · rw [if_neg above, if_neg below, if_neg below, if_neg above]
          exact ih _
    · rw [extend, extend, if_neg digit, if_neg digit]
      exact iff_of_false (fun h => by cases h) (fun h => by cases h)

/-- Going down from zero, characters are gone through exactly if they are digits for a number
whose negative is not below the bounds, and to this negative. -/
theorem extend_down_eq_ok_iff (low : bounds.least ≤ 0) (high : 0 ≤ bounds.greatest)
    (some : ds ≠ []) :
    extend bounds true 0 ds = .ok n ↔
      Digits ds ∧ n = -digitsValue ds ∧ bounds.least ≤ n := by
  have least : bounds.mirrored.least ≤ 0 := Int.neg_nonpos_of_nonneg high
  have greatest : 0 ≤ bounds.mirrored.greatest := Int.neg_nonneg_of_nonpos low
  rw [extend_eq_ok_iff_mirrored, Int.neg_zero, extend_zero_eq_ok_iff least greatest some,
    Bounds.greatest_mirrored]
  refine and_congr_right fun _ => ?_
  omega

/-- Behind a plus sign, characters are read exactly if they are digits whose number does not
exceed the bounds, and as this number. -/
theorem read_plus_eq_ok_iff (low : bounds.least ≤ 0) (high : 0 ≤ bounds.greatest) :
    read bounds ('+' :: ds) = .ok n ↔ Digits ds ∧ n = digitsValue ds ∧ n ≤ bounds.greatest := by
  cases ds with
  | nil =>
    refine iff_of_false (fun h => nomatch h) ?_
    rintro ⟨digits, -⟩
    exact digits.nonempty rfl
  | cons d ds => exact extend_zero_eq_ok_iff low high (List.cons_ne_nil d ds)

/-- Behind a minus sign, characters are read exactly if they are digits for a number whose
negative is not below the bounds, and as this negative. -/
theorem read_minus_eq_ok_iff (low : bounds.least < 0) (high : 0 ≤ bounds.greatest) :
    read bounds ('-' :: ds) = .ok n ↔ Digits ds ∧ n = -digitsValue ds ∧ bounds.least ≤ n := by
  cases ds with
  | nil =>
    refine iff_of_false (fun h => nomatch h) ?_
    rintro ⟨digits, -⟩
    exact digits.nonempty rfl
  | cons d ds =>
    have begins : read bounds ('-' :: d :: ds) = extend bounds true 0 (d :: ds) := if_pos low
    rw [begins, extend_down_eq_ok_iff (Int.le_of_lt low) high (List.cons_ne_nil d ds)]

/-- Characters are read exactly if they are a signed numeral for a number within the bounds,
and as this number. -/
theorem read_eq_ok_iff_signed (low : bounds.least < 0) (high : 0 ≤ bounds.greatest) :
    read bounds cs = .ok n ↔ Signed cs n ∧ bounds.least ≤ n ∧ n ≤ bounds.greatest := by
  have below : bounds.least ≤ 0 := Int.le_of_lt low
  by_cases plus : cs.head? = some '+'
  · obtain ⟨ds, rfl⟩ := List.head?_eq_some_iff.mp plus
    rw [read_plus_eq_ok_iff below high, signed_plus_iff, and_assoc]
    refine and_congr_right fun _ => ?_
    omega
  · by_cases minus : cs.head? = some '-'
    · obtain ⟨ds, rfl⟩ := List.head?_eq_some_iff.mp minus
      rw [read_minus_eq_ok_iff low high, signed_minus_iff, and_assoc]
      refine and_congr_right fun _ => ?_
      omega
    · rw [read_eq_ok_iff_of_head below high plus minus, signed_iff_of_head plus minus, and_assoc]
      refine and_congr_right fun _ => ?_
      omega

/-! ## Writing -/

/-- What is written of a number is a signed numeral for it. -/
theorem signed_write (n : Int) : Signed (write n) n := by
  by_cases negative : n < 0
  · have signed : Signed ('-' :: digits n.natAbs) (-digitsValue (digits n.natAbs)) :=
      .minus (digits_digits _)
    have value : -(n.natAbs : Int) = n := by omega
    rw [digitsValue_digits, value] at signed
    unfold write
    rw [if_pos negative]
    exact signed
  · obtain ⟨digits, value⟩ := digits_write (Int.not_lt.mp negative)
    have signed : Signed (write n) (digitsValue (write n)) := .plain digits
    rw [value] at signed
    exact signed

/-- There is nothing to trim from what is written of a number. -/
@[simp] theorem trimChars_write (n : Int) : trimChars (write n) = write n :=
  (signed_write n).trimChars

end CueRouter.Text.Numeral
