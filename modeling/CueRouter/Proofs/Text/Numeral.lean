import CueRouter.Proofs.Text.Trim
import CueRouter.Text.Numeral

/-!
# Reading runs of digits

A run of digits without a sign is read exactly if its number does not exceed the upper
bound, and this number is what it is read as. The running total only grows, so a total
that is too large on the way is too large in the end. The numeral of a number that is not
negative is such a run, and reading it gives the number back.
-/

namespace CueRouter.Text.Numeral

/-- One digit or more and nothing else. -/
structure Digits (cs : List Char) : Prop where
  /-- There is a digit. -/
  nonempty : cs ≠ []
  /-- There is nothing but digits. -/
  all : ∀ c ∈ cs, isDigit c = true

/-- No character is a sign. -/
def Unsigned (cs : List Char) : Prop := ∀ c ∈ cs, c ≠ '+' ∧ c ≠ '-'

/-- The number that a run of digits denotes behind a number. -/
def valueFrom (start : Nat) (cs : List Char) : Nat :=
  cs.foldl (fun soFar c => soFar * 10 + digitValue c) start

/-! ## Single digits -/

/-- A digit is not blank. -/
theorem isBlank_of_isDigit {c : Char} (h : isDigit c = true) : isBlank c = false := by
  have bounds : 48 ≤ c.toNat ∧ c.toNat ≤ 57 := by simpa [isDigit] using h
  simp only [isBlank, blankRanges, List.any_cons, List.any_nil, Bool.or_eq_false_iff,
    Bool.and_eq_false_iff, decide_eq_false_iff_not, and_true]
  omega

/-- A digit is no character with a code outside those of the digits. -/
theorem ne_of_isDigit {c d : Char} (h : isDigit c = true) (hd : isDigit d = false) : c ≠ d := by
  rintro rfl
  rw [h] at hd
  cases hd

/-- Digits are not blank at either end. -/
theorem Digits.trimChars {cs : List Char} (h : Digits cs) : trimChars cs = cs :=
  trimChars_of_not_blank fun c member => isBlank_of_isDigit (h.all c member)

/-- Where there is no sign, none stands in front. -/
theorem Unsigned.head?_ne {cs : List Char} (h : Unsigned cs) :
    cs.head? ≠ some '+' ∧ cs.head? ≠ some '-' :=
  ⟨fun sign => (h _ (List.mem_of_mem_head? sign)).1 rfl,
    fun sign => (h _ (List.mem_of_mem_head? sign)).2 rfl⟩

/-- There is no sign among digits. -/
theorem Digits.unsigned {cs : List Char} (h : Digits cs) : Unsigned cs := fun c member =>
  ⟨ne_of_isDigit (h.all c member) rfl, ne_of_isDigit (h.all c member) rfl⟩

/-! ## Reading -/

/-- The running total only grows. -/
theorem le_valueFrom (start : Nat) (cs : List Char) : start ≤ valueFrom start cs := by
  induction cs generalizing start with
  | nil => exact Nat.le_refl start
  | cons c cs ih =>
    have step : start ≤ start * 10 + digitValue c := by omega
    exact Nat.le_trans step (ih _)

/-- Extending a total that is within the bounds goes through exactly for digits whose
number is not above them. -/
theorem extend_eq_ok_iff {bounds : Bounds} (low : bounds.least ≤ 0) {start : Nat}
    (within : (start : Int) ≤ bounds.greatest) {cs : List Char} {n : Int} :
    extend bounds false start cs = .ok n ↔
      (∀ c ∈ cs, isDigit c = true) ∧ n = valueFrom start cs ∧ n ≤ bounds.greatest := by
  induction cs generalizing start with
  | nil =>
    have read : extend bounds false start [] = .ok (start : Int) := rfl
    rw [read, Except.ok.injEq]
    constructor
    · rintro rfl
      exact ⟨fun c member => (List.not_mem_nil member).elim, rfl, within⟩
    · rintro ⟨-, same, -⟩
      exact same.symm
  | cons c cs ih =>
    rw [List.forall_mem_cons]
    by_cases digit : isDigit c = true
    · let next : Nat := start * 10 + digitValue c
      have grown : next ≤ valueFrom start (c :: cs) := le_valueFrom next cs
      have cast : (start : Int) * 10 + digitValue c = next := by
        show _ = ((start * 10 + digitValue c : Nat) : Int)
        omega
      have step : extend bounds false start (c :: cs) =
          if bounds.greatest < next then .error .tooLarge
          else if (next : Int) < bounds.least then .error .tooSmall
          else extend bounds false next cs := by
        rw [extend, if_pos digit]
        simp only [Bool.false_eq_true, if_false, cast]
      rw [step]
      by_cases above : bounds.greatest < next
      · rw [if_pos above]
        refine iff_of_false (fun h => by cases h) ?_
        rintro ⟨-, same, most⟩
        omega
      · have notBelow : ¬(next : Int) < bounds.least := by omega
        rw [if_neg above, if_neg notBelow, ih (Int.not_lt.mp above)]
        exact and_congr_left fun _ => (and_iff_right digit).symm
    · have step : extend bounds false start (c :: cs) = .error .invalidDigit := by
        rw [extend, if_neg digit]
      rw [step]
      refine iff_of_false (fun h => by cases h) ?_
      rintro ⟨⟨first, -⟩, -⟩
      exact digit first

/-- From zero, characters are gone through exactly if they are digits whose number does not
exceed the bounds, and to this number. -/
theorem extend_zero_eq_ok_iff {bounds : Bounds} (low : bounds.least ≤ 0)
    (high : 0 ≤ bounds.greatest) {cs : List Char} (some : cs ≠ []) {n : Int} :
    extend bounds false 0 cs = .ok n ↔
      Digits cs ∧ n = digitsValue cs ∧ n ≤ bounds.greatest := by
  have begins : extend bounds false 0 cs = .ok n ↔ _ := extend_eq_ok_iff low high
  rw [begins]
  exact ⟨fun ⟨all, value⟩ => ⟨⟨some, all⟩, value⟩,
    fun ⟨digits, value⟩ => ⟨digits.all, value⟩⟩

/-- Characters without a sign in front are read exactly if they are digits whose number does
not exceed the bounds, and as this number. -/
theorem read_eq_ok_iff_of_head {bounds : Bounds} (low : bounds.least ≤ 0)
    (high : 0 ≤ bounds.greatest) {cs : List Char} (noPlus : cs.head? ≠ some '+')
    (noMinus : cs.head? ≠ some '-') {n : Int} :
    read bounds cs = .ok n ↔ Digits cs ∧ n = digitsValue cs ∧ n ≤ bounds.greatest := by
  cases cs with
  | nil =>
    refine iff_of_false (fun h => by cases h) ?_
    rintro ⟨digits, -⟩
    exact digits.nonempty rfl
  | cons c cs =>
    have begins : read bounds (c :: cs) = extend bounds false 0 (c :: cs) := by
      unfold read
      split <;> simp_all
    rw [begins, extend_zero_eq_ok_iff low high (List.cons_ne_nil c cs)]

/-- Characters without a sign are read exactly if they are digits whose number does not
exceed the bounds, and as this number. -/
theorem read_eq_ok_iff {bounds : Bounds} (low : bounds.least ≤ 0) (high : 0 ≤ bounds.greatest)
    {cs : List Char} (unsigned : Unsigned cs) {n : Int} :
    read bounds cs = .ok n ↔ Digits cs ∧ n = digitsValue cs ∧ n ≤ bounds.greatest :=
  read_eq_ok_iff_of_head low high unsigned.head?_ne.1 unsigned.head?_ne.2

/-! ## Writing -/

/-- The numeral of a natural number is a run of digits. -/
theorem digits_digits (n : Nat) : Digits (digits n) := by
  refine ⟨digits_ne_nil n, ?_⟩
  fun_induction digits n with
  | case1 n small =>
    intro c member
    rw [List.mem_singleton.mp member]
    exact isDigit_digitChar small
  | case2 n large ih =>
    intro c member
    rcases List.mem_append.mp member with front | last
    · exact ih c front
    · rw [List.mem_singleton.mp last]
      exact isDigit_digitChar (Nat.mod_lt n (by decide))

/-- The numeral of a number that is not negative is a run of digits for this number. -/
theorem digits_write {n : Int} (h : 0 ≤ n) :
    Digits (write n) ∧ (digitsValue (write n) : Int) = n := by
  have plain : write n = digits n.natAbs := by
    unfold write
    exact if_neg (Int.not_lt.mpr h)
  rw [plain, digitsValue_digits]
  exact ⟨digits_digits _, Int.natAbs_of_nonneg h⟩

end CueRouter.Text.Numeral
