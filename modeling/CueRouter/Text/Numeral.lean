/-!
# Decimal numerals

Whole numbers are written in decimal with a minus sign where needed. A numeral
is read left to right against the bounds of the type it is meant for, and the
first character that goes wrong decides the fault: a character that is no
digit before a number that has grown too long. A leading plus is accepted; a
leading minus only where the bounds admit negative numbers.
-/

namespace CueRouter.Text.Numeral

/-- Why a text is not a numeral within its bounds. -/
inductive Fault where
  /-- There is no character at all. -/
  | empty
  /-- A sign stands alone, or a character is not a decimal digit. -/
  | invalidDigit
  /-- The number exceeds the upper bound. -/
  | tooLarge
  /-- The number falls below the lower bound. -/
  | tooSmall
  deriving DecidableEq

/-- The wording of a numeral fault. -/
def Fault.message : Fault → String
  | empty => "cannot parse integer from empty string"
  | invalidDigit => "invalid digit found in string"
  | tooLarge => "number too large to fit in target type"
  | tooSmall => "number too small to fit in target type"

/-- The closed interval a numeral must fall into. -/
structure Bounds where
  /-- The least number admitted. -/
  least : Int
  /-- The greatest number admitted. -/
  greatest : Int

/-- The numbers of 32 signed bits. -/
def signed32 : Bounds := ⟨-2147483648, 2147483647⟩

/-- The numbers of 64 signed bits. -/
def signed64 : Bounds := ⟨-9223372036854775808, 9223372036854775807⟩

/-- The numbers of 8 unsigned bits. -/
def unsigned8 : Bounds := ⟨0, 255⟩

/-- The numbers of 32 unsigned bits. -/
def unsigned32 : Bounds := ⟨0, 4294967295⟩

/-- The numbers of 64 unsigned bits. -/
def unsigned64 : Bounds := ⟨0, 18446744073709551615⟩

/-- Whether the number falls within the bounds. -/
def Bounds.admits (bounds : Bounds) (n : Int) : Bool :=
  bounds.least ≤ n && n ≤ bounds.greatest

/-- Whether the character is one of the ten decimal digits. -/
def isDigit (c : Char) : Bool := 48 ≤ c.toNat && c.toNat ≤ 57

/-- The number a decimal digit stands for. -/
def digitValue (c : Char) : Nat := c.toNat - 48

/-- The character of a number below ten. -/
def digitChar (d : Nat) : Char := Char.ofNat (48 + d)

/-- Extend `soFar` by the digits that follow, downward for a negative number,
stopping at the first character that goes wrong. -/
def extend (bounds : Bounds) (negative : Bool) :
    (soFar : Int) → List Char → Except Fault Int
  | soFar, [] => .ok soFar
  | soFar, c :: cs =>
    if isDigit c then
      let next := if negative then soFar * 10 - digitValue c
        else soFar * 10 + digitValue c
      if bounds.greatest < next then .error .tooLarge
      else if next < bounds.least then .error .tooSmall
      else extend bounds negative next cs
    else .error .invalidDigit

/-- The number that the characters denote within the bounds. -/
def read (bounds : Bounds) : List Char → Except Fault Int
  | [] => .error .empty
  | '+' :: [] => .error .invalidDigit
  | '+' :: cs => extend bounds false 0 cs
  | '-' :: [] => .error .invalidDigit
  | '-' :: cs =>
    if bounds.least < 0 then extend bounds true 0 cs else .error .invalidDigit
  | cs => extend bounds false 0 cs

/-- The natural number that a run of digits denotes. -/
def digitsValue (cs : List Char) : Nat :=
  cs.foldl (fun soFar c => soFar * 10 + digitValue c) 0

/-- The decimal digits of a natural number, most significant first. -/
def digits (n : Nat) : List Char :=
  if n < 10 then [digitChar n]
  else digits (n / 10) ++ [digitChar (n % 10)]
termination_by n
decreasing_by omega

/-- The decimal numeral of a whole number. -/
def write (n : Int) : List Char :=
  if n < 0 then '-' :: digits n.natAbs else digits n.natAbs

/-- The decimal numeral of a whole number, as a text. -/
def text (n : Int) : String := String.ofList (write n)

/-- Every number has at least one digit. -/
theorem digits_ne_nil (n : Nat) : digits n ≠ [] := by
  rw [digits]
  split <;> simp

theorem digitValue_digitChar {d : Nat} (h : d < 10) :
    digitValue (digitChar d) = d := by
  have : ∀ d : Fin 10, digitValue (digitChar d) = d := by decide
  exact this ⟨d, h⟩

theorem isDigit_digitChar {d : Nat} (h : d < 10) :
    isDigit (digitChar d) = true := by
  have : ∀ d : Fin 10, isDigit (digitChar d) = true := by decide
  exact this ⟨d, h⟩

/-- Reading the digits of a number gives the number back. -/
theorem digitsValue_digits (n : Nat) : digitsValue (digits n) = n := by
  fun_induction digits n with
  | case1 n h => simp [digitsValue, digitValue_digitChar h]
  | case2 n h ih =>
    unfold digitsValue at ih ⊢
    rw [List.foldl_append, ih]
    simp only [List.foldl_cons, List.foldl_nil]
    rw [digitValue_digitChar (Nat.mod_lt _ (by omega))]
    omega

end CueRouter.Text.Numeral
