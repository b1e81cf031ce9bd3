import CueRouter.Text.Numeral

/-!
# Hexadecimal digits

Bit patterns are written with a fixed number of hexadecimal digits, the letters
in lower case. Reading takes letters of either case.
-/

namespace CueRouter.Text.Hexadecimal

/-- The number that a hexadecimal digit stands for. -/
def digitValue? (c : Char) : Option Nat :=
  if Numeral.isDigit c then some (Numeral.digitValue c)
  else if 97 ≤ c.toNat && c.toNat ≤ 102 then some (c.toNat - 87)
  else if 65 ≤ c.toNat && c.toNat ≤ 70 then some (c.toNat - 55)
  else none

/-- The digit of a number below sixteen. -/
def digitChar (d : Nat) : Char :=
  if d < 10 then Numeral.digitChar d else Char.ofNat (87 + d)

/-- The last `width` digits of a number, most significant first. -/
def write : (width : Nat) → Nat → List Char
  | 0, _ => []
  | width + 1, n => write width (n / 16) ++ [digitChar (n % 16)]

/-- Extend a number by one digit. -/
def extend? (soFar : Nat) (c : Char) : Option Nat :=
  (digitValue? c).map fun d => 16 * soFar + d

/-- The number that the digits denote, zero for none. -/
def read? (cs : List Char) : Option Nat := cs.foldlM extend? 0

theorem digitValue?_digitChar {d : Nat} (h : d < 16) :
    digitValue? (digitChar d) = some d := by
  have : ∀ d : Fin 16, digitValue? (digitChar d) = some d.val := by decide
  exact this ⟨d, h⟩

/-- The digits of a number that fits are read back. -/
theorem read?_write {width n : Nat} (h : n < Nat.pow 16 width) :
    read? (write width n) = some n := by
  induction width generalizing n with
  | zero =>
    have h : n < 1 := h
    obtain rfl : n = 0 := by omega
    rfl
  | succ width ih =>
    have inner := ih (n := n / 16) (by
      have h : n < Nat.pow 16 width * 16 := h
      omega)
    unfold read? at inner ⊢
    rw [write, List.foldlM_append, inner]
    have last := digitValue?_digitChar (Nat.mod_lt n (by decide : 0 < 16))
    simp only [Option.bind_eq_bind, Option.bind_some, List.foldlM_cons, extend?, last,
      Option.map_some, List.foldlM_nil, Option.pure_def, Option.some.injEq]
    omega

end CueRouter.Text.Hexadecimal
