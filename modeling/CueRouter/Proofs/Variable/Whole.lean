import CueRouter.Proofs.Variable.Outline
import Mathlib.Algebra.Ring.Int.Defs
import Mathlib.Algebra.Ring.Nat

/-!
# Whole numbers in variables

A variable of an integer kind holds a whole number of limited width. Whatever reads as a
whole number can be written to it, and it holds that number from then on, wrapped to the
width of the kind. A number that fits the kind is kept as it is.
-/

namespace CueRouter

/-- The integer that a value reads as, if it is numeric. -/
def Value.whole? (v : Value) : Option Int := v.toWhole?.map Int64.toInt

namespace Kind

/-- Whether the kind holds whole numbers only, one at a time. -/
def isInteger : Kind → Bool
  | byte | int | long => true
  | float | range | any | reference | invalid => false

/-- What the kind keeps of an integer. -/
def wrapped : Kind → Int → Int
  | byte, n => n % 256
  | int, n => n.bmod (2 ^ 32)
  | _, n => n

/-- The integer is one that the kind keeps as it is, among those of 64 bits. -/
def Fits : Kind → Int → Prop
  | byte, n => 0 ≤ n ∧ n ≤ 255
  | int, n => -2 ^ 31 ≤ n ∧ n < 2 ^ 31
  | _, _ => True

/-- Wrapping keeps what fits. -/
theorem wrapped_of_fits {kind : Kind} {n : Int} (h : kind.Fits n) : kind.wrapped n = n := by
  cases kind with
  | byte => exact Int.emod_eq_of_lt h.1 (by have := h.2; omega)
  | int => exact Int.bmod_eq_of_le (by have := h.1; omega) (by have := h.2; omega)
  | _ => rfl

end Kind

namespace Value

variable {v : Value} {kind : Kind} {n : Int}

/-- A byte reads as its number. -/
theorem whole?_byte (b : UInt8) : (Value.byte b).whole? = some (b.toNat : Int) := by
  have small : b.toNat < 2 ^ 63 := Nat.lt_trans b.toNat_lt (by decide)
  unfold whole? toWhole?
  rw [Option.map_some, Int64.toInt_ofNat_of_lt small]

/-- An int reads as its number. -/
theorem whole?_int (i : Int32) : (Value.int i).whole? = some i.toInt := by
  unfold whole? toWhole?
  rw [Option.map_some, Int32.toInt_toInt64]

/-- A long number reads as itself. -/
theorem whole?_long (n : Int64) : (Value.long n).whole? = some n.toInt := rfl

/-- A value of an integer kind that reads as a number holds what the kind keeps of it. -/
theorem wrapped_of_whole? (integer : v.kind.isInteger = true) (h : v.whole? = some n) :
    v.kind.wrapped n = n := by
  cases v with
  | byte b =>
    rw [whole?_byte] at h
    cases h
    exact Kind.wrapped_of_fits ⟨by omega, by have := b.toNat_lt; omega⟩
  | int i =>
    rw [whole?_int] at h
    cases h
    exact Kind.wrapped_of_fits ⟨i.le_toInt, i.toInt_lt⟩
  | long => rfl
  | float | range | reference | invalid => cases integer

/-- A value that reads as a number converts to every integer kind, which keeps what it
can of the number. -/
theorem whole?_convert (integer : kind.isInteger = true) (h : v.whole? = some n) :
    (v.convert kind).whole? = some (kind.wrapped n) ∧ (v.convert kind).kind = kind := by
  by_cases same : v.kind = kind
  · subst same
    rw [convert_kind, wrapped_of_whole? integer h]
    exact ⟨h, rfl⟩
  · obtain ⟨m, hm, rfl⟩ := Option.map_eq_some_iff.mp h
    unfold convert
    rw [if_neg same]
    cases kind with
    | byte =>
      unfold viaWhole
      rw [hm]
      refine ⟨?_, rfl⟩
      have low := Int.emod_nonneg m.toInt (by decide : (256 : Int) ≠ 0)
      have high := Int.emod_lt_of_pos m.toInt (by decide : (0 : Int) < 256)
      rw [whole?_byte]
      simp only [UInt8.ofInt, Kind.wrapped, UInt8.toNat_ofNat', Option.some.injEq]
      omega
    | int =>
      unfold viaWhole
      rw [hm]
      refine ⟨?_, rfl⟩
      rw [whole?_int, Int64.toInt_toInt32]
      rfl
    | long =>
      unfold viaWhole
      rw [hm]
      exact ⟨rfl, rfl⟩
    | float | range | any | reference | invalid => cases integer

end Value

namespace Store

/-- The variable owns its cell, which is of the kind. -/
def Owns (store : Store) (handle : Handle) (kind : Kind) : Prop :=
  ∃ name cell, store.get? handle = some ⟨name, .owned cell⟩ ∧ cell.kind = kind

/-- The variable owns its cell, which is of the kind and holds the integer. -/
def Holds (store : Store) (handle : Handle) (kind : Kind) (n : Int) : Prop :=
  ∃ name cell, store.get? handle = some ⟨name, .owned cell⟩ ∧ cell.kind = kind ∧
    cell.content.kind = kind ∧ cell.content.whole? = some n

variable {store other : Store} {handle : Handle} {kind : Kind} {n m : Int}

/-- A variable that holds an integer owns its cell. -/
theorem Holds.owns (h : store.Holds handle kind n) : store.Owns handle kind := by
  obtain ⟨name, cell, hget, hkind, -⟩ := h
  exact ⟨name, cell, hget, hkind⟩

/-- What a variable owns depends on that variable only. -/
theorem Owns.congr (h : store.Owns handle kind)
    (same : other.get? handle = store.get? handle) : other.Owns handle kind := by
  unfold Owns at h ⊢
  rwa [same]

/-- What a variable holds depends on that variable only. -/
theorem Holds.congr (h : store.Holds handle kind n)
    (same : other.get? handle = store.get? handle) : other.Holds handle kind n := by
  unfold Holds at h ⊢
  rwa [same]

/-- A variable reads as the integer that it holds. -/
theorem Holds.whole?_value (h : store.Holds handle kind n) :
    (store.value handle).whole? = some n := by
  obtain ⟨name, cell, hget, -, -, hwhole⟩ := h
  rw [value_of_owned hget]
  exact hwhole

/-- The value of a variable is of its kind. -/
theorem Holds.kind_value (h : store.Holds handle kind n) :
    (store.value handle).kind = kind := by
  obtain ⟨name, cell, hget, -, hkind, -⟩ := h
  rw [value_of_owned hget]
  exact hkind

/-- A variable of an integer kind accepts every value that reads as an integer, and holds
what the kind keeps of it from then on. Nothing else changes. -/
theorem Owns.set (h : store.Owns handle kind) (integer : kind.isInteger = true)
    {v : Value} (hv : v.whole? = some m) :
    ∃ written, store.set handle v = .ok written ∧
      written.store.Holds handle kind (kind.wrapped m) ∧
      (∀ other, other ≠ handle → written.store.get? other = store.get? other) ∧
      written.store.shared = store.shared := by
  obtain ⟨name, cell, hget, rfl⟩ := h
  obtain ⟨hwhole, hkind⟩ := Value.whole?_convert integer hv
  have declarable : cell.kind.isDeclarable = true := by
    cases hk : cell.kind <;> first | rfl | (rw [hk] at integer; cases integer)
  have accepted : cell.accepts v ≠ .invalid := by
    intro refused
    unfold Cell.accepts at refused
    rw [refused] at hwhole
    cases hwhole
  have held : (cell.write v).content = v.convert cell.kind :=
    content_write_of_isDeclarable declarable (Value.isValid_iff.mpr accepted)
  refine ⟨_, set_eq_ok.mpr ⟨name, cell, hget, Value.isValid_iff.mpr accepted, rfl⟩,
    ⟨name, cell.write v, get?_withStorage_self hget _, cell.kind_write v, ?_, ?_⟩,
    fun other apart => get?_withStorage_of_ne store apart _, rfl⟩
  · rw [held]
    exact hkind
  · rw [held]
    exact hwhole

/-- A variable that holds an integer is written like every variable that owns its cell. -/
theorem Holds.set (h : store.Holds handle kind n) (integer : kind.isInteger = true)
    {v : Value} (hv : v.whole? = some m) :
    ∃ written, store.set handle v = .ok written ∧
      written.store.Holds handle kind (kind.wrapped m) ∧
      (∀ other, other ≠ handle → written.store.get? other = store.get? other) ∧
      written.store.shared = store.shared :=
  h.owns.set integer hv

end Store

end CueRouter
