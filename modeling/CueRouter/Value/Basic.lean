import CueRouter.Binary.Double
import CueRouter.Value.Kind
import CueRouter.Value.Span

/-!
# Typed values

Variables hold a value, event fields hold a value, and expressions produce one.
A value reads as a whole number of 64 bits or as a double precision number when
it is numeric: a float loses its fraction in the first reading, and a span
stands for its first end in both. References and invalid values have neither.
-/

namespace CueRouter

/-- Identifies a declared variable by its position in the store. -/
structure Handle where
  /-- The position, counted from zero. -/
  index : Nat
  deriving DecidableEq, Inhabited

/-- A typed value. -/
inductive Value where
  /-- An unsigned number of 8 bits. -/
  | byte (n : UInt8)
  /-- A signed number of 32 bits. -/
  | int (n : Int32)
  /-- A signed number of 64 bits. -/
  | long (n : Int64)
  /-- A floating-point number of 32 bits. -/
  | float (x : Single)
  /-- An inclusive span of integers. -/
  | range (span : Span)
  /-- A live reference to a variable of the store. -/
  | reference (handle : Handle)
  /-- The result of a failed evaluation. -/
  | invalid
  deriving DecidableEq, Inhabited

namespace Value

/-- The kind of a value. -/
def kind : Value → Kind
  | byte _ => .byte
  | int _ => .int
  | long _ => .long
  | float _ => .float
  | range _ => .range
  | reference _ => .reference
  | invalid => .invalid

/-- Whether the value is the result of a successful evaluation. -/
def isValid (v : Value) : Bool := v.kind != .invalid

/-- Whether the value is a plain number, not a span or a reference. -/
def isScalar : Value → Bool
  | byte _ | int _ | long _ | float _ => true
  | range _ | reference _ | invalid => false

/-- The value as a whole number, if it is numeric. -/
def toWhole? : Value → Option Int64
  | byte n => some (.ofNat n.toNat)
  | int n => some n.toInt64
  | long n => some n
  | float x => some x.truncate
  | range span => some span.lo.toInt64
  | reference _ | invalid => none

/-- The value as a double precision number, if it is numeric. -/
def toReal? : Value → Option Double
  | float x => some x.widen
  | v => v.toWhole?.map fun n => .ofInt n.toInt

/-- The variable the value refers to, if it is a reference. -/
def toHandle? : Value → Option Handle
  | reference handle => some handle
  | _ => none

/-- The value as a whole number, with zero for what is not numeric. -/
def toWhole (v : Value) : Int64 := v.toWhole?.getD 0

/-- The invalid value is the only one of its kind. -/
theorem kind_eq_invalid_iff {v : Value} : v.kind = .invalid ↔ v = invalid := by
  cases v <;> simp [kind]

theorem isValid_iff {v : Value} : v.isValid = true ↔ v ≠ invalid := by
  simp [isValid, kind_eq_invalid_iff]

/-- No value has the kind that stands for every kind. -/
theorem kind_ne_any (v : Value) : v.kind ≠ .any := by
  cases v <;> simp [kind]

/-- Exactly the numeric values read as whole numbers. -/
theorem toWhole?_eq_none_iff {v : Value} :
    v.toWhole? = none ↔ v.kind = .reference ∨ v.kind = .invalid := by
  cases v <;> simp [toWhole?, kind]

end Value

/-- The value that a variable or an event field of the kind starts with. -/
def Kind.zero : Kind → Value
  | byte => .byte 0
  | int | any => .int 0
  | long => .long 0
  | float => .float .zero
  | range => .range (.single 0)
  | reference | invalid => .invalid

end CueRouter
