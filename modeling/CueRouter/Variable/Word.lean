import CueRouter.Value.Basic

/-!
# Values in one word

A cell keeps its value in one word of 64 bits, and its kind tells how to read the word.
Signed numbers of 32 bits and floats are kept as their bit patterns, without extending
the sign; a span keeps its first end in the upper half of the word and its second end in
the lower one; a reference keeps the position of its variable. Kinds that no value is kept
under read as invalid.
-/

namespace CueRouter

/-! ## Spans -/

namespace Span

/-- Both ends in one word, the first in the upper half. -/
def toWord (span : Span) : UInt64 :=
  span.lo.toUInt32.toUInt64 <<< 32 ||| span.hi.toUInt32.toUInt64

/-- The span whose ends are the halves of a word. -/
def ofWord (word : UInt64) : Span :=
  ⟨(word >>> 32).toUInt32.toInt32, word.toUInt32.toInt32⟩

/-- The upper half of a word made of two halves. -/
theorem upperHalf_eq (upper lower : UInt32) :
    ((upper.toUInt64 <<< 32 ||| lower.toUInt64) >>> 32).toUInt32 = upper := by
  apply UInt32.toBitVec_inj.mp
  ext i inside
  have shifted : 32 + i < 64 := by omega
  have above : ¬32 + i < 32 := by omega
  have within : i < 64 := by omega
  simp [shifted, above, within, BitVec.getLsbD_eq_getElem inside]

/-- The lower half of a word made of two halves. -/
theorem lowerHalf_eq (upper lower : UInt32) :
    (upper.toUInt64 <<< 32 ||| lower.toUInt64).toUInt32 = lower := by
  apply UInt32.toBitVec_inj.mp
  ext i inside
  simp

/-- Neither end of a span is lost in a word, whatever its sign. -/
theorem ofWord_toWord (span : Span) : ofWord span.toWord = span := by
  unfold ofWord toWord
  rw [upperHalf_eq, lowerHalf_eq, Int32.toInt32_toUInt32, Int32.toInt32_toUInt32]

end Span

/-! ## Values by kind -/

namespace Kind

/-- The word in which a cell of the kind keeps a value, zero for values of other
kinds. -/
def toWord : Kind → Value → UInt64
  | byte, .byte n => n.toUInt64
  | int, .int n => n.toUInt32.toUInt64
  | long, .long n => n.toUInt64
  | float, .float x => x.bits.toUInt64
  | range, .range span => span.toWord
  | reference, .reference handle => .ofNat handle.index
  | _, _ => 0

/-- The value that a cell of the kind reads in a word. -/
def ofWord (word : UInt64) : Kind → Value
  | byte => .byte word.toUInt8
  | int => .int word.toUInt32.toInt32
  | long => .long word.toInt64
  | float => .float ⟨word.toUInt32⟩
  | range => .range (.ofWord word)
  | reference => .reference ⟨word.toNat⟩
  | any | invalid => .invalid

end Kind

/-- A reference fits into a word if the position of its variable does; every other value
fits. -/
def Value.FitsWord : Value → Prop
  | .reference handle => handle.index < UInt64.size
  | _ => True

/-- Only references may be too large for a word. -/
theorem Value.fitsWord_of_ne {v : Value} (h : v.kind ≠ .reference) : v.FitsWord := by
  cases v with
  | reference handle => exact absurd rfl h
  | byte | int | long | float | range | invalid => trivial

/-- A value is read back from its word bit for bit. -/
theorem Value.ofWord_toWord {v : Value} (fits : v.FitsWord) :
    v.kind.ofWord (v.kind.toWord v) = v := by
  cases v with
  | byte n => exact congrArg byte (UInt8.toUInt8_toUInt64 n)
  | int n =>
    have low : n.toUInt32.toUInt64.toUInt32.toInt32 = n := by simp
    exact congrArg int low
  | long n => exact congrArg long (Int64.toInt64_toUInt64 n)
  | float x =>
    have low : x.bits.toUInt64.toUInt32 = x.bits := UInt32.toUInt32_toUInt64 _
    exact congrArg (fun bits => float ⟨bits⟩) low
  | range span => exact congrArg range span.ofWord_toWord
  | reference handle =>
    have position : (UInt64.ofNat handle.index).toNat = handle.index :=
      UInt64.toNat_ofNat_of_lt fits
    exact congrArg (fun index => reference ⟨index⟩) position
  | invalid => rfl

end CueRouter
