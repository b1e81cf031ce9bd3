import CueRouter.Value.Convert
import CueRouter.Variable.Word

/-!
# Cells

A cell holds one value of a kind that never changes, in one word. Whatever is
written is converted to that kind first, and a value that does not convert leaves
the cell as it was. A cell of the kind of any value, or of the invalid kind, has
nothing to hold and always reads as invalid.
-/

namespace CueRouter

/-- What a cell of the kind keeps of a value: what the word reads as that the value was
put into. -/
def Kind.keep (kind : Kind) (v : Value) : Value := kind.ofWord (kind.toWord v)

/-- A cell of a kind that can be declared holds a value of that kind, whatever was put
into it. -/
theorem Kind.kind_keep {kind : Kind} (h : kind.isDeclarable = true) (v : Value) :
    (kind.keep v).kind = kind := by
  cases kind <;> first | rfl | cases h

/-- A cell keeps a value of its kind that fits into a word. -/
theorem Kind.keep_of_kind {kind : Kind} {v : Value} (same : v.kind = kind)
    (fits : v.FitsWord) : kind.keep v = v := by
  rw [← same]
  exact Value.ofWord_toWord fits

/-- What a value converts to fits into a word if the kind can be declared. -/
theorem Kind.fitsWord_convert {kind : Kind} (h : kind.isDeclarable = true) (v : Value) :
    (v.convert kind).FitsWord := by
  have special : kind ≠ .any := by
    rintro rfl
    cases h
  refine Value.fitsWord_of_ne fun reference => ?_
  rcases v.kind_convert special with same | refused
  · rw [← same, reference] at h
    cases h
  · rw [refused] at reference
    cases reference

/-- A cell of a kind that can be declared starts with the zero of the kind where its first
value does not convert. -/
theorem Kind.keep_invalid {kind : Kind} (h : kind.isDeclarable = true) :
    kind.keep .invalid = kind.zero := by
  cases kind <;> first | rfl | cases h

/-- A slot for values of one kind. -/
structure Cell where
  /-- The kind of every value the cell holds. -/
  kind : Kind
  /-- The value it holds now. -/
  content : Value
  deriving DecidableEq

namespace Cell

/-- A cell of the kind of its first value. -/
def ofValue (initial : Value) : Cell := ⟨initial.kind, initial.kind.keep initial⟩

/-- A cell of the given kind, its first value converted to it. -/
def ofKind (kind : Kind) (initial : Value) : Cell :=
  ⟨kind, kind.keep (initial.convert kind)⟩

/-- What writing the value stores, invalid where the cell refuses it. -/
def accepts (cell : Cell) (v : Value) : Value := v.convert cell.kind

/-- The cell after the value was written. -/
def write (cell : Cell) (v : Value) : Cell :=
  let stored := cell.accepts v
  if stored.isValid then { cell with content := cell.kind.keep stored } else cell

/-- Writing never changes the kind of a cell. -/
@[simp] theorem kind_write (cell : Cell) (v : Value) :
    (cell.write v).kind = cell.kind := by
  unfold write
  simp only
  split <;> rfl

/-- A refused value leaves the cell as it was. -/
theorem write_of_refused {cell : Cell} {v : Value} (h : cell.accepts v = .invalid) :
    cell.write v = cell := by
  simp [write, h, Value.isValid, Value.kind]

/-- An accepted value that fits into a word is what the cell holds from then on, unless
the cell has the kind of any value. -/
theorem content_write_of_accepted {cell : Cell} {v : Value}
    (valid : cell.accepts v ≠ .invalid) (special : cell.kind ≠ .any)
    (fits : (cell.accepts v).FitsWord) :
    (cell.write v).content = cell.accepts v := by
  have same : (cell.accepts v).kind = cell.kind :=
    (v.kind_convert special).resolve_right valid
  unfold write
  dsimp only
  rw [if_pos (Value.isValid_iff.mpr valid)]
  exact Kind.keep_of_kind same fits

end Cell

end CueRouter
