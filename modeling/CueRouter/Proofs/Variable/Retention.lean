import CueRouter.Variable.Cell

/-!
# What a cell retains

A cell converts what is written to its kind, and it reads as the last value that converted.
The kind of any value is the exception: every value converts to it, so a cell of that kind
reports every write as stored, but it has no way to keep a value in its word and always reads
as invalid. No other kind tells that it stored a value and reads as another one.
-/

namespace CueRouter

/-- A reference that comes out of a conversion went into it. -/
theorem Value.convert_eq_self_of_reference {v : Value} {kind : Kind}
    (h : (v.convert kind).kind = .reference) : v.convert kind = v := by
  by_cases special : kind = .any
  · rw [special, convert_any]
  · rcases v.kind_convert special with same | refused
    · have asked : kind = .reference := same.symm.trans h
      subst asked
      by_cases already : v.kind = .reference
      · rw [← already, convert_kind]
      · have failed : v.convert .reference = invalid := if_neg already
        rw [failed] at h
        cases h
    · rw [refused] at h
      cases h

/-- What fits into a word still does after a conversion. -/
theorem Value.FitsWord.convert {v : Value} (fits : v.FitsWord) (kind : Kind) :
    (v.convert kind).FitsWord := by
  by_cases h : (v.convert kind).kind = .reference
  · rwa [convert_eq_self_of_reference h]
  · exact fitsWord_of_ne h

namespace Cell

/-- A cell was made with the first value, for the kind of the value or for another one. -/
inductive Made : (cell : Cell) → (initial : Value) → Prop
  /-- The cell has the kind of its first value. -/
  | ofValue (initial : Value) : Made (.ofValue initial) initial
  /-- The cell has a given kind, and its first value was converted to it. -/
  | ofKind (kind : Kind) (initial : Value) : Made (.ofKind kind initial) initial

/-- The cell after the values were written, one after another. -/
def writeAll (cell : Cell) (values : List Value) : Cell := values.foldl write cell

/-- What writing the values stored last, if any of them was stored. -/
def lastAccepted? (cell : Cell) (values : List Value) : Option Value :=
  ((values.map cell.accepts).filter Value.isValid).getLast?

/-- A cell of the kind of any value reads as invalid. -/
def Hollow (cell : Cell) : Prop := cell.kind = .any → cell.content = .invalid

variable {cell : Cell} {initial v : Value} {values : List Value}

/-! ## The kind of any value -/

/-- A cell that was just made is hollow if it has the kind of any value. -/
theorem Made.hollow (made : cell.Made initial) : cell.Hollow := by
  intro special
  cases made with
  | ofValue => exact absurd special (Value.kind_ne_any initial)
  | ofKind kind =>
    have same : kind = .any := special
    rw [same]
    rfl

/-- A write keeps a cell hollow. -/
theorem Hollow.write (hollow : cell.Hollow) (v : Value) : (cell.write v).Hollow := by
  intro special
  rw [kind_write] at special
  unfold Cell.write
  dsimp only
  split
  · rw [special]
    rfl
  · exact hollow special

/-- Writes keep a cell hollow. -/
theorem Hollow.writeAll (hollow : cell.Hollow) (values : List Value) :
    (cell.writeAll values).Hollow := by
  induction values generalizing cell with
  | nil => exact hollow
  | cons v values ih => exact ih (hollow.write v)

/-! ## All other kinds -/

/-- Writes never change the kind of a cell. -/
theorem kind_writeAll (cell : Cell) (values : List Value) :
    (cell.writeAll values).kind = cell.kind := by
  induction values generalizing cell with
  | nil => rfl
  | cons v values ih => exact (ih (cell.write v)).trans (cell.kind_write v)

/-- What a cell makes of a value depends on the kind of the cell only. -/
theorem accepts_congr {other : Cell} (same : other.kind = cell.kind) :
    other.accepts = cell.accepts := by
  funext v
  unfold accepts
  rw [same]

/-- After a write, a cell reads as what the value converts to, or as before. -/
theorem content_write (special : cell.kind ≠ .any) (fits : v.FitsWord) :
    (cell.write v).content =
      if (cell.accepts v).isValid then cell.accepts v else cell.content := by
  split
  · next valid =>
    exact content_write_of_accepted (Value.isValid_iff.mp valid) special (fits.convert _)
  · next refused =>
    rw [write_of_refused (Decidable.of_not_not fun valid => refused (Value.isValid_iff.mpr valid))]

/-- After any writes, a cell reads as what was stored last, or as before. -/
theorem content_writeAll (special : cell.kind ≠ .any) (fits : ∀ v ∈ values, v.FitsWord) :
    (cell.writeAll values).content = (cell.lastAccepted? values).getD cell.content := by
  induction values generalizing cell with
  | nil => rfl
  | cons v values ih =>
    obtain ⟨first, others⟩ := List.forall_mem_cons.mp fits
    have later := @ih (cell.write v) (by rwa [kind_write]) others
    unfold lastAccepted? at later ⊢
    rw [accepts_congr (cell.kind_write v), content_write special first] at later
    rw [List.map_cons, List.filter_cons]
    refine later.trans ?_
    split
    · rw [List.getLast?_cons, Option.getD_some]
    · rfl

/-- A cell that was just made reads as its first value converted to its kind. -/
theorem Made.content (made : cell.Made initial) (special : cell.kind ≠ .any)
    (fits : initial.FitsWord) (valid : cell.accepts initial ≠ .invalid) :
    cell.content = cell.accepts initial := by
  have kinds := (initial.kind_convert special).resolve_right valid
  cases made with
  | ofValue =>
    have same : (Cell.ofValue initial).accepts initial = initial := initial.convert_kind
    rw [same]
    exact Kind.keep_of_kind rfl fits
  | ofKind kind => exact Kind.keep_of_kind kinds (fits.convert kind)

/-! ## What a cell tells and what it reads as -/

/-- Whatever was written to a cell, it keeps its kind. A value that it reports as stored is
what it reads as next, and a first value that converts is what it reads as when it was just
made, exactly if the cell does not have the kind of any value. A value that it refuses changes
nothing. A cell of the kind of any value always reads as invalid, and every other cell as what
it stored last. -/
theorem content_eq_accepts_iff (made : cell.Made initial) (first : initial.FitsWord)
    (fits : ∀ v ∈ values, v.FitsWord) (last : v.FitsWord) :
    let now := cell.writeAll values
    now.kind = cell.kind ∧
    (now.accepts v ≠ .invalid →
      ((now.write v).content = now.accepts v ↔ cell.kind ≠ .any)) ∧
    (now.accepts v = .invalid → (now.write v).content = now.content) ∧
    (cell.accepts initial ≠ .invalid →
      (cell.content = cell.accepts initial ↔ cell.kind ≠ .any)) ∧
    (cell.kind = .any → now.content = .invalid) ∧
    (cell.kind ≠ .any → now.content = (cell.lastAccepted? values).getD cell.content) := by
  intro now
  have kinds : now.kind = cell.kind := cell.kind_writeAll values
  have hollow : now.Hollow := made.hollow.writeAll values
  refine ⟨kinds, fun valid => ⟨fun reads special => ?_, fun special => ?_⟩,
    fun refused => ?_, fun valid => ⟨fun reads special => ?_, fun special => ?_⟩,
    fun special => hollow (kinds.trans special), fun special => content_writeAll special fits⟩
  · have nothing := (hollow.write v) ((now.kind_write v).trans (kinds.trans special))
    exact valid (reads.symm.trans nothing)
  · rw [content_write (by rwa [kinds]) last, if_pos (Value.isValid_iff.mpr valid)]
  · rw [write_of_refused refused]
  · exact valid (reads.symm.trans (made.hollow special))
  · exact made.content special first valid

/-- A byte keeps what is left of a range below zero, after a float and two values that it
refuses. A cell of the kind of any value tells that it stored the range and reads as
invalid. -/
theorem content_eq_accepts_iff_rangeBelowZero :
    ((ofKind .byte (.int 300)).writeAll
      [.float ⟨0x411b3333⟩, .invalid, .reference ⟨3⟩]).content = .byte 9 ∧
    ((ofKind .byte (.int 300)).writeAll
      [.float ⟨0x411b3333⟩, .invalid, .reference ⟨3⟩, .range ⟨-1, 5⟩]).content = .byte 255 ∧
    (ofKind .any (.int 1)).accepts (.range ⟨-1, 5⟩) = .range ⟨-1, 5⟩ ∧
    ((ofKind .any (.int 1)).write (.range ⟨-1, 5⟩)).content ≠ .range ⟨-1, 5⟩ := by
  have fits : ∀ v ∈ [Value.float ⟨0x411b3333⟩, .invalid, .reference ⟨3⟩], v.FitsWord := by
    simp [Value.FitsWord, UInt64.size]
  obtain ⟨-, stored, -, -, -, before⟩ :=
    content_eq_accepts_iff (v := .range ⟨-1, 5⟩) (.ofKind .byte (.int 300)) trivial fits trivial
  obtain ⟨-, told, -⟩ :=
    content_eq_accepts_iff (v := .range ⟨-1, 5⟩) (.ofKind .any (.int 1)) trivial
      (fun _ none => absurd none List.not_mem_nil) trivial
  refine ⟨(before nofun).trans (by decide), (((stored (by decide)).mpr nofun).trans (by decide)),
    by decide, fun reads => ?_⟩
  exact (told (by decide)).mp reads rfl

/-- Not every cell reads as what it tells that it stored. -/
theorem not_content_eq_accepts :
    ¬∀ (kind : Kind) (initial v : Value), (ofKind kind initial).accepts v ≠ .invalid →
      ((ofKind kind initial).write v).content = (ofKind kind initial).accepts v := by
  intro reads
  have stored := reads .any (.int 1) (.int 5) (by decide)
  revert stored
  decide

end Cell

end CueRouter
