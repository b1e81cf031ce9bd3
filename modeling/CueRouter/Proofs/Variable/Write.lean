import CueRouter.Variable.Store

/-!
# What a write changes

A write goes through only to a variable that owns its cell, with a value that
the cell accepts. It puts that value into the cell of the one variable and
leaves every other variable and every shared cell as it was.
-/

namespace CueRouter.Store

/-- A write goes through exactly to a variable with a cell of its own that accepts
the value, and puts the value there. -/
theorem set_eq_ok {store : Store} {handle : Handle} {value : Value} {written : Written} :
    store.set handle value = .ok written ↔
      ∃ name cell, store.get? handle = some ⟨name, .owned cell⟩ ∧
        (cell.accepts value).isValid = true ∧
        written =
          ⟨cell.accepts value, store.withStorage handle (.owned (cell.write value))⟩ := by
  unfold set
  cases hget : store.get? handle with
  | none => simp
  | some found =>
    obtain ⟨name, storage⟩ := found
    cases storage with
    | linked shared => simp
    | owned cell =>
      dsimp only
      by_cases hvalid : (cell.accepts value).isValid = true
      · rw [if_pos hvalid]
        constructor
        · rintro ⟨⟩
          exact ⟨name, cell, rfl, hvalid, rfl⟩
        · rintro ⟨other, same, hsame, -, rfl⟩
          cases hsame
          rfl
      · rw [if_neg hvalid]
        constructor
        · intro h
          cases h
        · rintro ⟨other, same, hsame, hother, -⟩
          cases hsame
          exact absurd hother hvalid

/-- The variable at a handle after its storage was replaced. -/
theorem get?_withStorage_self {store : Store} {handle : Handle} {v : Variable}
    (h : store.get? handle = some v) (storage : Storage) :
    (store.withStorage handle storage).get? handle = some ⟨v.name, storage⟩ := by
  unfold get? at h ⊢
  unfold withStorage
  rw [List.getElem?_modify_eq, h]
  rfl

/-- The other variables after the storage of one was replaced. -/
theorem get?_withStorage_of_ne (store : Store) {handle other : Handle}
    (h : other ≠ handle) (storage : Storage) :
    (store.withStorage handle storage).get? other = store.get? other := by
  have hindex : handle.index ≠ other.index := by
    intro same
    exact h (congrArg Handle.mk same.symm)
  unfold get? withStorage
  dsimp only
  rw [List.getElem?_modify_ne _ _ hindex]

/-- A variable with a cell of its own reads as the content of the cell. -/
theorem value_of_owned {store : Store} {handle : Handle} {name : String} {cell : Cell}
    (h : store.get? handle = some ⟨name, .owned cell⟩) :
    store.value handle = cell.content := by
  unfold value
  rw [h]
  rfl

/-- Replacing the storage of one variable leaves the values of the others alone. -/
theorem value_withStorage_of_ne (store : Store) {handle other : Handle}
    (h : other ≠ handle) (storage : Storage) :
    (store.withStorage handle storage).value other = store.value other := by
  unfold value
  rw [get?_withStorage_of_ne store h]
  rfl

/-- After a write, the variable reads as its cell after the write. -/
theorem value_write_self {store : Store} {handle : Handle} {name : String} {cell : Cell}
    (h : store.get? handle = some ⟨name, .owned cell⟩) (value : Value) :
    (store.withStorage handle (.owned (cell.write value))).value handle =
      (cell.write value).content :=
  value_of_owned (get?_withStorage_self h _)

end CueRouter.Store
