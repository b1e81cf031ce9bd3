import CueRouter.Event.Type

/-!
# One entry for each event type

A table that holds an entry for every event type. Writing the entry of one type
is read back from it and leaves the entries of all other types alone.
-/

namespace CueRouter

/-- A table with an entry for every event type. -/
structure ByType (α : Type) where
  /-- The entries in the order of the types. -/
  entries : Vector α EventType.count

namespace ByType

variable {α : Type}

/-- The table of a function on event types. -/
def ofFn (f : EventType → α) : ByType α :=
  ⟨⟨(EventType.all.map f).toArray, by simp [EventType.all_length]⟩⟩

/-- The entry of a type. -/
def get (table : ByType α) (type : EventType) : α :=
  have := type.position_lt
  table.entries[type.position]

/-- The table with another entry for the type. -/
def set (table : ByType α) (type : EventType) (entry : α) : ByType α :=
  ⟨table.entries.set type.position entry type.position_lt⟩

@[simp] theorem get_ofFn (f : EventType → α) (type : EventType) :
    (ofFn f).get type = f type := by
  have h := EventType.getElem_position type
  obtain ⟨bound, h⟩ := List.getElem?_eq_some_iff.mp h
  simp [get, ofFn, h]

@[simp] theorem get_set_self (table : ByType α) (type : EventType) (entry : α) :
    (table.set type entry).get type = entry := by
  simp [get, set]

theorem get_set_of_ne (table : ByType α) {type other : EventType} (entry : α)
    (h : other ≠ type) : (table.set type entry).get other = table.get other := by
  have apart : type.position ≠ other.position := fun same =>
    h (EventType.position_injective same).symm
  simp [get, set, apart]

end ByType

end CueRouter
