import CueRouter.Event.Type
import CueRouter.Value.Agreement

/-!
# Events

An event is a type with one value for each field of that type's schema, in
schema order. The copy of an input that the router broadcasts so that default
behaviour can happen is marked as an echo. Fields beyond the end read as
invalid, and writing there changes nothing. Events are used again: copying
another event into one leaves nothing of what was there before.
-/

namespace CueRouter

/-- One event. -/
structure Event where
  /-- The type of the event. -/
  type : EventType
  /-- The field values in schema order. -/
  fields : List Value
  /-- Whether this is the echo of an input. -/
  echo : Bool := false
  deriving DecidableEq, Inhabited

namespace Event

/-- An event without fields, as idle events start out. -/
def blank : Event := ⟨.key, [], false⟩

/-- The value of the field at a position. -/
def field (event : Event) (index : Nat) : Value :=
  event.fields[index]?.getD .invalid

/-- The event with another value in the field at a position. -/
def setField (event : Event) (index : Nat) (value : Value) : Event :=
  { event with fields := event.fields.set index value }

/-- The event marked as an echo. -/
def marked (event : Event) : Event := { event with echo := true }

/-- The event without the echo mark. -/
def unmarked (event : Event) : Event := { event with echo := false }

/-- The event overwritten by a copy of another: by its type, its fields and its
mark. -/
def copyFrom (event other : Event) : Event :=
  { event with type := other.type, fields := other.fields, echo := other.echo }

/-- Whether writing into an event makes `event` of it, whatever it was. -/
def Overwrites (fill : Event → Event) (event : Event) : Prop :=
  ∀ old, fill old = event

/-- Whether two events are equal, comparing floats as numbers. -/
def isEqual (a b : Event) : Bool :=
  a.type == b.type && a.echo == b.echo &&
    a.fields.length == b.fields.length &&
    (a.fields.zip b.fields).all fun pair => pair.1.isEqual pair.2

/-- A copy leaves nothing of the event before. -/
@[simp] theorem copyFrom_eq (event other : Event) : event.copyFrom other = other := rfl

theorem overwrites_copyFrom (event : Event) :
    Overwrites (fun old => old.copyFrom event) event :=
  fun old => old.copyFrom_eq event

theorem overwrites_copyFrom_marked (event : Event) :
    Overwrites (fun old => (old.copyFrom event).marked) event.marked :=
  fun old => congrArg marked (old.copyFrom_eq event)

theorem field_setField_self (event : Event) {index : Nat} (value : Value)
    (h : index < event.fields.length) :
    (event.setField index value).field index = value := by
  simp [field, setField, h]

theorem field_setField_of_ne (event : Event) {index other : Nat} (value : Value)
    (h : index ≠ other) :
    (event.setField index value).field other = event.field other := by
  simp [field, setField, h]

@[simp] theorem length_fields_setField (event : Event) (index : Nat)
    (value : Value) :
    (event.setField index value).fields.length = event.fields.length := by
  simp [setField]

end Event

end CueRouter
