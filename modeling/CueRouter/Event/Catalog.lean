import CueRouter.Event.ByType
import CueRouter.Event.Schema
import CueRouter.Text.Blank

/-!
# The catalog of event types

The catalog holds the schema of every event type. Every input leads with the
field that says which interface it belongs to. Registering a schema replaces
that of its type. The widest schema ever registered sets the room that pooled
events need.
-/

namespace CueRouter

open Text

/-- The field of inputs that holds the interface they belong to. -/
def interfaceField : String := "interfaceid"

/-- The field of control events that holds the variable they act on. -/
def referenceField : String := "var"

/-- The schema of every event type. -/
structure Catalog where
  /-- The schema of each type. -/
  schemas : ByType Schema
  /-- The number of fields of the widest schema registered so far. -/
  widest : Nat

namespace Catalog

/-- Buckets of fields that hold a number of 7 bits. -/
def midiBuckets : Nat := 128

/-- The fields that lead every schema of the type. -/
def leadingForms (type : EventType) : List FieldForm :=
  if type.isBindable then [.plain interfaceField .int] else []

/-- The fields of a type after the leading ones, keycodes spread over
`keyBuckets` buckets. -/
def ownForms (keyBuckets : Nat) : EventType → List FieldForm
  | .key => [.plain "down" .int, .key "key" keyBuckets, .plain "unicode" .int]
  | .mouseButton =>
    [.plain "down" .int, .indexed "button" .int 16, .plain "x" .int,
      .plain "y" .int]
  | .mouseMotion => [.plain "x" .int, .plain "y" .int]
  | .joystickButton =>
    [.plain "down" .int, .plain "joystick" .int, .indexed "button" .int 32]
  | .midiKey =>
    [.plain "down" .int, .plain "port" .int, .plain "channel" .int,
      .indexed "notenum" .int midiBuckets, .plain "vel" .int]
  | .midiController =>
    [.plain "port" .int, .plain "channel" .int, .indexed "ctrl" .int midiBuckets,
      .plain "val" .int]
  | .midiProgramChange =>
    [.plain "port" .int, .plain "channel" .int, .indexed "val" .int midiBuckets]
  | .midiChannelPressure | .midiPitchBend =>
    [.plain "port" .int, .plain "channel" .int, .plain "val" .int]
  | .midiClock | .startInterface => []
  | .midiStartStop => [.plain "start" .int]
  | .goSub =>
    [.indexed "sub" .int 64, .plain "param1" .any, .plain "param2" .any,
      .plain "param3" .any]
  | .setVariable =>
    [.plain referenceField .reference, .plain "value" .any,
      .plain "maxjumpcheck" .int, .plain "maxjump" .float]
  | .toggleVariable =>
    [.plain referenceField .reference, .plain "maxvalue" .int,
      .plain "minvalue" .int]
  | .splitVariableMsbLsb =>
    [.plain referenceField .reference, .plain "msb" .reference,
      .plain "lsb" .reference]
  | .logFaderToLinear =>
    [.plain referenceField .reference, .plain "fadervar" .reference,
      .plain "scale" .float]
  | .setDebugMode => [.plain "debug" .int]
  | .adjustMidiTranspose => [.plain "adjust" .int]
  | .triggerLoop => [.plain "index" .int, .plain "vol" .float, .plain "engage" .int]
  | .setMasterVolume => [.plain "amount" .float]
  | .midiOutNote =>
    [.plain "port" .int, .plain "channel" .int, .plain "notenum" .int,
      .plain "vel" .int, .plain "down" .int]
  | .midiOutController =>
    [.plain "port" .int, .plain "channel" .int, .plain "ctrl" .int,
      .plain "val" .int]

/-- The stock schema of a type. -/
def stock (keyBuckets : Nat) (type : EventType) : Schema :=
  .ofForms type (leadingForms type ++ ownForms keyBuckets type)

/-- The stock catalog. -/
def standard (keyBuckets : Nat) : Catalog where
  schemas := .ofFn (stock keyBuckets)
  widest :=
    (EventType.all.map fun type => (stock keyBuckets type).fields.length).foldl max 0

/-- Put a schema in the place of its type's. -/
def register (catalog : Catalog) (schema : Schema) : Catalog where
  schemas := catalog.schemas.set schema.type schema
  widest := max catalog.widest schema.fields.length

/-- The schema of a type. -/
def schema (catalog : Catalog) (type : EventType) : Schema :=
  catalog.schemas.get type

/-- The schema of the type that configuration names, blank ends aside. -/
def lookup (catalog : Catalog) (name : String) : Except ConfigFault Schema :=
  match EventType.ofName? (trim name) with
  | some type => .ok (catalog.schema type)
  | none => .error (.unknownEvent (trim name))

/-- An event of a type from named values. -/
def build (catalog : Catalog) (type : EventType) (values : List (String × Value)) :
    Except ConfigFault Event :=
  (catalog.schema type).build values

/-- Read a field of an event by name. -/
def read? (catalog : Catalog) (event : Event) (name : String) : Option Value :=
  (catalog.schema event.type).read? event name

/-- Read a field of an event by name, invalid where there is none. -/
def read (catalog : Catalog) (event : Event) (name : String) : Value :=
  (catalog.read? event name).getD .invalid

/-- A stock schema describes its type. -/
theorem type_stock (keyBuckets : Nat) (type : EventType) :
    (stock keyBuckets type).type = type :=
  Schema.type_ofForms ..

end Catalog

end CueRouter
