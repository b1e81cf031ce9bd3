import CueRouter.Event.Catalog
import CueRouter.Midi.Message

/-!
# Events from and to MIDI

An incoming message becomes the input event of its kind. A note-on of velocity
zero is a key going up, and no event stands for aftertouch of a single key. An
outgoing note or controller action becomes a message for a port; notes move by
the transpose, and data outside 7 bits stops at the nearer end.
-/

namespace CueRouter

/-- The value of a whole number that arrives by MIDI. -/
def midiValue (n : Int) : Value := .int (.ofInt n)

namespace MidiMessage

/-- The type of event a message becomes and the fields it fills. -/
def toFields? : MidiMessage → Option (EventType × List (String × Value))
  | noteOn key velocity =>
    some (.midiKey, [("down", midiValue (if velocity.val = 0 then 0 else 1)),
      ("notenum", midiValue key.val), ("vel", midiValue velocity.val)])
  | noteOff key velocity =>
    some (.midiKey, [("down", midiValue 0), ("notenum", midiValue key.val),
      ("vel", midiValue velocity.val)])
  | controller number value =>
    some (.midiController,
      [("ctrl", midiValue number.val), ("val", midiValue value.val)])
  | program number => some (.midiProgramChange, [("val", midiValue number.val)])
  | pressure velocity =>
    some (.midiChannelPressure, [("val", midiValue velocity.val)])
  | bend position =>
    some (.midiPitchBend, [("val", midiValue (position.val - bendCenter))])
  | aftertouch _ _ => none

/-- The input event of a message that arrives at a port. -/
def toEvent? (catalog : Catalog) (port : UInt8) (channel : MidiChannel)
    (message : MidiMessage) : Option Event := do
  let (type, fields) ← message.toFields?
  (catalog.build type
    (("port", midiValue port.toNat) :: ("channel", midiValue channel.number.toNat)
      :: fields)).toOption

end MidiMessage

/-- A message on its way out. -/
structure MidiOutput where
  /-- The port it goes to. -/
  port : UInt8
  /-- The channel it is sent on. -/
  channel : MidiChannel
  /-- The message. -/
  message : MidiMessage
  deriving DecidableEq

/-- The number of 7 bits nearest to a whole number. -/
def clampToData (n : Int64) : Fin 128 :=
  MidiMessage.lowSeven (max 0 (min 127 n.toInt)).toNat

namespace Event

/-- The whole reading of a field, if the field is there and numeric. -/
def wholeField? (event : Event) (catalog : Catalog) (name : String) : Option Int64 :=
  (catalog.read? event name).bind Value.toWhole?

/-- The message of an outgoing action. -/
def toMidiMessage? (event : Event) (catalog : Catalog) (transpose : Int32) :
    Option MidiMessage :=
  match event.type with
  | .midiOutNote => do
    let note ← event.wholeField? catalog "notenum"
    let velocity ← event.wholeField? catalog "vel"
    let down ← event.wholeField? catalog "down"
    let key := clampToData (note + transpose.toInt64)
    if down = 0 then return .noteOff key (clampToData velocity)
    else return .noteOn key (clampToData velocity)
  | .midiOutController => do
    let number ← event.wholeField? catalog "ctrl"
    let value ← event.wholeField? catalog "val"
    return .controller (clampToData number) (clampToData value)
  | _ => none

/-- The message of an outgoing action with its port and channel. -/
def toMidi? (event : Event) (catalog : Catalog) (transpose : Int32) :
    Option MidiOutput := do
  let port ← event.wholeField? catalog "port"
  let channel ← event.wholeField? catalog "channel"
  let message ← event.toMidiMessage? catalog transpose
  return ⟨.ofInt port.toInt, ⟨.ofInt channel.toInt &&& 15⟩, message⟩

end Event

end CueRouter
