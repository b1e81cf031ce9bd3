/-!
# MIDI messages

The channel voice messages of MIDI. Data bytes carry 7 bits, a pitch wheel 14
bits, and a channel number 4 bits on the wire; wider numbers are cut to their
low bits.
-/

namespace CueRouter

/-- A MIDI channel as configuration and events carry it. -/
structure MidiChannel where
  /-- The channel number. -/
  number : UInt8
  deriving DecidableEq

namespace MidiChannel

/-- The channel of a number from the wire. -/
def ofWire (number : Fin 16) : MidiChannel := ⟨.ofNat number.val⟩

end MidiChannel

/-- A channel voice message. -/
inductive MidiMessage where
  /-- A key goes up. -/
  | noteOff (key velocity : Fin 128)
  /-- A key goes down, or up where the velocity is zero. -/
  | noteOn (key velocity : Fin 128)
  /-- The pressure on one key changes. -/
  | aftertouch (key velocity : Fin 128)
  /-- A controller moves. -/
  | controller (number value : Fin 128)
  /-- A program is selected. -/
  | program (number : Fin 128)
  /-- The pressure on the whole channel changes. -/
  | pressure (velocity : Fin 128)
  /-- The pitch wheel moves. -/
  | bend (position : Fin 16384)
  deriving DecidableEq

namespace MidiMessage

/-- The position of a pitch wheel at rest. -/
def bendCenter : Int := 8192

/-- The low 7 bits of a number. -/
def lowSeven (n : Nat) : Fin 128 := Fin.ofNat 128 n

end MidiMessage

end CueRouter
