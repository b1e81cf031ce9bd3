import CueRouter.Midi.Event
import CueRouter.Proofs.Binding.Bucket
import Mathlib.Algebra.Ring.Int.Defs

/-!
# Messages that are sent on

A note or a controller message becomes an input whose fields hold the port, the channel and
the numbers of the message. An outgoing action whose fields hold the same numbers becomes the
same message again, but that a note is moved by the transpose, stopping at the ends of the
keyboard, and that a note-on of velocity zero leaves as the note-off that it means.
-/

namespace CueRouter

/-- The key nearest to the one that lies so many semitones above. -/
def movedKey (key : Fin 128) (transpose : Int32) : Fin 128 :=
  ⟨(max 0 (min 127 (key.val + transpose.toInt))).toNat, by omega⟩

/-- How a kind of message is sent on: an input becomes an action with the same values in fields
of the same names. -/
structure Thru where
  /-- The type of the input. -/
  input : EventType
  /-- The type of the action. -/
  output : EventType
  /-- The names of the fields. -/
  fields : List String

namespace Thru

/-- Notes are sent on. -/
def notes : Thru := ⟨.midiKey, .midiOutNote, ["port", "channel", "notenum", "vel", "down"]⟩

/-- Controller messages are sent on. -/
def controllers : Thru :=
  ⟨.midiController, .midiOutController, ["port", "channel", "ctrl", "val"]⟩

end Thru

/-- The fields of these names hold these numbers. -/
def Event.Carries (event : Event) (catalog : Catalog) (numbers : List (String × Int)) : Prop :=
  ∀ number ∈ numbers, catalog.read? event number.1 = some (midiValue number.2)

namespace MidiMessage

/-- How the message is sent on, if it is a note or a controller message. -/
def thru? : MidiMessage → Option Thru
  | noteOn _ _ | noteOff _ _ => some .notes
  | controller _ _ => some .controllers
  | _ => none

/-- What the message is to leave as. -/
def sentOn (transpose : Int32) : MidiMessage → MidiMessage
  | noteOn key velocity =>
    if velocity.val = 0 then noteOff (movedKey key transpose) velocity
    else noteOn (movedKey key transpose) velocity
  | noteOff key velocity => noteOff (movedKey key transpose) velocity
  | message => message

/-- The numbers of the message by the names of the fields that hold them. -/
def numbers : MidiMessage → List (String × Int)
  | noteOn key velocity =>
    [("notenum", key.val), ("vel", velocity.val), ("down", if velocity.val = 0 then 0 else 1)]
  | noteOff key velocity => [("notenum", key.val), ("vel", velocity.val), ("down", 0)]
  | controller number value => [("ctrl", number.val), ("val", value.val)]
  | _ => []

/-- The numbers of the message with its port and its channel. -/
def addressed (port : UInt8) (channel : Fin 16) (message : MidiMessage) : List (String × Int) :=
  ("port", port.toNat) :: ("channel", channel.val) :: message.numbers

variable {port : UInt8} {channel : Fin 16} {message : MidiMessage} {thru : Thru}

/-- A channel of the wire has its number. -/
theorem toNat_number_ofWire (channel : Fin 16) :
    (MidiChannel.ofWire channel).number.toNat = channel.val := by
  revert channel
  decide

/-- A message is sent on in one of two ways. -/
theorem notes_or_controllers (h : message.thru? = some thru) :
    thru = .notes ∨ thru = .controllers := by
  cases message <;> cases h
  · exact .inl rfl
  · exact .inl rfl
  · exact .inr rfl

/-- What the numbers are called, the fields are called that are copied. -/
theorem map_fst_addressed (h : message.thru? = some thru) (port : UInt8) (channel : Fin 16) :
    (message.addressed port channel).map Prod.fst = thru.fields := by
  cases message <;> cases h <;> rfl

/-! ## On the way in -/

/-- The event of a key that is pressed or let go. -/
def keyEvent (port channel down key velocity : Int) : Event :=
  ⟨.midiKey, [.int 0, midiValue down, midiValue port, midiValue channel, midiValue key,
    midiValue velocity], false⟩

/-- The event of a controller that is moved. -/
def controllerEvent (port channel number value : Int) : Event :=
  ⟨.midiController, [.int 0, midiValue port, midiValue channel, midiValue number,
    midiValue value], false⟩

section Build

variable (keyBuckets : Nat) (port channel down key velocity number value : Int)

/-- The numbers of a key are put in the fields of their names, and read from there. -/
theorem build_midiKey :
    (Catalog.standard keyBuckets).build .midiKey
        [("port", midiValue port), ("channel", midiValue channel), ("down", midiValue down),
          ("notenum", midiValue key), ("vel", midiValue velocity)] =
        .ok (keyEvent port channel down key velocity) ∧
      (keyEvent port channel down key velocity).Carries (.standard keyBuckets)
        [("port", port), ("channel", channel), ("notenum", key), ("vel", velocity),
          ("down", down)] := by
  simp only [Catalog.build, Event.Carries, Catalog.read?, Catalog.schema_standard,
    List.forall_mem_cons]
  exact ⟨rfl, rfl, rfl, rfl, rfl, rfl, nofun⟩

/-- The numbers of a controller are put in the fields of their names, and read from there. -/
theorem build_midiController :
    (Catalog.standard keyBuckets).build .midiController
        [("port", midiValue port), ("channel", midiValue channel), ("ctrl", midiValue number),
          ("val", midiValue value)] =
        .ok (controllerEvent port channel number value) ∧
      (controllerEvent port channel number value).Carries (.standard keyBuckets)
        [("port", port), ("channel", channel), ("ctrl", number), ("val", value)] := by
  simp only [Catalog.build, Event.Carries, Catalog.read?, Catalog.schema_standard,
    List.forall_mem_cons]
  exact ⟨rfl, rfl, rfl, rfl, rfl, nofun⟩

end Build

/-- A message that can be sent on becomes an input under interface zero that carries its
numbers, and has a whole number in the field that decides its bucket. -/
theorem exists_toEvent? (h : message.thru? = some thru) (keyBuckets : Nat) (port : UInt8)
    (channel : Fin 16) :
    ∃ event, message.toEvent? (.standard keyBuckets) port (.ofWire channel) = some event ∧
      event.type = thru.input ∧ event.echo = false ∧
      (Catalog.standard keyBuckets).read? event interfaceField = some (.int 0) ∧
      event.Carries (.standard keyBuckets) (message.addressed port channel) ∧
      ∀ field ∈ ((Catalog.standard keyBuckets).schema event.type).indexedField?,
        (event.field field.index).isWhole = true := by
  simp only [toEvent?, toFields?, toNat_number_ofWire, Option.bind_eq_bind, Catalog.read?,
    Catalog.schema_standard]
  cases message with
  | noteOn key velocity =>
    cases h
    obtain ⟨built, carries⟩ := build_midiKey keyBuckets port.toNat channel.val
      (if velocity.val = 0 then 0 else 1) key.val velocity.val
    refine ⟨_, ?_, rfl, rfl, rfl, carries, by rintro field ⟨⟩; rfl⟩
    simp only [Option.bind_some, built, Except.toOption]
  | noteOff key velocity =>
    cases h
    obtain ⟨built, carries⟩ := build_midiKey keyBuckets port.toNat channel.val 0 key.val
      velocity.val
    refine ⟨_, ?_, rfl, rfl, rfl, carries, by rintro field ⟨⟩; rfl⟩
    simp only [Option.bind_some, built, Except.toOption]
  | controller number value =>
    cases h
    obtain ⟨built, carries⟩ := build_midiController keyBuckets port.toNat channel.val
      number.val value.val
    refine ⟨_, ?_, rfl, rfl, rfl, carries, by rintro field ⟨⟩; rfl⟩
    simp only [Option.bind_some, built, Except.toOption]
  | aftertouch | program | pressure | bend => cases h

/-! ## On the way out -/

/-- A number of 32 bits reads as itself. -/
theorem toWhole?_midiValue {n : Int} (low : -2 ^ 31 ≤ n) (high : n < 2 ^ 31) :
    (midiValue n).toWhole? = some (.ofInt n) :=
  congrArg some (Int32.toInt64_ofInt low (Int.le_sub_one_of_lt high))

/-- A number of 64 bits stops at the nearer end of the 7 bits. -/
theorem val_clampToData {n : Int} (low : -2 ^ 63 ≤ n) (high : n < 2 ^ 63) :
    (clampToData (.ofInt n)).val = (max 0 (min 127 n)).toNat := by
  unfold clampToData lowSeven
  rw [Int64.toInt_ofInt_of_le low high]
  exact Nat.mod_eq_of_lt (by omega)

/-- A number of 7 bits is not cut. -/
theorem clampToData_ofInt (n : Fin 128) : clampToData (.ofInt n.val) = n := by
  have bound := n.isLt
  refine Fin.ext ?_
  rw [val_clampToData (by omega) (by omega)]
  omega

/-- A key that moves by the transpose does not wrap around, and ends up on the nearest
key. -/
theorem clampToData_add (key : Fin 128) (transpose : Int32) :
    clampToData (.ofInt key.val + transpose.toInt64) = movedKey key transpose := by
  have low := transpose.le_toInt
  have high := transpose.toInt_lt
  have moved : Int64.ofInt key.val + transpose.toInt64 = .ofInt (key.val + transpose.toInt) := by
    rw [Int64.ofInt_add, ← transpose.toInt_toInt64, Int64.ofInt_toInt]
  refine Fin.ext ?_
  rw [moved, val_clampToData (by omega) (by omega)]
  rfl

/-- A port is read back from its number. -/
theorem ofInt_port (port : UInt8) : UInt8.ofInt (Int64.ofInt port.toNat).toInt = port := by
  have bound := port.toNat_lt
  rw [Int64.toInt_ofInt_of_le (by omega) (by omega)]
  unfold UInt8.ofInt
  rw [Int.emod_eq_of_lt (by omega) (by omega), Int.toNat_natCast, UInt8.ofNat_toNat]

/-- A channel is read back from its number. -/
theorem ofInt_channel (channel : Fin 16) :
    (⟨.ofInt (Int64.ofInt channel.val).toInt &&& 15⟩ : MidiChannel) = .ofWire channel := by
  revert channel
  decide

/-- The numbers of a message fit into a byte. -/
theorem bounds_addressed (message : MidiMessage) (port : UInt8) (channel : Fin 16) :
    ∀ number ∈ message.addressed port channel, 0 ≤ number.2 ∧ number.2 < 256 := by
  have bound := port.toNat_lt
  have small (n : Fin 128) : 0 ≤ (n.val : Int) ∧ (n.val : Int) < 256 := by omega
  have others : ∀ number ∈ message.numbers, 0 ≤ number.2 ∧ number.2 < 256 := by
    cases message with
    | noteOn key velocity =>
      simp only [numbers, List.forall_mem_cons]
      refine ⟨small key, small velocity, ?_, nofun⟩
      split <;> omega
    | noteOff key velocity => simp [numbers, small]
    | controller number value => simp [numbers, small]
    | aftertouch | program | pressure | bend => simp [numbers]
  simp only [addressed, List.forall_mem_cons]
  exact ⟨by omega, by omega, others⟩

/-- An action that carries the numbers of a message becomes what the message is to leave
as. -/
theorem toMidi?_of_carries {event : Event} {catalog : Catalog} (h : message.thru? = some thru)
    (type : event.type = thru.output)
    (carries : event.Carries catalog (message.addressed port channel)) (transpose : Int32) :
    event.toMidi? catalog transpose =
      some ⟨port, .ofWire channel, message.sentOn transpose⟩ := by
  have whole : ∀ number ∈ message.addressed port channel,
      event.wholeField? catalog number.1 = some (.ofInt number.2) := by
    intro number member
    obtain ⟨low, high⟩ := message.bounds_addressed port channel number member
    rw [Event.wholeField?, carries number member]
    exact toWhole?_midiValue (by omega) (by omega)
  simp only [addressed, List.forall_mem_cons] at whole
  obtain ⟨ports, channels, others⟩ := whole
  have sent : event.toMidiMessage? catalog transpose = some (message.sentOn transpose) := by
    unfold Event.toMidiMessage?
    cases message with
    | noteOn key velocity =>
      cases h
      simp only [numbers, List.forall_mem_cons] at others
      obtain ⟨keys, velocities, downs, -⟩ := others
      simp only [type, Thru.notes, keys, velocities, downs, sentOn, clampToData_add,
        clampToData_ofInt, Option.bind_eq_bind, Option.bind_some]
      by_cases released : velocity.val = 0
      · simp [released]
      · simp [released]
    | noteOff key velocity =>
      cases h
      simp only [numbers, List.forall_mem_cons] at others
      obtain ⟨keys, velocities, downs, -⟩ := others
      simp [type, Thru.notes, keys, velocities, downs, sentOn, clampToData_add,
        clampToData_ofInt]
    | controller number value =>
      cases h
      simp only [numbers, List.forall_mem_cons] at others
      obtain ⟨numbers, values, -⟩ := others
      simp [type, Thru.controllers, numbers, values, sentOn, clampToData_ofInt]
    | aftertouch | program | pressure | bend => cases h
  unfold Event.toMidi?
  simp only [ports, channels, sent, ofInt_port, ofInt_channel, Option.bind_eq_bind,
    Option.bind_some]
  rfl

/-- An input becomes no message. -/
theorem toMidi?_of_input (h : message.thru? = some thru) {event : Event}
    (type : event.type = thru.input) (catalog : Catalog) (transpose : Int32) :
    event.toMidi? catalog transpose = none := by
  have silent : event.toMidiMessage? catalog transpose = none := by
    unfold Event.toMidiMessage?
    cases message <;> cases h <;> rw [type] <;> rfl
  simp [Event.toMidi?, silent]

end MidiMessage

end CueRouter
