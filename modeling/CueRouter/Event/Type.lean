/-!
# Event types

Every event that travels has one of 23 types, in three roles. Bindings are
declared on inputs. Control events act on variables and settings directly.
Actions are left for the rest of the system to hear. Configuration refers to a
type by a name of lower-case words joined by hyphens.
-/

namespace CueRouter

/-- What the router does with an event. -/
inductive EventRole where
  /-- Bindings can be declared on it. -/
  | input
  /-- It is carried out directly. -/
  | control
  /-- It is only heard by others. -/
  | action
  deriving DecidableEq

/-- The type of an event. -/
inductive EventType where
  /-- A computer keyboard key went down or up. -/
  | key
  /-- A mouse button went down or up. -/
  | mouseButton
  /-- The mouse moved. -/
  | mouseMotion
  /-- A joystick button went down or up. -/
  | joystickButton
  /-- A MIDI note went on or off. -/
  | midiKey
  /-- A MIDI continuous controller moved. -/
  | midiController
  /-- A MIDI program was selected. -/
  | midiProgramChange
  /-- The pressure on a whole MIDI channel changed. -/
  | midiChannelPressure
  /-- A MIDI pitch wheel moved. -/
  | midiPitchBend
  /-- A MIDI clock ticked. -/
  | midiClock
  /-- MIDI playback started or stopped. -/
  | midiStartStop
  /-- A subroutine of the configuration is called; bindings produce these and are
  declared on them. -/
  | goSub
  /-- An interface comes up. -/
  | startInterface
  /-- Write a value into a variable. -/
  | setVariable
  /-- Step a variable through a closed range and around again. -/
  | toggleVariable
  /-- Split a variable into its two low bytes. -/
  | splitVariableMsbLsb
  /-- Convert a fader position into a linear gain. -/
  | logFaderToLinear
  /-- Turn verbose routing messages on or off. -/
  | setDebugMode
  /-- Move the MIDI transpose up or down. -/
  | adjustMidiTranspose
  /-- Ask for a loop to be triggered. -/
  | triggerLoop
  /-- Ask for another output volume. -/
  | setMasterVolume
  /-- Ask for a MIDI note to be sent. -/
  | midiOutNote
  /-- Ask for a MIDI controller value to be sent. -/
  | midiOutController
  deriving DecidableEq, Inhabited

namespace EventType

/-- The number of event types. -/
def count : Nat := 23

/-- Every event type in the order of declaration: inputs, control events,
actions. -/
def all : List EventType :=
  [key, mouseButton, mouseMotion, joystickButton, midiKey, midiController,
    midiProgramChange, midiChannelPressure, midiPitchBend, midiClock,
    midiStartStop, goSub, startInterface, setVariable, toggleVariable,
    splitVariableMsbLsb, logFaderToLinear, setDebugMode, adjustMidiTranspose,
    triggerLoop, setMasterVolume, midiOutNote, midiOutController]

/-- The place of a type in the order of declaration. -/
def position (type : EventType) : Nat := type.ctorIdx

/-- The configuration name of a type. -/
def name : EventType → String
  | key => "key"
  | mouseButton => "mouse-button"
  | mouseMotion => "mouse-motion"
  | joystickButton => "joystick-button"
  | midiKey => "midi-key"
  | midiController => "midi-controller"
  | midiProgramChange => "midi-program-change"
  | midiChannelPressure => "midi-channel-pressure"
  | midiPitchBend => "midi-pitch-bend"
  | midiClock => "midi-clock"
  | midiStartStop => "midi-start-stop"
  | goSub => "go-sub"
  | startInterface => "start-interface"
  | setVariable => "set-variable"
  | toggleVariable => "toggle-variable"
  | splitVariableMsbLsb => "split-variable-msb-lsb"
  | logFaderToLinear => "log-fader-to-linear"
  | setDebugMode => "set-debug-mode"
  | adjustMidiTranspose => "adjust-midi-transpose"
  | triggerLoop => "trigger-loop"
  | setMasterVolume => "set-master-volume"
  | midiOutNote => "midi-out-note"
  | midiOutController => "midi-out-controller"

/-- The type of exactly this name. -/
def ofName? (name : String) : Option EventType :=
  all.find? fun type => type.name == name

/-- The role of a type. -/
def role : EventType → EventRole
  | key | mouseButton | mouseMotion | joystickButton | midiKey | midiController
  | midiProgramChange | midiChannelPressure | midiPitchBend | midiClock
  | midiStartStop | goSub | startInterface => .input
  | setVariable | toggleVariable | splitVariableMsbLsb | logFaderToLinear
  | setDebugMode | adjustMidiTranspose => .control
  | triggerLoop | setMasterVolume | midiOutNote | midiOutController => .action

/-- Whether bindings can be declared on the type. -/
def isBindable (type : EventType) : Bool := type.role == .input

/-- Whether the type is carried out directly. -/
def isControl (type : EventType) : Bool := type.role == .control

/-- Whether bindings produce the type as well as being declared on it. Such an
input is never echoed when nothing matches it, or it would feed itself. -/
def isSelfReferential (type : EventType) : Bool := type == goSub

theorem all_length : all.length = count := rfl

theorem position_lt (type : EventType) : type.position < count := by
  cases type <;> decide

/-- The type at the place of a type is that type. -/
theorem getElem_position (type : EventType) :
    all[type.position]? = some type := by
  cases type <;> rfl

theorem position_injective {a b : EventType} (h : a.position = b.position) :
    a = b := by
  have := getElem_position a
  rw [h, getElem_position b] at this
  exact (Option.some.inj this).symm

theorem mem_all (type : EventType) : type ∈ all :=
  List.mem_of_getElem? (getElem_position type)

end EventType

end CueRouter
