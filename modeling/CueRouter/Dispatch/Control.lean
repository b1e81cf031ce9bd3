import CueRouter.Decimal.Shortest
import CueRouter.Dispatch.State
import CueRouter.Fader

/-!
# Control events

Six event types are carried out directly: they write variables, switch the
debug messages and move the MIDI transpose. A step that fails ends the event
with a fault; what earlier steps did stays done. A field that is missing reads
as the invalid value.
-/

namespace CueRouter

/-- Steps on a state that may end in a fault. -/
abbrev Handling := EStateM DispatchFault State

namespace Router

/-- The variable that a field of a control event refers to. -/
def referenceIn (router : Router) (event : Event) (field : String) :
    Handling Handle :=
  match (router.catalog.read event field).toHandle? with
  | some handle => pure handle
  | none => throw (.missingReference event.type field)

/-- A field of a control event as a whole number, zero where it is none. -/
def wholeIn (router : Router) (event : Event) (field : String) : Int64 :=
  (router.catalog.read event field).toWhole

/-- The whole reading of a variable; faults name the given field. -/
def numberAt (handle : Handle) (field : String) : Handling Int64 := do
  match ((← get).store.value handle).toWhole? with
  | some n => pure n
  | none => throw (.invalidValue field)

/-- Write a variable. -/
def writeAt (handle : Handle) (value : Value) : Handling Unit := do
  let s ← get
  match s.store.set handle value with
  | .ok written => set { s with store := written.store }
  | .error fault => throw fault

/-- The distance from the value of a variable to a new one, where both are
numeric. -/
def jump? (store : Store) (handle : Handle) (value : Value) : Option Double := do
  let target ← value.toReal?
  let current ← (store.value handle).toReal?
  return target.subtract current

/-- The jump that a checked write is refused for, if there is one. -/
def refusedJump? (router : Router) (store : Store) (event : Event)
    (handle : Handle) : Option Double :=
  if router.wholeIn event "maxjumpcheck" = 0 then none
  else
    let limit := ((router.catalog.read event "maxjump").toReal?).getD .zero
    (jump? store handle (router.catalog.read event "value")).filter
      fun jump => jump.magnitudeExceeds limit

/-- Write a value into a variable, unless the jump is checked and too large. -/
def setVariable (router : Router) (event : Event) : Handling Unit := do
  let handle ← router.referenceIn event referenceField
  let s ← get
  match router.refusedJump? s.store event handle with
  | some jump =>
    set (s.note .trace ("refusing jump of " ++ Decimal.shortest jump ++ " on "
      ++ s.store.describe handle))
  | none => writeAt handle (router.catalog.read event "value")

/-- The successor of a number in the closed range, around again at its end. -/
def toggled (n least greatest : Int64) : Int64 :=
  if n ≠ Int64.maxValue ∧ n + 1 ≤ greatest then n + 1 else least

/-- Step a variable through a closed range. -/
def toggleVariable (router : Router) (event : Event) : Handling Unit := do
  let handle ← router.referenceIn event referenceField
  let n ← numberAt handle referenceField
  writeAt handle (.long
    (toggled n (router.wholeIn event "minvalue") (router.wholeIn event "maxvalue")))

/-- Split a variable into its two low bytes, the higher one first. -/
def splitVariable (router : Router) (event : Event) : Handling Unit := do
  let handle ← router.referenceIn event referenceField
  let n ← numberAt handle referenceField
  writeAt (← router.referenceIn event "msb") (.int ((n >>> 8) &&& 0xFF).toInt32)
  writeAt (← router.referenceIn event "lsb") (.int (n &&& 0xFF).toInt32)

/-- The scale of a fader, which is a number other than zero. -/
def scaleOf (router : Router) (event : Event) : Handling Double :=
  match ((router.catalog.read event "scale").toReal?).filter fun x => !x.isZero with
  | some scale => pure scale
  | none => throw (.invalidValue "scale")

/-- The real reading of a variable; faults name the given field. -/
def realAt (handle : Handle) (field : String) : Handling Double := do
  match ((← get).store.value handle).toReal? with
  | some x => pure x
  | none => throw (.invalidValue field)

/-- Convert a fader position into a linear gain. -/
def convertFader (router : Router) (event : Event) : Handling Unit := do
  let handle ← router.referenceIn event referenceField
  let scale ← router.scaleOf event
  let fader ← realAt (← router.referenceIn event "fadervar") "fadervar"
  writeAt handle (.float (Fader.gain (fader.divide scale).narrow))

/-- Switch the debug messages. -/
def setDebug (router : Router) (event : Event) : Handling Unit :=
  modify fun s =>
    let on := decide (router.wholeIn event "debug" ≠ 0)
    ({ s with debug := on }).note .info
      ("debug mode " ++ if on then "on" else "off")

/-- Move the MIDI transpose. -/
def adjustTranspose (router : Router) (event : Event) : Handling Unit :=
  modify fun s =>
    s.publish router.transpose (.long
      ((s.store.sharedValue router.transpose).toWhole + router.wholeIn event "adjust"))

/-- Carry out a control event. -/
def carryOut (router : Router) (event : Event) : Handling Unit :=
  match event.type with
  | .setVariable => router.setVariable event
  | .toggleVariable => router.toggleVariable event
  | .splitVariableMsbLsb => router.splitVariable event
  | .logFaderToLinear => router.convertFader event
  | .setDebugMode => router.setDebug event
  | .adjustMidiTranspose => router.adjustTranspose event
  | _ => pure ()

/-- The state after a control event, its fault reported if it ended in one. -/
def control (router : Router) (s : State) (event : Event) : State :=
  match (router.carryOut event).run s with
  | .ok _ after => after
  | .error fault after => after.report fault

/-- The current MIDI transpose in semitones. -/
def semitones (router : Router) (s : State) : Int32 :=
  (s.store.sharedValue router.transpose).toWhole.toInt32

end Router

end CueRouter
