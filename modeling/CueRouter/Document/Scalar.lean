import CueRouter.Document.Basic
import CueRouter.Event.Type
import CueRouter.Midi.Message
import CueRouter.Value.Kind
import CueRouter.Value.Span

/-!
# Small values in documents

Kinds and event types are choices by name, a span is a record of its two ends,
and a MIDI channel is a number of 8 bits.
-/

namespace CueRouter

open Document Text

/-- The kind that a value names. -/
def Kind.ofJson? : Json → Option Kind := readChoice? Kind.ofName?

/-- The kind as a value. -/
def Kind.toJson (kind : Kind) : Json := .ofString kind.name

/-- The event type that a value names. -/
def EventType.ofJson? : Json → Option EventType := readChoice? EventType.ofName?

/-- The event type as a value. -/
def EventType.toJson (type : EventType) : Json := .ofString type.name

namespace Span

/-- The names of the ends, in order. -/
def fieldNames : List String := ["lo", "hi"]

/-- The span that a value describes. -/
def ofJson? (value : Json) : Option Span := do
  let record ← Record.ofJson? fieldNames value
  let lo ← record.require? "lo" readInt32?
  let hi ← record.require? "hi" readInt32?
  return ⟨lo, hi⟩

/-- The span as a value. -/
def toJson (span : Span) : Json :=
  .ofMembers [("lo", .ofInt span.lo.toInt), ("hi", .ofInt span.hi.toInt)]

end Span

namespace MidiChannel

/-- The channel that a value denotes. -/
def ofJson? (value : Json) : Option MidiChannel :=
  (readNat? Numeral.unsigned8 value).map fun number => ⟨.ofNat number⟩

/-- The channel as a value. -/
def toJson (channel : MidiChannel) : Json := .ofInt channel.number.toNat

end MidiChannel

end CueRouter
