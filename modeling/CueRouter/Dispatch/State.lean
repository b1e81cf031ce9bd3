import CueRouter.Binding.Table
import CueRouter.Event.Pool
import CueRouter.Journal
import CueRouter.Variable.Store

/-!
# The state of a router

What stays fixed while events are routed is the router; what changes is its
state. A state holds the variables, the pool of events, the journal, the
listeners with what they heard, the debug switch, the nesting depth of
dispatches and the modal hook. Circulating an event borrows an idle one, writes
over it, broadcasts it and gives it back.
-/

namespace CueRouter

/-- Someone who hears every broadcast after the dispatcher has acted on it. -/
inductive Listener where
  /-- Keeps every event it hears. -/
  | recorder (heard : Array Event)
  /-- Answers inputs of one type by an event of its own, and counts how often
  no idle event was left for it. -/
  | relay (on : EventType) (emit : Event) (dropped : Nat)

/-- What stays fixed while events are routed. -/
structure Router where
  /-- The schemas of the event types. -/
  catalog : Catalog
  /-- The compiled bindings. -/
  table : Table
  /-- The shared cell that holds the MIDI transpose. -/
  transpose : SharedCell
  /-- The interfaces to announce, in order. -/
  interfaces : List Int32
  /-- How deeply dispatches may nest. -/
  depthLimit : Nat

/-- What changes while events are routed. -/
structure State where
  /-- The variables. -/
  store : Store
  /-- The pool that broadcast events are borrowed from. -/
  pool : Pool
  /-- What has been said and reported. -/
  journal : Journal
  /-- The listeners in order of subscription. -/
  listeners : List Listener
  /-- Whether every dispatched event is described in the journal. -/
  debug : Bool
  /-- The number of dispatches under way. -/
  depth : Nat := 0
  /-- The inputs that a modal hook keeps from being routed. A hook decides by
  the event alone and remembers nothing. -/
  claims : Event → Bool := fun _ => false

namespace State

/-- Add a message to the journal. -/
def note (s : State) (level : Level) (text : String) : State :=
  { s with journal := s.journal.note level text }

/-- Report a dropped action. -/
def report (s : State) (fault : DispatchFault) : State :=
  { s with journal := s.journal.report (.dispatch fault) }

/-- Write to the variable store on behalf of an owner of shared cells. -/
def publish (s : State) (shared : SharedCell) (value : Value) : State :=
  { s with store := s.store.publish shared value }

/-- Borrow an idle event, fill it, broadcast it by way of `send`, and give it
back. There is no outcome when no event is idle. -/
def circulate (s : State) (send : State → Event → State) (fill : Event → Event) :
    Option State :=
  match s.pool.acquire with
  | none => none
  | some loan =>
    let event := fill loan.event
    let after := send { s with pool := loan.pool } event
    some { after with pool := after.pool.release event }

/-- Let one listener hear an event. A relay ignores echoes. -/
def hear (send : State → Event → State) (event : Event) (s : State) (index : Nat) :
    State :=
  match s.listeners[index]? with
  | none => s
  | some (.recorder heard) =>
    { s with listeners := s.listeners.set index (.recorder (heard.push event)) }
  | some (.relay on emit dropped) =>
    if event.echo || event.type != on then s
    else
      match s.circulate send fun old => old.copyFrom emit with
      | some after => after
      | none =>
        { s with listeners := s.listeners.set index (.relay on emit (dropped + 1)) }

/-- Let every listener hear an event, in order. -/
def hearAll (s : State) (send : State → Event → State) (event : Event) : State :=
  (List.range s.listeners.length).foldl (hear send event) s

/-- What each recorder heard. -/
def heard (s : State) : List (Array Event) :=
  s.listeners.filterMap fun
    | .recorder heard => some heard
    | .relay .. => none

/-- How often each relay found no idle event. -/
def dropped (s : State) : List Nat :=
  s.listeners.filterMap fun
    | .recorder _ => none
    | .relay _ _ dropped => some dropped

end State

end CueRouter
