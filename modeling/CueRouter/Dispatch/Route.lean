import CueRouter.Dispatch.Control

/-!
# Routing events

The dispatcher decides what every event does. An echo or an action is left
alone. A control event is carried out. For an input that no hook claims, every
binding of the first matching chain synthesizes an output from the input and
the variables as they stand, and broadcasts it; then the input is echoed if the
chain asks for it, or if nothing matched and the input is no subroutine call.

A broadcast hands the event to the dispatcher and then to the listeners, any of
whom may broadcast in turn. Every nested broadcast holds an event of the pool,
so the number of idle events bounds the nesting, and the recursion is on that
number.
-/

namespace CueRouter.Router

/-- The fields of an event by name, as debug messages show them. -/
def describe (router : Router) (store : Store) (event : Event) : String :=
  " ".intercalate ((router.catalog.schema event.type).fields.map fun field =>
    field.name ++ "=" ++ store.display (event.field field.index))

/-- Broadcast the output of one binding. -/
def fire (send : State → Event → State) (input : Event) (s : State)
    (binding : Binding) : State :=
  let output := binding.synthesize input s.store
  let noted := s.note .trace (input.type.name ++ " -> " ++ output.type.name)
  match noted.circulate send (binding.synthesizeInto input s.store) with
  | some after => after
  | none => s.report (.poolExhausted binding.prototype.type)

/-- Broadcast the outputs of a chain in order. -/
def fireAll (send : State → Event → State) (input : Event) (s : State)
    (chain : Chain) : State :=
  chain.toList.foldl (fire send input) s

/-- Broadcast the echo of an input. -/
def echo (send : State → Event → State) (s : State) (input : Event) : State :=
  match s.circulate send fun old => (old.copyFrom input).marked with
  | some after => after
  | none => s.report (.poolExhausted input.type)

/-- Echo an input that nothing matched. -/
def echoUnmatched (send : State → Event → State) (s : State) (input : Event) : State :=
  if input.type.isSelfReferential then s else echo send s input

/-- Answer an input from the binding table. -/
def answer (router : Router) (send : State → Event → State) (s : State)
    (input : Event) : State :=
  match router.table.find input s.store with
  | .error fault => echoUnmatched send (s.report fault) input
  | .ok none => echoUnmatched send s input
  | .ok (some chain) =>
    let fired := fireAll send input s chain
    if chain.head.echo then echo send fired input else fired

/-- Describe an event in the journal while the debug switch is on. -/
def announce (router : Router) (s : State) (event : Event) : State :=
  if s.debug then
    s.note .info (event.type.name ++ ": " ++ router.describe s.store event)
  else s

/-- Carry out a control event or answer an input. -/
def handle (router : Router) (send : State → Event → State) (s : State)
    (event : Event) : State :=
  let s := router.announce s event
  if event.type.isControl then router.control s event
  else if s.claims event then
    s.note .trace (event.type.name ++ " claimed by modal hook")
  else router.answer send s event

/-- Route one event. Faults are reported, and the affected action is dropped. -/
def dispatch (router : Router) (send : State → Event → State) (s : State)
    (event : Event) : State :=
  if event.echo || event.type.role == .action then s
  else if router.depthLimit ≤ s.depth then
    s.report (.recursionLimit router.depthLimit event.type)
  else
    let after := router.handle send { s with depth := s.depth + 1 } event
    { after with depth := after.depth - 1 }

/-- Hand an event to the dispatcher and then to every listener. -/
def deliver (router : Router) (send : State → Event → State) (s : State)
    (event : Event) : State :=
  (router.dispatch send s event).hearAll send event

/-- Broadcast an event on loan from a pool that had `idle` events before. With
none there is nothing to lend, and nothing is broadcast. -/
def sender (router : Router) : (idle : Nat) → State → Event → State
  | 0, s, _ => s
  | idle + 1, s, event => router.deliver (router.sender idle) s event

/-- Broadcast an event from an input source. -/
def broadcast (router : Router) (s : State) (event : Event) : State :=
  router.deliver (router.sender s.pool.available) s event

/-- Announce one interface. The caller waits until an event is idle. -/
def startInterface (router : Router) (s : State) (interfaceId : Int32) : State :=
  match router.catalog.build .startInterface [(interfaceField, .int interfaceId)] with
  | .error fault => { s with journal := s.journal.report (.config fault none) }
  | .ok event =>
    (s.circulate (router.sender s.pool.available) fun old => old.copyFrom event).getD s

/-- Announce every interface in order. -/
def startInterfaces (router : Router) (s : State) : State :=
  router.interfaces.foldl router.startInterface s

end CueRouter.Router
