import CueRouter.Binding.Compile
import CueRouter.Dispatch.Route
import CueRouter.Interface
import CueRouter.Settings

/-!
# Setting up an engine

Variables, bindings and listeners are collected step by step, and a finished
setup becomes an engine. A declaration with a fault is reported and skipped, so
that one slip does not spoil a whole setup. Every setup starts with one system
variable, the MIDI transpose, which is therefore the variable at handle zero.
-/

namespace CueRouter

/-- The name of the system variable that holds the MIDI transpose. -/
def transposeName : String := "SYSTEM_midi_transpose"

/-- A router and the state that it routes in. -/
structure Engine where
  /-- What stays fixed. -/
  router : Router
  /-- What changes. -/
  state : State

/-- What has been configured so far. -/
structure Setup where
  /-- Sizes and switches. -/
  settings : Settings
  /-- The schemas of the event types. -/
  catalog : Catalog
  /-- The declared variables. -/
  store : Store
  /-- The compiled bindings. -/
  table : Table
  /-- What has been said and reported. -/
  journal : Journal
  /-- The table of key names. -/
  keys : KeyNames
  /-- The shared cell that holds the MIDI transpose. -/
  transpose : SharedCell
  /-- The interfaces in the order they were first mentioned. -/
  interfaces : List Int32
  /-- The listeners in order of subscription. -/
  listeners : List Listener

namespace Setup

/-- The answer of one step, and the setup after it. -/
structure Outcome (α : Type) where
  /-- What the step answers. -/
  answer : α
  /-- The setup after the step. -/
  setup : Setup

/-- Report a fault in a piece of configuration. -/
def report (setup : Setup) (fault : ConfigFault) (context : String) : Setup :=
  { setup with journal := setup.journal.report (.config fault (some context)) }

/-- Take over a declared variable, or report why its name was rejected. -/
def settle (setup : Setup) (name : String) :
    Except ConfigFault Store.Declared → Outcome (Option Handle)
  | .ok declared => ⟨some declared.handle, { setup with store := declared.store }⟩
  | .error fault => ⟨none, setup.report fault name⟩

/-- Declare a variable. -/
def declareVariable (setup : Setup) (name typeName : String)
    (initializer : Option String) : Outcome (Option Handle) :=
  setup.settle name (setup.store.declare name typeName initializer)

/-- Offer a cell that variables can be linked to. -/
def share (setup : Setup) (cell : Cell) : Setup :=
  { setup with store := setup.store.share cell }

/-- Make a variable a system variable on a shared cell, declaring it first if
need be. -/
def linkVariable (setup : Setup) (name : String) (shared : SharedCell) :
    Outcome (Option Handle) :=
  setup.settle name (setup.store.declareLinked name shared)

/-- The setup before any configuration. -/
def ofSettings (settings : Settings) (keys : KeyNames) (sink : Sink) : Setup :=
  let bare : Setup :=
    { settings := settings
      catalog := .standard settings.keyBuckets
      store := .empty
      table := .empty
      journal := { sink := sink }
      keys := keys
      transpose := Store.empty.nextShared
      interfaces := []
      listeners := [] }
  ((bare.share (.ofValue (.int 0))).linkVariable transposeName bare.transpose).setup

/-- Remember an interface to announce. -/
def mention (setup : Setup) (interfaceId : Int32) : Setup :=
  if setup.interfaces.contains interfaceId then setup
  else { setup with interfaces := setup.interfaces ++ [interfaceId] }

/-- What bindings are compiled against. -/
def compiler (setup : Setup) : Compiler := ⟨setup.catalog, setup.store, setup.keys⟩

/-- The text that complaints about a rejected binding show. -/
def bindingContext (declaration : Declaration) : String :=
  (declaration.get? "input").getD "binding"

/-- Compile a binding declared under an interface; the answer is the number of
bindings it added. -/
def addBinding (setup : Setup) (declaration : Declaration) (interfaceId : Int32) :
    Outcome Nat :=
  let setup := setup.mention interfaceId
  let installed := setup.compiler.install setup.table setup.journal declaration
    interfaceId
  let after := { setup with table := installed.table, journal := installed.journal }
  match installed.result with
  | .ok count => ⟨count, after⟩
  | .error fault => ⟨0, after.report fault (bindingContext declaration)⟩

/-- Declare one variable of an interface. -/
def addVariable (setup : Setup) (declaration : VariableDeclaration) : Setup :=
  (setup.declareVariable declaration.name declaration.typeName
    declaration.initializer).setup

/-- Compile bindings declared under an interface, in order. -/
def addBindings (setup : Setup) (interfaceId : Int32) : List Declaration → Outcome Nat
  | [] => ⟨0, setup⟩
  | declaration :: rest =>
    let first := setup.addBinding declaration interfaceId
    let others := first.setup.addBindings interfaceId rest
    ⟨first.answer + others.answer, others.setup⟩

/-- The message about a loaded interface. -/
def loadMessage (interface : Interface) (added : Nat) : String :=
  "interface " ++ Text.Numeral.text interface.id.toInt ++ " (" ++
    interface.shownName ++ "): " ++ Text.Numeral.text added ++ " binding(s)"

/-- Declare the variables of an interface and then compile its bindings; the
answer is the number of bindings added. -/
def loadInterface (setup : Setup) (interface : Interface) : Outcome Nat :=
  let declared := interface.declarations.foldl addVariable (setup.mention interface.id)
  let bound := declared.addBindings interface.id interface.bindings
  ⟨bound.answer,
    { bound.setup with
      journal := bound.setup.journal.note .debug (loadMessage interface bound.answer) }⟩

/-- Let a listener hear every broadcast after those before it. -/
def subscribe (setup : Setup) (listener : Listener) : Setup :=
  { setup with listeners := setup.listeners ++ [listener] }

/-- The engine of the setup. Dispatches may nest at least once. -/
def build (setup : Setup) : Engine where
  router :=
    { catalog := setup.catalog
      table := setup.table
      transpose := setup.transpose
      interfaces := setup.interfaces
      depthLimit := max setup.settings.depthLimit 1 }
  state :=
    { store := setup.store
      pool := .ofCapacity setup.settings.poolSize
      journal := setup.journal
      listeners := setup.listeners
      debug := setup.settings.debug }

end Setup

end CueRouter
