import CueRouter.Fault
import CueRouter.Text.Blank
import CueRouter.Value.Literal
import CueRouter.Value.Printer
import CueRouter.Variable.Cell

/-!
# The variable store

Variables are named and addressed by their position. A variable owns its cell,
or it is a system variable and reads through to a cell that another subsystem
shares and alone writes to. Names are trimmed, never empty and never repeated;
a rejected declaration changes nothing. Events write through `Store.set`, which
refuses system variables; owners write through `Store.publish`.
-/

namespace CueRouter

open Text

/-- Identifies a cell that another subsystem shares. -/
structure SharedCell where
  /-- Its position among the shared cells. -/
  index : Nat
  deriving DecidableEq

/-- Where the value of a variable lives. -/
inductive Storage where
  /-- In a cell of the variable's own. -/
  | owned (cell : Cell)
  /-- In a cell that another subsystem shares. -/
  | linked (shared : SharedCell)
  deriving DecidableEq

/-- A named variable. -/
structure Variable where
  /-- The name, trimmed. -/
  name : String
  /-- Where the value lives. -/
  storage : Storage
  deriving DecidableEq

/-- Whether another subsystem owns the variable's storage. -/
def Variable.isSystem (v : Variable) : Bool :=
  match v.storage with
  | .owned _ => false
  | .linked _ => true

/-- All variables, and all cells that other subsystems share. -/
structure Store where
  /-- The variables in order of declaration. -/
  entries : List Variable := []
  /-- The shared cells in the order they were offered. -/
  shared : List Cell := []

namespace Store

/-- A store with nothing in it. -/
def empty : Store := {}

/-- The number of variables. -/
def size (store : Store) : Nat := store.entries.length

/-! ## Reading -/

/-- The shared cell, if there is one. -/
def cell? (store : Store) (shared : SharedCell) : Option Cell :=
  store.shared[shared.index]?

/-- The value of a shared cell. -/
def sharedValue (store : Store) (shared : SharedCell) : Value :=
  ((store.cell? shared).map Cell.content).getD .invalid

/-- The kind of a shared cell. -/
def sharedKind (store : Store) (shared : SharedCell) : Kind :=
  ((store.cell? shared).map Cell.kind).getD .invalid

/-- The variable at a handle. -/
def get? (store : Store) (handle : Handle) : Option Variable :=
  store.entries[handle.index]?

/-- The value of a variable of the store. -/
def valueOf (store : Store) (v : Variable) : Value :=
  match v.storage with
  | .owned cell => cell.content
  | .linked shared => store.sharedValue shared

/-- The kind of a variable of the store. -/
def kindOf (store : Store) (v : Variable) : Kind :=
  match v.storage with
  | .owned cell => cell.kind
  | .linked shared => store.sharedKind shared

/-- The value at a handle, invalid for an unknown one. -/
def value (store : Store) (handle : Handle) : Value :=
  ((store.get? handle).map store.valueOf).getD .invalid

/-- The handle of the variable with this name, blank ends aside. -/
def lookup (store : Store) (name : String) : Option Handle :=
  (store.entries.findIdx? fun v => v.name == trim name).map Handle.mk

/-! ## Declaring and linking -/

/-- The outcome of a declaration. -/
structure Declared where
  /-- The handle of the variable. -/
  handle : Handle
  /-- The store with the variable in it. -/
  store : Store

/-- Declare a variable of the given kind and first value. -/
def declareValue (store : Store) (name : String) (kind : Kind) (initial : Value) :
    Except ConfigFault Declared :=
  let name := trim name
  if name.isEmpty then .error (.malformedToken name)
  else if !kind.isDeclarable then .error (.unsupportedVariableType kind.name)
  else if (store.lookup name).isSome then .error (.duplicateVariable name)
  else
    let added : Variable := ⟨name, .owned (.ofKind kind initial)⟩
    .ok ⟨⟨store.size⟩, { store with entries := store.entries ++ [added] }⟩

/-- The kind that a declaration names. -/
def declaredKind (typeName : String) : Except ConfigFault Kind :=
  match Kind.ofText? (trim typeName) with
  | some kind =>
    if kind.isDeclarable then .ok kind
    else .error (.unsupportedVariableType typeName)
  | none => .error (.unsupportedVariableType typeName)

/-- The first value that a declaration gives: the literal of its initializer, or
the zero of the kind where that is absent or blank. -/
def declaredValue (kind : Kind) (initializer : Option String) :
    Except ConfigFault Value :=
  let literal := trim (initializer.getD "")
  if literal.isEmpty then .ok kind.zero
  else (Value.ofLiteral literal).map fun v => v.convert kind

/-- Declare a variable from configuration text. -/
def declare (store : Store) (name typeName : String) (initializer : Option String) :
    Except ConfigFault Declared := do
  let kind ← declaredKind typeName
  let initial ← declaredValue kind initializer
  store.declareValue name kind initial

/-- The handle that the next shared cell will have. -/
def nextShared (store : Store) : SharedCell := ⟨store.shared.length⟩

/-- Offer another shared cell. -/
def share (store : Store) (cell : Cell) : Store :=
  { store with shared := store.shared ++ [cell] }

/-- The store with other storage behind the variable at a handle. -/
def withStorage (store : Store) (handle : Handle) (storage : Storage) : Store :=
  { store with
    entries := store.entries.modify handle.index fun v =>
      { v with storage := storage } }

/-- Turn a declared variable into a system variable on a shared cell. -/
def link (store : Store) (name : String) (shared : SharedCell) :
    Except ConfigFault Declared :=
  match store.lookup name with
  | some handle => .ok ⟨handle, store.withStorage handle (.linked shared)⟩
  | none => .error (.unknownVariable name)

/-- Link a variable to a shared cell, declaring it first if need be. -/
def declareLinked (store : Store) (name : String) (shared : SharedCell) :
    Except ConfigFault Declared :=
  match store.lookup name with
  | some _ => store.link name shared
  | none => do
    let kind := store.sharedKind shared
    let declared ← store.declareValue name kind kind.zero
    declared.store.link name shared

/-! ## Writing -/

/-- The outcome of a write. -/
structure Written where
  /-- The value that was stored. -/
  stored : Value
  /-- The store that holds it. -/
  store : Store

/-- The name that faults of a refused write carry. -/
def writtenField : String := "var"

/-- Write to a variable on behalf of an event. -/
def set (store : Store) (handle : Handle) (v : Value) :
    Except DispatchFault Written :=
  match store.get? handle with
  | none => .error (.invalidValue writtenField)
  | some found =>
    match found.storage with
    | .linked _ => .error (.systemVariable found.name)
    | .owned cell =>
      let stored := cell.accepts v
      if stored.isValid then
        .ok ⟨stored, store.withStorage handle (.owned (cell.write v))⟩
      else .error (.invalidValue writtenField)

/-- Write to a shared cell on behalf of its owner. -/
def publish (store : Store) (shared : SharedCell) (v : Value) : Store :=
  { store with shared := store.shared.modify shared.index fun cell => cell.write v }

/-- What publishing the value stores. -/
def published (store : Store) (shared : SharedCell) (v : Value) : Value :=
  v.convert (store.sharedKind shared)

/-! ## Describing -/

/-- The value as a text, naming the variable that a reference refers to. -/
def display (store : Store) (v : Value) : String :=
  match v.toHandle?.bind store.get? with
  | some found => "&" ++ found.name
  | none => v.text

/-- The variable at a handle with its value. -/
def describe (store : Store) (handle : Handle) : String :=
  match store.get? handle with
  | some found => found.name ++ " = " ++ store.display (store.valueOf found)
  | none => "<unknown variable " ++ handle.text ++ ">"

end Store

end CueRouter
