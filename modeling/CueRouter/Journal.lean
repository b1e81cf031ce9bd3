import CueRouter.Fault

/-!
# Diagnostics and the journal

A diagnostic is a fault that was reported, with the configuration text it was
found in where that is known. The journal collects what the router has to say:
messages at four levels, and the diagnostics of a collecting journal. Such a
journal notes each report at the level `debug`; a journal that only forwards
reports notes them at the level `warn` and keeps none.
-/

namespace CueRouter

/-- A reported fault. -/
inductive Diagnostic where
  /-- A declaration or a piece of one was skipped. -/
  | config (fault : ConfigFault) (context : Option String)
  /-- An action was dropped. -/
  | dispatch (fault : DispatchFault)
  deriving DecidableEq

/-- The name of the kind of fault that was reported. -/
def Diagnostic.name : Diagnostic → String
  | config fault _ => fault.name
  | dispatch fault => fault.name

/-- The wording of a diagnostic. -/
def Diagnostic.message : Diagnostic → String
  | config fault (some context) =>
    "config: " ++ fault.message ++ " (in '" ++ context ++ "')"
  | config fault none => "config: " ++ fault.message
  | dispatch fault => "dispatch: " ++ fault.message

/-- How important a message is. -/
inductive Level where
  /-- A step of routing or compiling. -/
  | trace
  /-- A report or the end of a larger step. -/
  | debug
  /-- Something worth showing. -/
  | info
  /-- A report that nobody collects. -/
  | warn
  deriving DecidableEq

/-- The name of a level. -/
def Level.name : Level → String
  | trace => "trace"
  | debug => "debug"
  | info => "info"
  | warn => "warn"

/-- A message of the journal. -/
structure Message where
  /-- How important it is. -/
  level : Level
  /-- Its wording. -/
  text : String
  deriving DecidableEq

/-- Where reports go. -/
inductive Sink where
  /-- They are kept. -/
  | collecting
  /-- They are only noted as messages. -/
  | forwarding
  deriving DecidableEq

/-- What has been said and reported so far. -/
structure Journal where
  /-- Where reports go. -/
  sink : Sink := .collecting
  /-- The messages in order. -/
  messages : Array Message := #[]
  /-- The collected diagnostics in order. -/
  diagnostics : Array Diagnostic := #[]

namespace Journal

/-- Add a message. -/
def note (journal : Journal) (level : Level) (text : String) : Journal :=
  { journal with messages := journal.messages.push ⟨level, text⟩ }

/-- Report a diagnostic. -/
def report (journal : Journal) (diagnostic : Diagnostic) : Journal :=
  match journal.sink with
  | .collecting =>
    let noted := journal.note .debug diagnostic.message
    { noted with diagnostics := noted.diagnostics.push diagnostic }
  | .forwarding => journal.note .warn diagnostic.message

/-- Report several diagnostics in order. -/
def reportAll (journal : Journal) (diagnostics : List Diagnostic) : Journal :=
  diagnostics.foldl report journal

/-- Forget the collected diagnostics. -/
def clear (journal : Journal) : Journal := { journal with diagnostics := #[] }

/-- Messages leave the diagnostics alone. -/
@[simp] theorem diagnostics_note (journal : Journal) (level : Level)
    (text : String) :
    (journal.note level text).diagnostics = journal.diagnostics := rfl

/-- A collecting journal keeps each report at the end. -/
theorem diagnostics_report {journal : Journal} (h : journal.sink = .collecting)
    (diagnostic : Diagnostic) :
    (journal.report diagnostic).diagnostics =
      journal.diagnostics.push diagnostic := by
  simp [report, h]

end Journal

end CueRouter
