import CueRouter.Event.Type
import CueRouter.Text.Numeral

/-!
# Faults

Two families of faults. A configuration fault rejects a declaration or one
clause of it; a dispatch fault drops one action while events are routed. Each
has one wording.
-/

namespace CueRouter

/-- Why a declaration, or a piece of one, is rejected. -/
inductive ConfigFault where
  /-- No event type has this name. -/
  | unknownEvent (name : String)
  /-- The event type has no field of this name. -/
  | unknownField (event : EventType) (field : String)
  /-- The name is neither a field nor a declared variable. -/
  | unknownVariable (name : String)
  /-- A variable of this name is already declared. -/
  | duplicateVariable (name : String)
  /-- Variables cannot be declared with this kind. -/
  | unsupportedVariableType (name : String)
  /-- A clause has no equals sign. -/
  | missingEquals (clause : String)
  /-- A clause has more than one equals sign. -/
  | missingSeparator (clause : String)
  /-- A text is neither a name in scope nor a literal. -/
  | malformedToken (text : String)
  /-- An operand is missing. -/
  | emptyExpression
  /-- A reference is not given by a single variable name. -/
  | referenceNotVariable (text : String)
  /-- A declaration lacks this attribute. -/
  | missingAttribute (name : String)
  /-- Bindings cannot be declared on this event type. -/
  | notBindable (event : EventType)
  /-- Nothing reads this attribute. -/
  | unknownAttribute (name : String)
  deriving DecidableEq

/-- The name of a kind of configuration fault, for tools that sort faults. -/
def ConfigFault.name : ConfigFault → String
  | unknownEvent _ => "UnknownEvent"
  | unknownField _ _ => "UnknownField"
  | unknownVariable _ => "UnknownVariable"
  | duplicateVariable _ => "DuplicateVariable"
  | unsupportedVariableType _ => "UnsupportedVariableType"
  | missingEquals _ => "MissingEquals"
  | missingSeparator _ => "MissingSeparator"
  | malformedToken _ => "MalformedToken"
  | emptyExpression => "EmptyExpression"
  | referenceNotVariable _ => "ReferenceNotVariable"
  | missingAttribute _ => "MissingAttribute"
  | notBindable _ => "NotBindable"
  | unknownAttribute _ => "UnknownAttribute"

/-- The wording of a configuration fault. -/
def ConfigFault.message : ConfigFault → String
  | unknownEvent name => "unknown event type '" ++ name ++ "'"
  | unknownField event field =>
    "event '" ++ event.name ++ "' has no field named '" ++ field ++ "'"
  | unknownVariable name =>
    "'" ++ name ++ "' is neither an event field nor a declared variable"
  | duplicateVariable name => "variable '" ++ name ++ "' was already declared"
  | unsupportedVariableType name => "unsupported variable type '" ++ name ++ "'"
  | missingEquals clause => "clause '" ++ clause ++ "' has no '='"
  | missingSeparator clause =>
    "expected ' and ' between clauses in '" ++ clause ++ "'"
  | malformedToken text => "malformed token '" ++ text ++ "'"
  | emptyExpression => "empty expression"
  | referenceNotVariable text =>
    "'" ++ text ++ "' must name a variable to pass by reference"
  | missingAttribute name => "binding has no '" ++ name ++ "' attribute"
  | notBindable event => "'" ++ event.name ++ "' is not a bindable input event"
  | unknownAttribute name => "unrecognized binding attribute '" ++ name ++ "'"

/-- Why an action is dropped. -/
inductive DispatchFault where
  /-- No idle event was left for an output of this type. -/
  | poolExhausted (event : EventType)
  /-- The indexed field of an event holds no plain number. -/
  | indexNotScalar (event : EventType)
  /-- The variable belongs to another subsystem. -/
  | systemVariable (name : String)
  /-- The field of a control event holds no reference. -/
  | missingReference (event : EventType) (field : String)
  /-- The value for this field is invalid. -/
  | invalidValue (field : String)
  /-- Dispatches are nested as deeply as the limit allows. -/
  | recursionLimit (limit : Nat) (event : EventType)
  deriving DecidableEq

/-- The name of a kind of dispatch fault, for tools that sort faults. -/
def DispatchFault.name : DispatchFault → String
  | poolExhausted _ => "PoolExhausted"
  | indexNotScalar _ => "IndexNotScalar"
  | systemVariable _ => "SystemVariable"
  | missingReference _ _ => "MissingReference"
  | invalidValue _ => "InvalidValue"
  | recursionLimit _ _ => "RecursionLimit"

/-- The wording of a dispatch fault. -/
def DispatchFault.message : DispatchFault → String
  | poolExhausted event =>
    "event pool exhausted while synthesizing '" ++ event.name ++ "'"
  | indexNotScalar event =>
    "indexed field of '" ++ event.name ++ "' does not hold a scalar value"
  | systemVariable name =>
    "variable '" ++ name ++ "' is a system variable and can't be written"
  | missingReference event field =>
    "'" ++ event.name ++ "' field '" ++ field ++ "' does not reference a variable"
  | invalidValue field =>
    "assignment to '" ++ field ++ "' evaluated to an invalid value"
  | recursionLimit limit event =>
    "dispatch depth limit " ++ Text.Numeral.text limit ++ " reached; dropping '"
      ++ event.name ++ "'"

end CueRouter
