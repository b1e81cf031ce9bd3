import CueRouter.Event.Schema
import CueRouter.Key.Names
import CueRouter.Variable.Store

/-!
# Operands

An operand of an expression is a variable, a field of the event that is being
routed, or a constant. A piece of text is resolved against a scope, in this
order: a key name where those are allowed, a field of the event, a declared
variable, a literal.
-/

namespace CueRouter

open Text

/-- One operand of an expression. -/
inductive Token where
  /-- Nothing, which evaluates to the invalid value. -/
  | nothing
  /-- The current value of a variable. -/
  | variableAt (handle : Handle)
  /-- The field at a position of the event being routed. -/
  | field (index : Nat) (kind : Kind)
  /-- A constant. -/
  | constant (value : Value)
  deriving DecidableEq, Inhabited

namespace Token

/-- Whether the operand has the same value for every event and store. -/
def isConstant : Token → Bool
  | constant _ => true
  | _ => false

/-- The current value of the operand. -/
def evaluate (token : Token) (event : Event) (store : Store) : Value :=
  match token with
  | nothing => .invalid
  | variableAt handle => store.value handle
  | field index _ => event.field index
  | constant value => value

/-- The operand that reads a field. -/
def ofField (f : Field) : Token := .field f.index f.kind

/-- A constant evaluates to itself for every event and store. -/
theorem evaluate_of_isConstant {token : Token} (h : token.isConstant = true)
    (e e' : Event) (s s' : Store) : token.evaluate e s = token.evaluate e' s' := by
  cases token <;> first | rfl | cases h

end Token

/-- What names in an expression can refer to. -/
structure Scope where
  /-- The event type whose fields are in scope, if any. -/
  schema : Option Schema
  /-- The declared variables. -/
  store : Store
  /-- The table of key names. -/
  keys : KeyNames

namespace Scope

/-- The key constant that trimmed text names, where key names are allowed. -/
def keyToken? (scope : Scope) (text : String) (keyNames : Bool) : Option Token :=
  if keyNames then (scope.keys.code? text).map fun code => .constant (.int code)
  else none

/-- The field that trimmed text names. -/
def fieldToken? (scope : Scope) (text : String) : Option Token :=
  (scope.schema.bind fun schema => schema.find? text).map Token.ofField

/-- The variable that trimmed text names. -/
def variableToken? (scope : Scope) (text : String) : Option Token :=
  (scope.store.lookup text).map Token.variableAt

/-- Resolve one operand. -/
def readToken (scope : Scope) (text : String) (keyNames : Bool) :
    Except ConfigFault Token :=
  let text := trim text
  if text.isEmpty then .error .emptyExpression
  else
    match (scope.keyToken? text keyNames).or
        ((scope.fieldToken? text).or (scope.variableToken? text)) with
    | some token => .ok token
    | none => (Value.ofLiteral text).map Token.constant

end Scope

end CueRouter
