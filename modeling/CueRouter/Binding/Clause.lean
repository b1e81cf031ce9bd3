import CueRouter.Expression.Basic
import CueRouter.Text.Split

/-!
# Clauses

Conditions and parameters are clauses `name = expression`, joined by the word
`and` between spaces. As a condition a clause asks whether its target agrees
with its expression; as an assignment it writes the value of the expression
into a field of an output, converted to the kind of the field. In text, blank
clauses are dropped, and a clause has exactly one equals sign with a name in
front of it.
-/

namespace CueRouter

open Text

/-- A target with the expression it is compared with or set to. -/
structure Clause where
  /-- What the clause is about. -/
  target : Token
  /-- The other side. -/
  expression : Expression
  deriving DecidableEq

namespace Clause

/-- Whether the clause holds as a condition on an event. -/
def holds (clause : Clause) (event : Event) (store : Store) : Bool :=
  (clause.target.evaluate event store).agrees
    (clause.expression.evaluate event store)

/-- The output with the value of the clause in its field, computed from the
input. A target that is no field changes nothing. -/
def assign (clause : Clause) (input : Event) (store : Store) (output : Event) :
    Event :=
  match clause.target with
  | .field index kind =>
    output.setField index ((clause.expression.evaluate input store).convert kind)
  | _ => output

end Clause

/-- The two sides of a clause in text, trimmed. -/
structure ClauseText where
  /-- The side in front of the equals sign. -/
  name : String
  /-- The side behind it. -/
  expression : String
  deriving DecidableEq

/-- The clauses of a text, trimmed, the blank ones dropped. -/
def splitClauses (text : String) : List String :=
  ((splitOn ' ' ['a', 'n', 'd', ' '] text.toList).map
      fun clause => String.ofList (trimChars clause)).filter
    fun clause => !clause.isEmpty

/-- The two sides of one clause. -/
def splitClause (clause : String) : Except ConfigFault ClauseText :=
  match splitAtFirst '=' clause.toList with
  | none => .error (.missingEquals clause)
  | some (name, expression) =>
    if expression.contains '=' then .error (.missingSeparator clause)
    else if (trimChars name).isEmpty then .error (.malformedToken clause)
    else .ok ⟨String.ofList (trimChars name), String.ofList (trimChars expression)⟩

end CueRouter
