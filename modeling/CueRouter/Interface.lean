import CueRouter.Binding.Declaration

/-!
# Interfaces

An interface is a set of variables and bindings with a number of its own, by
which its events are told from those of other interfaces. A setup for a
performance usually loads several.
-/

namespace CueRouter

/-- A variable as configuration declares it. -/
structure VariableDeclaration where
  /-- The name. -/
  name : String
  /-- The name of its kind. -/
  typeName : String
  /-- The literal of its first value. -/
  initializer : Option String := none
  deriving DecidableEq

/-- Everything that one interface declares. -/
structure Interface where
  /-- The number of the interface. -/
  id : Int32
  /-- A name for display. -/
  name : Option String := none
  /-- The variables in order. -/
  declarations : List VariableDeclaration := []
  /-- The bindings in order. -/
  bindings : List Declaration := []
  deriving DecidableEq

/-- The name that messages show. -/
def Interface.shownName (interface : Interface) : String :=
  interface.name.getD "unnamed"

end CueRouter
