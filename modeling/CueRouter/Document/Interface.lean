import CueRouter.Document.Basic
import CueRouter.Interface

/-!
# Interfaces in documents

An interface is a record with a number and, where they are given, a name, a
list of variables and a list of bindings. A variable is a record of texts, and
a binding an object of texts, of which a later one replaces an earlier one of
the same name. What is absent is left out when an interface is written.
-/

namespace CueRouter

open Document

namespace VariableDeclaration

/-- The names of the fields, in order. -/
def fieldNames : List String := ["name", "type", "value"]

/-- The declaration of a record. -/
def ofRecord? (record : Record) : Option VariableDeclaration := do
  let name ← record.require? "name" Json.toText?
  let typeName ← record.require? "type" Json.toText?
  let initializer ← record.readOr? "value" none (Json.toOptional? Json.toText?)
  return { name, typeName, initializer }

/-- The declaration that a value describes. -/
def ofJson? (value : Json) : Option VariableDeclaration :=
  (Record.ofJson? fieldNames value).bind ofRecord?

/-- The declaration as a value. -/
def toJson (declaration : VariableDeclaration) : Json :=
  .ofMembers ([("name", .ofString declaration.name),
      ("type", .ofString declaration.typeName)] ++
    presentMember "value" (declaration.initializer.map Json.ofString))

end VariableDeclaration

namespace Declaration

/-- An attribute with its text. -/
def attribute? (member : String × Json) : Option (String × String) :=
  member.2.toText?.map fun text => (member.1, text)

/-- The declaration that a value describes. -/
def ofJson? (value : Json) : Option Declaration :=
  (value.toMembers?.bind fun members => members.mapM attribute?).map ofPairs

/-- The declaration as a value. -/
def toJson (declaration : Declaration) : Json :=
  .ofMembers (declaration.attributes.map fun pair => (pair.1, .ofString pair.2))

end Declaration

namespace Interface

/-- The names of the fields, in order. -/
def fieldNames : List String := ["id", "name", "variables", "bindings"]

/-- The interface of a record. -/
def ofRecord? (record : Record) : Option Interface := do
  let id ← record.require? "id" readInt32?
  let name ← record.readOr? "name" none (Json.toOptional? Json.toText?)
  let declarations ← record.readOr? "variables" []
    (readList? VariableDeclaration.ofJson?)
  let bindings ← record.readOr? "bindings" [] (readList? Declaration.ofJson?)
  return { id, name, declarations, bindings }

/-- The interface that a value describes. -/
def ofJson? (value : Json) : Option Interface :=
  (Record.ofJson? fieldNames value).bind ofRecord?

/-- The interface as a value. -/
def toJson (interface : Interface) : Json :=
  .ofMembers ([("id", .ofInt interface.id.toInt)] ++
    presentMember "name" (interface.name.map Json.ofString) ++
    [("variables", .array (interface.declarations.map VariableDeclaration.toJson)),
      ("bindings", .array (interface.bindings.map Declaration.toJson))])

end Interface

end CueRouter
