import CueRouter.Json.Parser
import CueRouter.Json.Printer

/-!
# Documents

Settings and interfaces come from JSON documents. A document fails when its
file cannot be read, when it is no JSON, or when it does not have the shape of
what it should describe. In a document a record is an object with its fields by
name, or an array with its fields in order. Other members of the object are
ignored, but every name has a text and no field is given twice. Fields at the
end of the array may be missing, and it has no more items than there are
fields. A choice by name is a string, or an object whose one member has that
name and the null value.
-/

namespace CueRouter.Document

/-- Why a document is rejected. -/
inductive Fault where
  /-- The file cannot be read. -/
  | unreadable
  /-- The text does not describe what it should. -/
  | malformed
  deriving DecidableEq

variable {α : Type}

/-- What a document describes. -/
def read (decode : Json → Option α) (document : String) : Except Fault α :=
  match (Json.ofText? document).bind decode with
  | some value => .ok value
  | none => .error .malformed

/-- What the document in a file describes, given the contents of the file if it
can be read. -/
def load (decode : Json → Option α) : (contents : Option String) → Except Fault α
  | some document => read decode document
  | none => .error .unreadable

/-- The fields of a record that a document gives. -/
structure Record where
  /-- The given fields, each name once. -/
  fields : List (String × Json)

namespace Record

/-- The record of an object with the given members. -/
def ofMembers? (names : List String) (members : List (String × Json)) : Option Record :=
  let known := members.filter fun member => names.contains member.1
  if (known.map Prod.fst).Nodup then some ⟨known⟩ else none

/-- The record of an array with the given items. -/
def ofItems? (names : List String) (items : List Json) : Option Record :=
  if items.length ≤ names.length then some ⟨names.zip items⟩ else none

/-- The record with the named fields that a value describes. -/
def ofJson? (names : List String) (value : Json) : Option Record :=
  match value.toItems? with
  | some items => ofItems? names items
  | none => value.toMembers?.bind (ofMembers? names)

/-- The value of a field. -/
def get? (record : Record) (name : String) : Option Json :=
  (record.fields.find? fun field => field.1 == name).map Prod.snd

/-- What a field reads as, which must be given. -/
def require? (record : Record) (name : String) (decode : Json → Option α) : Option α :=
  (record.get? name).bind decode

/-- What a field reads as, and `fallback` where it is not given. -/
def readOr? (record : Record) (name : String) (fallback : α)
    (decode : Json → Option α) : Option α :=
  match record.get? name with
  | some value => decode value
  | none => some fallback

end Record

/-- The choice that a value names. -/
def readChoice? (ofName? : String → Option α) : Json → Option α
  | .text name => name.bind ofName?
  | .object [(some name, .null)] => ofName? name
  | _ => none

/-- The values of a list. -/
def readList? (decode : Json → Option α) (value : Json) : Option (List α) :=
  value.toItems?.bind fun items => items.mapM decode

/-- The number of 32 signed bits that a value denotes. -/
def readInt32? (value : Json) : Option Int32 :=
  (value.toWhole? Text.Numeral.signed32).map Int32.ofInt

/-- The natural number within the bounds that a value denotes. -/
def readNat? (bounds : Text.Numeral.Bounds) (value : Json) : Option Nat :=
  (value.toWhole? bounds).map Int.toNat

/-- A member for a value that is there. -/
def presentMember (name : String) : Option Json → List (String × Json)
  | some value => [(name, value)]
  | none => []

end CueRouter.Document
