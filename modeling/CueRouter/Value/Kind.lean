/-!
# Kinds of values

A kind is what a variable, an event field or an intermediate result is declared
to hold. Five kinds can be declared for variables; the other three describe
event fields that take any value or a live reference, and failed results.
-/

namespace CueRouter

/-- What a variable, an event field or an intermediate result can hold. -/
inductive Kind where
  /-- Unsigned 8 bits. -/
  | byte
  /-- Signed 32 bits. -/
  | int
  /-- Signed 64 bits. -/
  | long
  /-- A floating-point number of 32 bits. -/
  | float
  /-- An inclusive span of integers. -/
  | range
  /-- As a field kind: a value of any kind, unchanged. -/
  | any
  /-- As a field kind: a live reference to a declared variable. -/
  | reference
  /-- The kind of a failed result. -/
  | invalid
  deriving DecidableEq, Inhabited

namespace Kind

/-- Every kind, in the order of declaration. -/
def all : List Kind :=
  [byte, int, long, float, range, any, reference, invalid]

/-- The configuration name of a kind. -/
def name : Kind → String
  | byte => "byte"
  | int => "int"
  | long => "long"
  | float => "float"
  | range => "range"
  | any => "variable"
  | reference => "variable-ref"
  | invalid => "invalid"

/-- The kind of exactly this name. -/
def ofName? (name : String) : Option Kind :=
  all.find? fun kind => kind.name == name

/-- The kind that configuration text names; `char` is a second name of the
byte. -/
def ofText? (text : String) : Option Kind :=
  if text == "char" then some byte else ofName? text

/-- Whether variables may be declared with this kind. -/
def isDeclarable : Kind → Bool
  | byte | int | long | float | range => true
  | any | reference | invalid => false

end Kind

end CueRouter
