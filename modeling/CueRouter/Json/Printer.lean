import CueRouter.Json.Escape
import CueRouter.Json.Basic

/-!
# Writing JSON

A value is written without blanks. In a string the quote, the backslash and
control characters are written as escapes, and all others as themselves.
-/

namespace CueRouter.Json

open Text

/-- The short escape for a character, if there is one to write. -/
def escapeFor? (c : Char) : Option Char :=
  if c == '/' then none
  else (shortEscapes.find? fun escape => escape.2 == c).map Prod.fst

/-- A character as it stands in a string. -/
def writeChar (c : Char) : List Char :=
  match escapeFor? c with
  | some short => ['\\', short]
  | none =>
    if isControl c then
      '\\' :: 'u' :: Hexadecimal.write 4 c.toNat
    else [c]

/-- A text between quotes. -/
def writeText (s : String) : List Char :=
  '"' :: (s.toList.flatMap writeChar ++ ['"'])

/-- A string; one without a text is written as half of a surrogate pair. -/
def writeString : Option String → List Char
  | some s => writeText s
  | none => "\"\\ud800\"".toList

mutual

/-- The characters of a value. -/
def write : Json → List Char
  | null => "null".toList
  | bool true => "true".toList
  | bool false => "false".toList
  | whole negative magnitude =>
    (if negative then ['-'] else []) ++ Numeral.digits magnitude
  | decimal numeral => numeral.toList
  | text content => writeString content
  | array [] => ['\x5b', '\x5d']
  | array (item :: items) => '\x5b' :: (write item ++ writeItems items)
  | object [] => ['\x7b', '\x7d']
  | object ((name, value) :: members) =>
    '\x7b' :: (writeString name ++ ':' :: (write value ++ writeMembers members))

/-- The items of an array after the first, and its end. -/
def writeItems : List Json → List Char
  | [] => ['\x5d']
  | item :: items => ',' :: (write item ++ writeItems items)

/-- The members of an object after the first, and its end. -/
def writeMembers : List (Option String × Json) → List Char
  | [] => ['\x7d']
  | (name, value) :: members =>
    ',' :: (writeString name ++ ':' :: (write value ++ writeMembers members))

end

/-- The document of a value. -/
def toDocument (value : Json) : String := String.ofList (write value)

end CueRouter.Json
