import CueRouter.Fault
import CueRouter.Key.Names
import CueRouter.Text.Split

/-!
# Lists of keys

A list of keys is written with commas between the names. Blank ends are removed
from each item and empty items are dropped. A keycode without a name is written
as a number.
-/

namespace CueRouter.KeyNames

open Text

/-- The items of a comma-separated list, trimmed, the empty ones dropped. -/
def listItems (text : String) : List String :=
  ((splitOn ',' [] text.toList).map fun item => String.ofList (trimChars item)).filter
    fun item => !item.isEmpty

/-- The keycode of one item of a list. -/
def readItem (names : KeyNames) (item : String) : Except ConfigFault Int32 :=
  match names.code? item with
  | some code => .ok code
  | none => .error (.malformedToken item)

/-- The keycodes of a list of key names; the first unknown name is at fault. -/
def readList (names : KeyNames) (text : String) : Except ConfigFault (List Int32) :=
  (listItems text).mapM names.readItem

/-- A keycode as an item of a list. -/
def writeItem (names : KeyNames) (code : Int32) : String :=
  (names.name? code).getD (Numeral.text code.toInt)

/-- A list of keycodes as names with commas between them. -/
def writeList (names : KeyNames) (codes : List Int32) : String :=
  String.ofList (joinWith [','] (codes.map fun code => (names.writeItem code).toList))

end CueRouter.KeyNames
