import CueRouter.Text.Numeral

/-!
# JSON values

A document is a JSON value. What readers of a document tell apart is kept: a
whole number is apart from a number written with a fraction or an exponent, the
members of an object stand in their order with repeated names, and a string
whose escapes hold half of a surrogate pair is a string without a text.
-/

namespace CueRouter

open Text

/-- A JSON value. -/
inductive Json where
  /-- The null value. -/
  | null
  /-- A truth value. -/
  | bool (value : Bool)
  /-- A number without fraction and exponent. -/
  | whole (negative : Bool) (magnitude : Nat)
  /-- A number with a fraction or an exponent, as it is written. -/
  | decimal (numeral : String)
  /-- A string, and its text if it has one. -/
  | text (content : Option String)
  /-- Values in order. -/
  | array (items : List Json)
  /-- Named values in order. -/
  | object (members : List (Option String × Json))
  deriving Inhabited

namespace Json

/-- The string with the given text. -/
def ofString (s : String) : Json := text (some s)

/-- The whole number. -/
def ofInt (n : Int) : Json := whole (decide (n < 0)) n.natAbs

/-- The object with the named values in order. -/
def ofMembers (members : List (String × Json)) : Json :=
  object (members.map fun member => (some member.1, member.2))

/-- The text of a string. -/
def toText? : Json → Option String
  | text content => content
  | _ => none

/-- The truth value. -/
def toBool? : Json → Option Bool
  | bool value => some value
  | _ => none

/-- The whole number within the bounds. Zero with a minus sign is none. -/
def toWhole? (bounds : Numeral.Bounds) : Json → Option Int
  | whole false n => if bounds.admits n then some n else none
  | whole true n =>
    if n ≠ 0 && bounds.admits (-n) then some (-n) else none
  | _ => none

/-- The items of an array. -/
def toItems? : Json → Option (List Json)
  | array items => some items
  | _ => none

/-- A member with the text of its name. -/
def named? (member : Option String × Json) : Option (String × Json) :=
  member.1.map fun name => (name, member.2)

/-- The members of an object, if every name has a text. -/
def toMembers? : Json → Option (List (String × Json))
  | object members => members.mapM named?
  | _ => none

/-- What the value reads as by `read`, with null for absence. -/
def toOptional? {α : Type} (read : Json → Option α) : Json → Option (Option α)
  | null => some none
  | value => (read value).map some

/-- A whole number within the bounds is read back. -/
theorem toWhole?_ofInt {bounds : Numeral.Bounds} {n : Int}
    (h : bounds.admits n = true) : (ofInt n).toWhole? bounds = some n := by
  by_cases negative : n < 0
  · have same : ofInt n = whole true n.natAbs := by rw [ofInt, decide_eq_true negative]
    have back : -(n.natAbs : Int) = n := by omega
    have nonzero : n.natAbs ≠ 0 := by omega
    have admitted : (decide (n.natAbs ≠ 0) && bounds.admits (-(n.natAbs : Int))) = true := by
      rw [back, h, decide_eq_true nonzero, Bool.and_self]
    rw [same, toWhole?, if_pos admitted, back]
  · have same : ofInt n = whole false n.natAbs := by rw [ofInt, decide_eq_false negative]
    have back : (n.natAbs : Int) = n := by omega
    rw [same, toWhole?, back, if_pos h]

end Json

end CueRouter
