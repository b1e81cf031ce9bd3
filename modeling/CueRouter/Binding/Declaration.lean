import CueRouter.Text.Blank
import CueRouter.Text.Numeral
import CueRouter.Text.Split

/-!
# Binding declarations

A declaration is a set of named attributes: the input, its conditions, whether
to echo, and numbered pairs of outputs and parameters. The number is the suffix
of the attribute's name, and no suffix is number zero. Outputs are taken in
number order, and outputs of one number as the attributes are listed. That
listing may be any: which it is does not follow from the names and texts.
Attributes that nothing reads are strays.
-/

namespace CueRouter

open Text

/-- An output of a declaration with its parameters. -/
structure OutputText where
  /-- The event to broadcast. -/
  event : String
  /-- The clauses that fill its fields. -/
  parameters : String
  deriving DecidableEq

/-- One binding as configuration declares it: a mapping of names to texts,
together with an order in which it lists them. -/
structure Declaration where
  /-- The attributes, each name once, in the order of the listing. -/
  attributes : List (String × String) := []
  deriving DecidableEq

namespace Declaration

/-- The text of an attribute. -/
def get? (declaration : Declaration) (name : String) : Option String :=
  (declaration.attributes.find? fun pair => pair.1 == name).map Prod.snd

/-- Set an attribute, in place of its earlier text if it has one. A new one is
listed last. -/
def set (declaration : Declaration) (name text : String) : Declaration :=
  if (declaration.get? name).isSome then
    ⟨declaration.attributes.map fun pair =>
      if pair.1 == name then (name, text) else pair⟩
  else ⟨declaration.attributes ++ [(name, text)]⟩

/-- The declaration of the attributes, later ones in place of earlier ones of
the same name. -/
def ofPairs (pairs : List (String × String)) : Declaration :=
  pairs.foldl (fun declaration pair => declaration.set pair.1 pair.2) {}

/-- A declaration on an input. -/
def ofInput (input : String) : Declaration := set {} "input" input

/-- Set the conditions. -/
def withConditions (declaration : Declaration) (conditions : String) : Declaration :=
  declaration.set "conditions" conditions

/-- Say whether the input is echoed. -/
def withEcho (declaration : Declaration) (echo : Bool) : Declaration :=
  declaration.set "echo" (if echo then "yes" else "no")

/-- The number of an output suffix, which is a numeral of 32 unsigned bits or
empty. -/
def suffixNumber? (suffix : List Char) : Option Nat :=
  if suffix.isEmpty then some 0
  else (Numeral.read Numeral.unsigned32 suffix).toOption.map Int.toNat

/-- The suffix of an attribute name with the given stem. -/
def suffixAfter? (stem name : String) : Option (List Char) :=
  stripFront stem.toList name.toList

/-- An output with its number. -/
structure NumberedOutput where
  /-- The number of the suffix. -/
  number : Nat
  /-- The output and its parameters. -/
  output : OutputText

/-- The output that an attribute declares, if it declares one. -/
def numberedOutput? (declaration : Declaration) (pair : String × String) :
    Option NumberedOutput := do
  let suffix ← suffixAfter? "output" pair.1
  let number ← suffixNumber? suffix
  let parameters := declaration.get? ("parameters" ++ String.ofList suffix)
  return ⟨number, pair.2, parameters.getD ""⟩

/-- The outputs in number order. Those of one number keep the order of the
listing. -/
def outputs (declaration : Declaration) : List OutputText :=
  let numbered := declaration.attributes.filterMap declaration.numberedOutput?
  (numbered.mergeSort fun a b => decide (a.number ≤ b.number)).map
    NumberedOutput.output

/-- Add an output numbered by how many there are already. -/
def addOutput (declaration : Declaration) (event parameters : String) : Declaration :=
  let count := declaration.outputs.length
  let suffix := if count = 0 then "" else Numeral.text count
  (declaration.set ("output" ++ suffix) event).set ("parameters" ++ suffix) parameters

/-- Whether nothing reads an attribute of this name. -/
def isStray (declaration : Declaration) (name : String) : Bool :=
  if name == "input" || name == "conditions" || name == "echo" then false
  else
    match suffixAfter? "output" name with
    | some suffix => (suffixNumber? suffix).isNone
    | none =>
      match suffixAfter? "parameters" name with
      | some suffix =>
        (suffixNumber? suffix).isNone ||
          (declaration.get? ("output" ++ String.ofList suffix)).isNone
      | none => true

/-- The names of the attributes that nothing reads, in code point order. -/
def strays (declaration : Declaration) : List String :=
  ((declaration.attributes.map Prod.fst).filter declaration.isStray).mergeSort
    fun a b => !decide (b < a)

/-- The texts that ask for an echo. -/
def affirmations : List String := ["yes", "true", "on", "1"]

/-- Whether the declaration asks for an echo of its input. -/
def wantsEcho (declaration : Declaration) : Bool :=
  match declaration.get? "echo" with
  | some text =>
    affirmations.contains
      (String.ofList ((trimChars text.toList).map Char.toLower))
  | none => false

end Declaration

end CueRouter
