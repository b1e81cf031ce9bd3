import CueRouter.Text.Blank
import CueRouter.Text.Numeral

/-!
# Keyboard key names

Configuration refers to keys by name, and the keyboard reports keycodes. A
table of key names answers both ways. The standard table ignores blank ends and
the case of ASCII letters, and names a keycode by the first entry that has it.
-/

namespace CueRouter

open Text

/-- A table of key names. -/
structure KeyNames where
  /-- The keycode of a name. -/
  code? : String → Option Int32
  /-- The name of a keycode. -/
  name? : Int32 → Option String

namespace KeyNames

/-- One name and its keycode. -/
abbrev Entry := String × Int32

/-- The keycode of the first entry with exactly this name. -/
def findCode (entries : List Entry) (name : String) : Option Int32 :=
  (entries.find? fun entry => entry.1 == name).map Prod.snd

/-- The name of the first entry with this keycode. -/
def findName (entries : List Entry) (code : Int32) : Option String :=
  (entries.find? fun entry => entry.2 == code).map Prod.fst

/-- A table in which names are matched exactly. -/
def exact (entries : List Entry) : KeyNames := ⟨findCode entries, findName entries⟩

/-- The keys that have a word for a name. -/
def wordEntries : List Entry :=
  [("backspace", 8), ("tab", 9), ("clear", 12), ("return", 13), ("pause", 19),
    ("escape", 27), ("space", 32), ("exclaim", 33), ("quotedbl", 34),
    ("hash", 35), ("dollar", 36), ("ampersand", 38), ("quote", 39),
    ("leftparen", 40), ("rightparen", 41), ("asterisk", 42), ("plus", 43),
    ("comma", 44), ("minus", 45), ("period", 46), ("slash", 47), ("colon", 58),
    ("semicolon", 59), ("less", 60), ("equals", 61), ("greater", 62),
    ("question", 63), ("at", 64), ("leftbracket", 91), ("backslash", 92),
    ("rightbracket", 93), ("caret", 94), ("underscore", 95), ("backquote", 96),
    ("delete", 127), ("kp_period", 266), ("kp_divide", 267),
    ("kp_multiply", 268), ("kp_minus", 269), ("kp_plus", 270),
    ("kp_enter", 271), ("kp_equals", 272), ("up", 273), ("down", 274),
    ("right", 275), ("left", 276), ("insert", 277), ("home", 278), ("end", 279),
    ("pageup", 280), ("pagedown", 281), ("numlock", 300), ("capslock", 301),
    ("scrollock", 302), ("rshift", 303), ("lshift", 304), ("rctrl", 305),
    ("lctrl", 306), ("ralt", 307), ("lalt", 308)]

/-- The keys named by their own character, from `first` on. -/
def characterEntries (first : Char) (count : Nat) : List Entry :=
  (List.range count).map fun n =>
    (String.ofList [Char.ofNat (first.toNat + n)], .ofNat (first.toNat + n))

/-- Keys with a common stem and consecutive numbers. -/
def numberedEntries (stem : String) (first last : Nat) (code : Nat) : List Entry :=
  (List.range (last + 1 - first)).map fun n =>
    (stem ++ Numeral.text (first + n : Nat), .ofNat (code + n))

/-- The entries of the standard table. -/
def standardEntries : List Entry :=
  wordEntries ++ characterEntries '0' 10 ++ characterEntries 'a' 26 ++
    numberedEntries "kp" 0 9 256 ++ numberedEntries "f" 1 15 282

/-- A key name without blank ends and in lower case. -/
def foldName (name : String) : String :=
  String.ofList ((trimChars name.toList).map Char.toLower)

/-- The standard table. -/
def standard : KeyNames :=
  ⟨fun name => findCode standardEntries (foldName name), findName standardEntries⟩

end KeyNames

end CueRouter
