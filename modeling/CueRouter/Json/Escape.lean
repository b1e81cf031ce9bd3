import CueRouter.Text.Hexadecimal

/-!
# Strings in JSON

Between its quotes a JSON string holds characters and escapes. An escape stands
for one character, or for a unit of UTF-16 given by four hexadecimal digits;
two units that form a surrogate pair make one character. Control characters
stand in a string only by way of escapes.
-/

namespace CueRouter.Json

/-- A piece of a string. -/
inductive Piece where
  /-- A character as itself or by a short escape. -/
  | char (c : Char)
  /-- A unit of UTF-16. -/
  | unit (value : Nat)
  deriving DecidableEq

/-- What was read, and what follows it. -/
structure Scanned (α : Type) where
  /-- What was read. -/
  value : α
  /-- The characters after it. -/
  rest : List Char

/-- The short escapes, each with the character it stands for. -/
def shortEscapes : List (Char × Char) :=
  [('"', '"'), ('\\', '\\'), ('/', '/'), ('b', Char.ofNat 8), ('f', Char.ofNat 12),
    ('n', '\n'), ('r', '\r'), ('t', '\t')]

/-- The character that a short escape stands for. -/
def shortEscape? (c : Char) : Option Char :=
  (shortEscapes.find? fun escape => escape.1 == c).map Prod.snd

/-- Whether the character stands in a string only by way of an escape. -/
def isControl (c : Char) : Bool := c.toNat < 32

/-- Put one piece in front. -/
def Scanned.consPiece (piece : Piece) (scanned : Scanned (List Piece)) :
    Scanned (List Piece) :=
  ⟨piece :: scanned.value, scanned.rest⟩

/-- The pieces up to the closing quote. -/
def scanPieces : List Char → Option (Scanned (List Piece))
  | [] => none
  | '"' :: rest => some ⟨[], rest⟩
  | '\\' :: 'u' :: a :: b :: c :: d :: rest =>
    match Text.Hexadecimal.read? [a, b, c, d] with
    | some value => (scanPieces rest).map (Scanned.consPiece (.unit value))
    | none => none
  | '\\' :: c :: rest =>
    match shortEscape? c with
    | some plain => (scanPieces rest).map (Scanned.consPiece (.char plain))
    | none => none
  | c :: rest =>
    if isControl c then none
    else (scanPieces rest).map (Scanned.consPiece (.char c))

/-- Whether the unit is the first half of a surrogate pair. -/
def isLeading (unit : Nat) : Bool := 0xD800 ≤ unit && unit < 0xDC00

/-- Whether the unit is the second half of a surrogate pair. -/
def isTrailing (unit : Nat) : Bool := 0xDC00 ≤ unit && unit < 0xE000

/-- The character of a surrogate pair. -/
def pairedChar (leading trailing : Nat) : Char :=
  Char.ofNat (0x10000 + (leading - 0xD800) * 1024 + (trailing - 0xDC00))

/-- The characters of the pieces, unless half of a pair stands alone. -/
def joinPieces? : List Piece → Option (List Char)
  | [] => some []
  | .char c :: rest => (joinPieces? rest).map (c :: ·)
  | .unit value :: rest =>
    if isTrailing value then none
    else if isLeading value then
      match rest with
      | .unit trailing :: more =>
        if isTrailing trailing then
          (joinPieces? more).map (pairedChar value trailing :: ·)
        else none
      | _ => none
    else (joinPieces? rest).map (Char.ofNat value :: ·)

/-- The text of a string, if it has one, from the characters after its opening
quote. -/
def readText? (cs : List Char) : Option (Scanned (Option String)) :=
  (scanPieces cs).map fun scanned =>
    ⟨(joinPieces? scanned.value).map String.ofList, scanned.rest⟩

theorem length_rest_scanPieces {cs : List Char} {scanned : Scanned (List Piece)}
    (h : scanPieces cs = some scanned) : scanned.rest.length ≤ cs.length := by
  fun_induction scanPieces cs generalizing scanned with
  | case1 => cases h
  | case2 rest => cases h; simp
  | case3 a b c d rest value _ ih =>
    obtain ⟨inner, same, rfl⟩ := Option.map_eq_some_iff.mp h
    have := ih same
    simp only [Scanned.consPiece, List.length_cons]
    omega
  | case4 => cases h
  | case5 c rest _ plain _ ih =>
    obtain ⟨inner, same, rfl⟩ := Option.map_eq_some_iff.mp h
    have := ih same
    simp only [Scanned.consPiece, List.length_cons]
    omega
  | case6 => cases h
  | case7 => cases h
  | case8 c rest _ _ _ _ ih =>
    obtain ⟨inner, same, rfl⟩ := Option.map_eq_some_iff.mp h
    have := ih same
    simp only [Scanned.consPiece, List.length_cons]
    omega

/-- Reading a string never makes the text longer. -/
theorem length_rest_readText? {cs : List Char} {scanned : Scanned (Option String)}
    (h : readText? cs = some scanned) : scanned.rest.length ≤ cs.length := by
  obtain ⟨inner, same, rfl⟩ := Option.map_eq_some_iff.mp h
  exact length_rest_scanPieces same

end CueRouter.Json
