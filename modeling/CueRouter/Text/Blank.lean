/-!
# Blank characters and trimming

Configuration text is trimmed at both ends before it is read. The blank
characters are those with the Unicode property White_Space, 25 code points in
ten closed ranges; the table extends the four that core calls whitespace.
Trimming removes the longest blank run at either end and nothing else.
-/

namespace CueRouter.Text

/-- The closed ranges of code points with the property White_Space, ascending
and apart. -/
def blankRanges : List (Nat × Nat) :=
  [(0x09, 0x0D), (0x20, 0x20), (0x85, 0x85), (0xA0, 0xA0), (0x1680, 0x1680),
    (0x2000, 0x200A), (0x2028, 0x2029), (0x202F, 0x202F), (0x205F, 0x205F),
    (0x3000, 0x3000)]

/-- Whether the character counts as white space. -/
def isBlank (c : Char) : Bool :=
  blankRanges.any fun r => r.1 ≤ c.toNat && c.toNat ≤ r.2

/-- The characters left when the leading blank run is removed. -/
def trimLeft (cs : List Char) : List Char := cs.dropWhile isBlank

/-- The characters left when the trailing blank run is removed. -/
def trimRight (cs : List Char) : List Char :=
  (cs.reverse.dropWhile isBlank).reverse

/-- The characters without the blank runs at both ends. -/
def trimChars (cs : List Char) : List Char := trimRight (trimLeft cs)

/-- The text without the blank runs at both ends. -/
def trim (s : String) : String := String.ofList (trimChars s.toList)

/-- A trimmed text is the trimming of its characters. -/
theorem toList_trim (s : String) : (trim s).toList = trimChars s.toList := by
  simp [trim]

end CueRouter.Text
