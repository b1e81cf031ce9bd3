import CueRouter.Json.Basic
import CueRouter.Json.Escape
import CueRouter.Text.Split

/-!
# Lexemes of JSON

A document is a sequence of lexemes with blanks between them: six marks, three
words, numbers and strings. A number has no leading zeros, and a point or an
exponent mark is followed by digits.
-/

namespace CueRouter.Json

open Text

/-- A smallest part of a document. -/
inductive Lexeme where
  /-- The opening bracket. -/
  | openArray
  /-- The closing bracket. -/
  | closeArray
  /-- The opening brace. -/
  | openObject
  /-- The closing brace. -/
  | closeObject
  /-- The comma. -/
  | comma
  /-- The colon. -/
  | colon
  /-- A value that is not put together from others. -/
  | scalar (value : Json)

/-- The marks with their lexemes. -/
def marks : List (Char × Lexeme) :=
  [('\x5b', .openArray), ('\x5d', .closeArray), ('\x7b', .openObject),
    ('\x7d', .closeObject), (',', .comma), (':', .colon)]

/-- The words with their values. -/
def words : List (List Char × Json) :=
  [("null".toList, .null), ("true".toList, .bool true), ("false".toList, .bool false)]

/-- Whether the character may stand between lexemes. -/
def isSpace (c : Char) : Bool := c == ' ' || c == '\n' || c == '\t' || c == '\r'

/-- The digits at the front, of which there must be one. -/
def scanDigits (cs : List Char) : Option (Scanned (List Char)) :=
  let digits := cs.takeWhile Numeral.isDigit
  if digits.isEmpty then none else some ⟨digits, cs.dropWhile Numeral.isDigit⟩

/-- The digits of a whole part, which does not start with a zero that it could
do without. -/
def scanWhole (cs : List Char) : Option (Scanned (List Char)) :=
  (scanDigits cs).filter fun scanned =>
    scanned.value.head? != some '0' || scanned.value.length == 1

/-- The fraction at the front with its point, empty where there is none. -/
def scanFraction : List Char → Option (Scanned (List Char))
  | '.' :: cs => (scanDigits cs).map fun scanned => ⟨'.' :: scanned.value, scanned.rest⟩
  | cs => some ⟨[], cs⟩

/-- The sign at the front of an exponent, empty where there is none. -/
def scanSign : List Char → Scanned (List Char)
  | '+' :: cs => ⟨['+'], cs⟩
  | '-' :: cs => ⟨['-'], cs⟩
  | cs => ⟨[], cs⟩

/-- The exponent at the front with its mark, empty where there is none. -/
def scanExponent : List Char → Option (Scanned (List Char))
  | [] => some ⟨[], []⟩
  | c :: cs =>
    if c == 'e' || c == 'E' then
      let sign := scanSign cs
      (scanDigits sign.rest).map fun scanned =>
        ⟨c :: (sign.value ++ scanned.value), scanned.rest⟩
    else some ⟨[], c :: cs⟩

/-- The number that the characters after its sign denote. -/
def readNumber? (negative : Bool) (cs : List Char) : Option (Scanned Json) :=
  (scanWhole cs).bind fun whole =>
  (scanFraction whole.rest).bind fun fraction =>
  (scanExponent fraction.rest).map fun exponent =>
    if fraction.value.isEmpty && exponent.value.isEmpty then
      ⟨.whole negative (Numeral.digitsValue whole.value), exponent.rest⟩
    else
      let sign := if negative then ['-'] else []
      ⟨.decimal (String.ofList
        (sign ++ whole.value ++ fraction.value ++ exponent.value)), exponent.rest⟩

/-- The value of a word at the front. -/
def readWord? (cs : List Char) : Option (Scanned Json) :=
  words.findSome? fun word =>
    (stripFront word.1 cs).map fun rest => ⟨word.2, rest⟩

/-- The number, string or word that starts with a character. -/
def readScalar? (c : Char) (cs : List Char) : Option (Scanned Json) :=
  if c == '"' then
    (readText? cs).map fun scanned => ⟨.text scanned.value, scanned.rest⟩
  else if c == '-' then readNumber? true cs
  else if Numeral.isDigit c then readNumber? false (c :: cs)
  else readWord? (c :: cs)

theorem length_rest_scanDigits {cs : List Char} {scanned : Scanned (List Char)}
    (h : scanDigits cs = some scanned) : scanned.rest.length < cs.length := by
  unfold scanDigits at h
  simp only at h
  split at h
  · cases h
  · next nonempty =>
    cases h
    have whole := congrArg List.length (List.takeWhile_append_dropWhile
      (p := Numeral.isDigit) (l := cs))
    have : 0 < (cs.takeWhile Numeral.isDigit).length :=
      List.length_pos_iff.mpr fun empty => nonempty (by simp [empty])
    rw [List.length_append] at whole
    simp only
    omega

theorem length_rest_scanFraction {cs : List Char} {scanned : Scanned (List Char)}
    (h : scanFraction cs = some scanned) : scanned.rest.length ≤ cs.length := by
  unfold scanFraction at h
  split at h
  · next cs =>
    obtain ⟨inner, same, rfl⟩ := Option.map_eq_some_iff.mp h
    have := length_rest_scanDigits same
    simp only [List.length_cons]
    omega
  · cases h
    exact Nat.le_refl _

theorem length_rest_scanSign (cs : List Char) :
    (scanSign cs).rest.length ≤ cs.length := by
  unfold scanSign
  split <;> simp

theorem length_rest_scanExponent {cs : List Char} {scanned : Scanned (List Char)}
    (h : scanExponent cs = some scanned) : scanned.rest.length ≤ cs.length := by
  unfold scanExponent at h
  split at h
  · cases h
    exact Nat.le_refl _
  · next c cs =>
    simp only at h
    split at h
    · obtain ⟨inner, same, rfl⟩ := Option.map_eq_some_iff.mp h
      have := length_rest_scanDigits same
      have := length_rest_scanSign cs
      simp only [List.length_cons]
      omega
    · cases h
      exact Nat.le_refl _

theorem length_rest_readNumber? {negative : Bool} {cs : List Char}
    {scanned : Scanned Json} (h : readNumber? negative cs = some scanned) :
    scanned.rest.length < cs.length := by
  obtain ⟨whole, foundWhole, h⟩ := Option.bind_eq_some_iff.mp h
  obtain ⟨fraction, foundFraction, h⟩ := Option.bind_eq_some_iff.mp h
  obtain ⟨exponent, foundExponent, rfl⟩ := Option.map_eq_some_iff.mp h
  have first := length_rest_scanDigits (Option.filter_eq_some_iff.mp foundWhole).1
  have second := length_rest_scanFraction foundFraction
  have third := length_rest_scanExponent foundExponent
  split <;> simp only <;> omega

/-- Every word has a character. -/
theorem length_words : ∀ word ∈ words, 0 < word.1.length := by decide

theorem length_rest_readWord? {cs : List Char} {scanned : Scanned Json}
    (h : readWord? cs = some scanned) : scanned.rest.length < cs.length := by
  obtain ⟨word, member, h⟩ := List.exists_of_findSome?_eq_some h
  obtain ⟨rest, same, rfl⟩ := Option.map_eq_some_iff.mp h
  have := length_words word member
  rw [eq_append_of_stripFront same, List.length_append]
  simp only
  omega

theorem length_rest_readScalar? {c : Char} {cs : List Char} {scanned : Scanned Json}
    (h : readScalar? c cs = some scanned) : scanned.rest.length ≤ cs.length := by
  unfold readScalar? at h
  split at h
  · obtain ⟨inner, same, rfl⟩ := Option.map_eq_some_iff.mp h
    exact length_rest_readText? same
  · split at h
    · exact Nat.le_of_lt (length_rest_readNumber? h)
    · split at h
      · exact Nat.le_of_lt_succ (length_rest_readNumber? h)
      · exact Nat.le_of_lt_succ (length_rest_readWord? h)

/-- The lexeme that starts with a character. -/
def readLexeme? (c : Char) (cs : List Char) : Option (Scanned Lexeme) :=
  match marks.find? fun mark => mark.1 == c with
  | some mark => some ⟨mark.2, cs⟩
  | none => (readScalar? c cs).map fun scanned => ⟨.scalar scanned.value, scanned.rest⟩

theorem length_rest_readLexeme? {c : Char} {cs : List Char} {scanned : Scanned Lexeme}
    (h : readLexeme? c cs = some scanned) : scanned.rest.length ≤ cs.length := by
  unfold readLexeme? at h
  split at h
  · cases h
    exact Nat.le_refl _
  · obtain ⟨inner, same, rfl⟩ := Option.map_eq_some_iff.mp h
    exact length_rest_readScalar? same

/-- The lexemes of the characters, if they are nothing but lexemes and blanks. -/
def lexemes? : List Char → Option (List Lexeme)
  | [] => some []
  | c :: cs =>
    if isSpace c then lexemes? cs
    else
      match _found : readLexeme? c cs with
      | some scanned => (lexemes? scanned.rest).map (scanned.value :: ·)
      | none => none
termination_by cs => cs.length
decreasing_by
  · simp
  · have := length_rest_readLexeme? _found
    simp only [List.length_cons]
    omega

end CueRouter.Json
