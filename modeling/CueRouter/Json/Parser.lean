import CueRouter.Json.Lexeme

/-!
# Reading JSON

Lexemes are taken one at a time. The containers that are still open are kept in
a list, the innermost first, so nesting may be as deep as it likes. A document
is one value with nothing after it.
-/

namespace CueRouter.Json

/-- A container that is still open. -/
inductive Opened where
  /-- An array with the items so far, the last one first. -/
  | array (items : List Json)
  /-- An object with the members so far, the last one first, and the name of
  the member whose value comes next. -/
  | object (members : List (Option String × Json)) (name : Option String)

/-- What may come next. -/
inductive Expected where
  /-- A value; also the end of an array that has just been opened. -/
  | value (mayClose : Bool)
  /-- The name of a member of an object with the members so far, the last one
  first; also the end of an object that has just been opened. -/
  | name (members : List (Option String × Json)) (mayClose : Bool)
  /-- The colon after a name. -/
  | colon (members : List (Option String × Json)) (name : Option String)
  /-- After a value, a comma or the end of the innermost container. -/
  | after (value : Json)

/-- How far a document has been read. -/
structure Progress where
  /-- The open containers, the innermost first. -/
  opened : List Opened
  /-- What may come next. -/
  expected : Expected

namespace Progress

/-- Nothing has been read. -/
def start : Progress := ⟨[], .value false⟩

/-- The progress after one more lexeme, if it may come next. -/
def step? (progress : Progress) (lexeme : Lexeme) : Option Progress :=
  match progress.expected, lexeme with
  | .value _, .scalar value => some { progress with expected := .after value }
  | .value _, .openArray => some ⟨.array [] :: progress.opened, .value true⟩
  | .value _, .openObject => some { progress with expected := .name [] true }
  | .value true, .closeArray =>
    match progress.opened with
    | .array _ :: opened => some ⟨opened, .after (.array [])⟩
    | _ => none
  | .name members _, .scalar (.text name) =>
    some { progress with expected := .colon members name }
  | .name members true, .closeObject =>
    some { progress with expected := .after (.object members.reverse) }
  | .colon members name, .colon =>
    some ⟨.object members name :: progress.opened, .value false⟩
  | .after value, .comma =>
    match progress.opened with
    | .array items :: opened =>
      some ⟨.array (value :: items) :: opened, .value false⟩
    | .object members name :: opened =>
      some ⟨opened, .name ((name, value) :: members) false⟩
    | [] => none
  | .after value, .closeArray =>
    match progress.opened with
    | .array items :: opened =>
      some ⟨opened, .after (.array (value :: items).reverse)⟩
    | _ => none
  | .after value, .closeObject =>
    match progress.opened with
    | .object members name :: opened =>
      some ⟨opened, .after (.object ((name, value) :: members).reverse)⟩
    | _ => none
  | _, _ => none

/-- The value of a document that has been read to its end. -/
def finished? (progress : Progress) : Option Json :=
  match progress.opened, progress.expected with
  | [], .after value => some value
  | _, _ => none

end Progress

/-- The value that the characters denote. -/
def ofChars? (cs : List Char) : Option Json :=
  ((lexemes? cs).bind fun lexemes => lexemes.foldlM Progress.step? .start).bind
    Progress.finished?

/-- The value that a document denotes. -/
def ofText? (document : String) : Option Json := ofChars? document.toList

end CueRouter.Json
