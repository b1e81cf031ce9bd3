import CueRouter.Json.Parser
import CueRouter.Json.Printer
import CueRouter.Proofs.Text.Numeral

/-!
# Reading written values

A value is read again as itself from the document that is written for it, unless it holds
a number with a fraction or an exponent, which may be any text. The characters of the
value fall into the lexemes of the value, whatever follows that does not go on with a
number, and the lexemes lead from expecting the value to having it, whatever containers
are open.
-/

namespace CueRouter.Json

open Text

/-- No number in the value has a fraction or an exponent. -/
inductive Plain : Json → Prop where
  /-- The null value is plain. -/
  | null : Plain null
  /-- Truth values are plain. -/
  | bool (value : Bool) : Plain (bool value)
  /-- Whole numbers are plain. -/
  | whole (negative : Bool) (magnitude : Nat) : Plain (whole negative magnitude)
  /-- Strings are plain. -/
  | text (content : Option String) : Plain (text content)
  /-- Arrays of plain values are plain. -/
  | array {items : List Json} (h : ∀ item ∈ items, Plain item) : Plain (array items)
  /-- Objects of plain values are plain. -/
  | object {members : List (Option String × Json)}
      (h : ∀ member ∈ members, Plain member.2) : Plain (object members)

/-- A number does not go on with these characters. -/
def Ends (rest : List Char) : Prop :=
  ∀ c ∈ rest.head?, Numeral.isDigit c = false ∧ c ≠ '.' ∧ c ≠ 'e' ∧ c ≠ 'E'

variable {rest : List Char}

/-! ## Strings -/

/-- The short escape that is written for a character is read as this character, and it is
not the mark of a unit. -/
theorem shortEscape?_of_escapeFor? {c short : Char} (h : escapeFor? c = some short) :
    shortEscape? short = some c ∧ short ≠ 'u' := by
  unfold escapeFor? at h
  split at h
  · cases h
  · obtain ⟨⟨first, second⟩, found, rfl⟩ := Option.map_eq_some_iff.mp h
    have all : ∀ escape ∈ shortEscapes,
        shortEscape? escape.1 = some escape.2 ∧ escape.1 ≠ 'u' := by decide
    have same : second = c := by simpa using List.find?_some found
    rw [← same]
    exact all _ (List.mem_of_find?_eq_some found)

/-- The quote and the backslash are written as short escapes. -/
theorem ne_of_escapeFor?_eq_none {c : Char} (h : escapeFor? c = none) :
    c ≠ '"' ∧ c ≠ '\\' := by
  constructor
  · rintro rfl
    exact absurd h (by decide)
  · rintro rfl
    exact absurd h (by decide)

/-- Characters that are written as units are no half of a surrogate pair. -/
theorem joinPieces?_unit {c : Char} (control : isControl c = true) (pieces : List Piece) :
    joinPieces? (.unit c.toNat :: pieces) = (joinPieces? pieces).map (c :: ·) := by
  have small : c.toNat < 32 := of_decide_eq_true control
  have noTrailing : isTrailing c.toNat = false := by
    simp only [isTrailing, Bool.and_eq_false_iff, decide_eq_false_iff_not]
    omega
  have noLeading : isLeading c.toNat = false := by
    simp only [isLeading, Bool.and_eq_false_iff, decide_eq_false_iff_not]
    omega
  rw [joinPieces?.eq_def]
  simp [noTrailing, noLeading]

/-- The four digits of a control character are read as a unit. -/
theorem scanPieces_unit {c : Char} (control : isControl c = true) (rest : List Char) :
    scanPieces ('\\' :: 'u' :: Hexadecimal.write 4 c.toNat ++ rest) =
      (scanPieces rest).map (Scanned.consPiece (.unit c.toNat)) := by
  have small : c.toNat < 32 := of_decide_eq_true control
  have fits : c.toNat < Nat.pow 16 4 := Nat.lt_trans small (by decide)
  have read := Hexadecimal.read?_write fits
  obtain ⟨first, second, third, fourth, digits⟩ :
      ∃ a b d e, Hexadecimal.write 4 c.toNat = [a, b, d, e] := ⟨_, _, _, _, rfl⟩
  rw [digits] at read ⊢
  simp [scanPieces, read]

/-- What is written for a character is read as one piece, and this piece stands for the
character. -/
theorem exists_piece (c : Char) : ∃ piece,
    (∀ rest, scanPieces (writeChar c ++ rest) =
      (scanPieces rest).map (Scanned.consPiece piece)) ∧
    ∀ pieces, joinPieces? (piece :: pieces) = (joinPieces? pieces).map (c :: ·) := by
  unfold writeChar
  split
  · next short written =>
    obtain ⟨read, apart⟩ := shortEscape?_of_escapeFor? written
    exact ⟨.char c, fun rest => by simp [scanPieces, apart, read], fun pieces => rfl⟩
  · next unescaped =>
    split
    · next control =>
      exact ⟨.unit c.toNat, scanPieces_unit control, joinPieces?_unit control⟩
    · next plain =>
      obtain ⟨quote, backslash⟩ := ne_of_escapeFor?_eq_none unescaped
      exact ⟨.char c, fun rest => by simp [scanPieces, backslash, plain], fun pieces => rfl⟩

/-- What is written for characters is read up to the closing quote, as pieces that stand
for the characters. -/
theorem exists_pieces (cs : List Char) : ∃ pieces,
    (∀ rest, scanPieces (cs.flatMap writeChar ++ '"' :: rest) = some ⟨pieces, rest⟩) ∧
    joinPieces? pieces = some cs := by
  induction cs with
  | nil => exact ⟨[], fun rest => by rw [List.flatMap_nil, List.nil_append, scanPieces], rfl⟩
  | cons c cs ih =>
    obtain ⟨pieces, scanned, joined⟩ := ih
    obtain ⟨piece, first, stands⟩ := exists_piece c
    refine ⟨piece :: pieces, fun rest => ?_, by rw [stands, joined]; rfl⟩
    rw [List.flatMap_cons, List.append_assoc, first, scanned]
    rfl

/-- What is written for a string starts with a quote, and the string is read behind it. -/
theorem exists_writeString (content : Option String) : ∃ cs,
    writeString content = '"' :: cs ∧
    ∀ rest, readText? (cs ++ rest) = some ⟨content, rest⟩ := by
  cases content with
  | none =>
    refine ⟨"\\ud800\"".toList, rfl, fun rest => ?_⟩
    have unit : Hexadecimal.read? ['d', '8', '0', '0'] = some 0xD800 := by decide
    have scanned :
        scanPieces ("\\ud800\"".toList ++ rest) = some ⟨[.unit 0xD800], rest⟩ := by
      simp [scanPieces, unit, Scanned.consPiece]
    rw [readText?, scanned]
    rfl
  | some s =>
    obtain ⟨pieces, scanned, joined⟩ := exists_pieces s.toList
    refine ⟨s.toList.flatMap writeChar ++ ['"'], rfl, fun rest => ?_⟩
    rw [readText?, List.append_assoc, List.singleton_append, scanned, Option.map_some, joined,
      Option.map_some, String.ofList_toList]

/-! ## Numbers -/

/-- Only the number zero begins with the digit zero. -/
theorem head?_digits_ne {n : Nat} (h : 0 < n) : (Numeral.digits n).head? ≠ some '0' := by
  fun_induction Numeral.digits n with
  | case1 n small =>
    have all : ∀ d : Fin 10, 0 < d.val → [Numeral.digitChar d].head? ≠ some '0' := by decide
    exact all ⟨n, small⟩ h
  | case2 n large ih =>
    rw [List.head?_append_of_ne_nil _ (Numeral.digits_ne_nil _)]
    exact ih (by omega)

/-- The digits of a number are scanned up to where it ends. -/
theorem scanWhole_digits (n : Nat) (ends : Ends rest) :
    scanWhole (Numeral.digits n ++ rest) = some ⟨Numeral.digits n, rest⟩ := by
  have all := (Numeral.digits_digits n).all
  have stops :
      rest.takeWhile Numeral.isDigit = [] ∧ rest.dropWhile Numeral.isDigit = rest := by
    cases rest with
    | nil => exact ⟨rfl, rfl⟩
    | cons c rest => simp [(ends c rfl).1]
  have scanned : scanDigits (Numeral.digits n ++ rest) = some ⟨Numeral.digits n, rest⟩ := by
    unfold scanDigits
    rw [List.takeWhile_append_of_pos all, List.dropWhile_append_of_pos all, stops.1, stops.2,
      List.append_nil]
    simp [Numeral.digits_ne_nil]
  have first : (Numeral.digits n).head? ≠ some '0' ∨ (Numeral.digits n).length = 1 := by
    rcases Nat.eq_zero_or_pos n with rfl | positive
    · exact .inr (by rw [Numeral.digits]; rfl)
    · exact .inl (head?_digits_ne positive)
  rw [scanWhole, scanned]
  simpa using first

/-- There is no fraction and no exponent where a number ends. -/
theorem scanFraction_of_ends (ends : Ends rest) :
    scanFraction rest = some ⟨[], rest⟩ ∧ scanExponent rest = some ⟨[], rest⟩ := by
  cases rest with
  | nil => exact ⟨rfl, rfl⟩
  | cons c rest =>
    obtain ⟨-, point, small, capital⟩ := ends c rfl
    exact ⟨by simp [scanFraction, point], by simp [scanExponent, small, capital]⟩

/-- The digits of a number are read as the number. -/
theorem readNumber?_digits (negative : Bool) (n : Nat) (ends : Ends rest) :
    readNumber? negative (Numeral.digits n ++ rest) = some ⟨whole negative n, rest⟩ := by
  obtain ⟨fraction, exponent⟩ := scanFraction_of_ends ends
  simp [readNumber?, scanWhole_digits n ends, fraction, exponent, Numeral.digitsValue_digits]

/-! ## Lexemes -/

mutual

/-- The lexemes of a value. -/
def lexemesOf : Json → List Lexeme
  | array [] => [.openArray, .closeArray]
  | array (item :: items) => .openArray :: (lexemesOf item ++ lexemesOfItems items)
  | object [] => [.openObject, .closeObject]
  | object ((name, value) :: members) =>
    .openObject :: .scalar (text name) :: .colon ::
      (lexemesOf value ++ lexemesOfMembers members)
  | value => [.scalar value]

/-- The lexemes of the items of an array after the first, and of its end. -/
def lexemesOfItems : List Json → List Lexeme
  | [] => [.closeArray]
  | item :: items => .comma :: (lexemesOf item ++ lexemesOfItems items)

/-- The lexemes of the members of an object after the first, and of its end. -/
def lexemesOfMembers : List (Option String × Json) → List Lexeme
  | [] => [.closeObject]
  | (name, value) :: members =>
    .comma :: .scalar (text name) :: .colon ::
      (lexemesOf value ++ lexemesOfMembers members)

end

section Lexing

variable {c : Char} {cs : List Char} {more : List Lexeme}

/-- A lexeme at the front stands before the lexemes of what follows it. -/
theorem lexemes?_cons {scanned : Scanned Lexeme} (space : isSpace c = false)
    (read : readLexeme? c cs = some scanned) (follows : lexemes? scanned.rest = some more) :
    lexemes? (c :: cs) = some (scanned.value :: more) := by
  rw [lexemes?, if_neg (Bool.eq_false_iff.mp space)]
  split
  · next found same =>
    rw [read] at same
    cases same
    rw [follows]
    rfl
  · next missing =>
    rw [read] at missing
    cases missing

/-- A mark is a lexeme by itself. -/
theorem lexemes?_mark {lexeme : Lexeme} (space : isSpace c = false)
    (mark : marks.find? (fun mark => mark.1 == c) = some (c, lexeme))
    (follows : lexemes? cs = some more) : lexemes? (c :: cs) = some (lexeme :: more) := by
  have read : readLexeme? c cs = some ⟨lexeme, cs⟩ := by
    unfold readLexeme?
    rw [mark]
  exact lexemes?_cons space read follows

/-- A number, string or word at the front is a lexeme. -/
theorem lexemes?_scalar {value : Json} (space : isSpace c = false)
    (unmarked : marks.find? (fun mark => mark.1 == c) = none)
    (read : readScalar? c cs = some ⟨value, rest⟩) (follows : lexemes? rest = some more) :
    lexemes? (c :: cs) = some (.scalar value :: more) := by
  have read : readLexeme? c cs = some ⟨.scalar value, rest⟩ := by
    unfold readLexeme?
    rw [unmarked, read]
    rfl
  exact lexemes?_cons space read follows

/-- A string that is written is one lexeme. -/
theorem lexemes?_writeString (content : Option String) (follows : lexemes? rest = some more) :
    lexemes? (writeString content ++ rest) = some (.scalar (text content) :: more) := by
  obtain ⟨cs, written, read⟩ := exists_writeString content
  rw [written]
  refine lexemes?_scalar rfl rfl ?_ follows
  show Option.map _ (readText? (cs ++ rest)) = _
  rw [read]
  rfl

/-- A digit is no blank and no mark, and it starts a number without a sign. -/
theorem readScalar?_of_isDigit (digit : Numeral.isDigit c = true) (cs : List Char) :
    isSpace c = false ∧ marks.find? (fun mark => mark.1 == c) = none ∧
      readScalar? c cs = readNumber? false (c :: cs) := by
  have apart (d : Char) (h : Numeral.isDigit d = false) : (c == d) = false :=
    beq_eq_false_iff_ne.mpr (Numeral.ne_of_isDigit digit h)
  refine ⟨?_, ?_, ?_⟩
  · rw [isSpace, apart ' ' rfl, apart '\n' rfl, apart '\t' rfl, apart '\r' rfl]
    rfl
  · refine List.find?_eq_none.mpr fun mark member same => ?_
    have all : ∀ mark ∈ marks, Numeral.isDigit mark.1 = false := by decide
    have none := all mark member
    rw [eq_of_beq same, digit] at none
    cases none
  · rw [readScalar?, apart '"' rfl, apart '-' rfl, if_pos digit]
    rfl

/-- A whole number that is written is one lexeme. -/
theorem lexemes?_writeWhole (negative : Bool) (n : Nat) (ends : Ends rest)
    (follows : lexemes? rest = some more) :
    lexemes? (write (whole negative n) ++ rest) =
      some (.scalar (whole negative n) :: more) := by
  have read (negative : Bool) := readNumber?_digits negative n ends
  cases negative with
  | true =>
    have written : write (whole true n) ++ rest = '-' :: (Numeral.digits n ++ rest) := by
      rw [write, if_pos rfl]
      rfl
    rw [written]
    exact lexemes?_scalar rfl rfl (read true) follows
  | false =>
    obtain ⟨c, cs, digits⟩ := List.exists_cons_of_ne_nil (Numeral.digits_ne_nil n)
    have digit : Numeral.isDigit c = true :=
      (Numeral.digits_digits n).all c (digits ▸ List.mem_cons_self)
    obtain ⟨space, unmarked, scalar⟩ := readScalar?_of_isDigit digit (cs ++ rest)
    have written : write (whole false n) ++ rest = c :: (cs ++ rest) := by
      rw [write, if_neg Bool.false_ne_true, List.nil_append, digits]
      rfl
    rw [written]
    refine lexemes?_scalar space unmarked ?_ follows
    rw [scalar, ← List.cons_append, ← digits]
    exact read false

/-- A word at the front is a lexeme. -/
theorem lexemes?_word {word : List Char × Json} (member : word ∈ words)
    (follows : lexemes? rest = some more) :
    lexemes? (word.1 ++ rest) = some (.scalar word.2 :: more) := by
  have all : words = [(['n', 'u', 'l', 'l'], null), (['t', 'r', 'u', 'e'], bool true),
      (['f', 'a', 'l', 's', 'e'], bool false)] := rfl
  simp only [all, List.mem_cons, List.not_mem_nil, or_false] at member
  rcases member with rfl | rfl | rfl
  · exact lexemes?_scalar rfl rfl rfl follows
  · exact lexemes?_scalar rfl rfl rfl follows
  · exact lexemes?_scalar rfl rfl rfl follows

/-- A number ends before any character that it cannot have. -/
theorem ends_cons (h : Numeral.isDigit c = false ∧ c ≠ '.' ∧ c ≠ 'e' ∧ c ≠ 'E') :
    Ends (c :: cs) := by
  rintro _ ⟨⟩
  exact h

/-- A number ends before the items behind it. -/
theorem ends_writeItems (items : List Json) : Ends (writeItems items ++ rest) := by
  cases items with
  | nil => rw [writeItems]; exact ends_cons (by decide)
  | cons item items => rw [writeItems]; exact ends_cons (by decide)

/-- A number ends before the members behind it. -/
theorem ends_writeMembers (members : List (Option String × Json)) :
    Ends (writeMembers members ++ rest) := by
  cases members with
  | nil => rw [writeMembers]; exact ends_cons (by decide)
  | cons member members => rw [writeMembers]; exact ends_cons (by decide)

end Lexing

mutual

/-- A plain value that is written falls into its lexemes. What follows it is left open, as
it differs at every level of the value. -/
theorem lexemes?_write : ∀ {rest : List Char} {more : List Lexeme} (value : Json),
    Plain value → Ends rest → lexemes? rest = some more →
      lexemes? (write value ++ rest) = some (lexemesOf value ++ more)
  | _, _, null, _, _, follows => by
    have member : ("null".toList, null) ∈ words := List.mem_cons_self
    exact lexemes?_word member follows
  | _, _, bool true, _, _, follows => by
    have member : ("true".toList, bool true) ∈ words := by simp [words]
    exact lexemes?_word member follows
  | _, _, bool false, _, _, follows => by
    have member : ("false".toList, bool false) ∈ words := by simp [words]
    exact lexemes?_word member follows
  | _, _, whole negative n, _, ends, follows => lexemes?_writeWhole negative n ends follows
  | _, _, text content, _, _, follows => lexemes?_writeString content follows
  | _, _, array [], _, _, follows => lexemes?_mark rfl rfl (lexemes?_mark rfl rfl follows)
  | _, _, array (item :: items), .array plain, _, follows => by
    obtain ⟨first, others⟩ := List.forall_mem_cons.mp plain
    have behind := lexemes?_writeItems items others follows
    have whole := lexemes?_write item first (ends_writeItems items) behind
    rw [write, lexemesOf]
    simp only [List.cons_append, List.append_assoc]
    exact lexemes?_mark rfl rfl whole
  | _, _, object [], _, _, follows => lexemes?_mark rfl rfl (lexemes?_mark rfl rfl follows)
  | _, _, object ((name, value) :: members), .object plain, _, follows => by
    obtain ⟨first, others⟩ := List.forall_mem_cons.mp plain
    have behind := lexemes?_writeMembers members others follows
    have whole := lexemes?_write value first (ends_writeMembers members) behind
    have named := lexemes?_writeString name (lexemes?_mark (c := ':') rfl rfl whole)
    rw [write, lexemesOf]
    simp only [List.cons_append, List.append_assoc]
    exact lexemes?_mark rfl rfl named

/-- The items of an array after the first, and its end, fall into their lexemes. -/
theorem lexemes?_writeItems : ∀ {rest : List Char} {more : List Lexeme} (items : List Json),
    (∀ item ∈ items, Plain item) → lexemes? rest = some more →
      lexemes? (writeItems items ++ rest) = some (lexemesOfItems items ++ more)
  | _, _, [], _, follows => lexemes?_mark rfl rfl follows
  | _, _, item :: items, plain, follows => by
    obtain ⟨first, others⟩ := List.forall_mem_cons.mp plain
    have behind := lexemes?_writeItems items others follows
    have whole := lexemes?_write item first (ends_writeItems items) behind
    rw [writeItems, lexemesOfItems]
    simp only [List.cons_append, List.append_assoc]
    exact lexemes?_mark rfl rfl whole

/-- The members of an object after the first, and its end, fall into their lexemes. -/
theorem lexemes?_writeMembers : ∀ {rest : List Char} {more : List Lexeme}
    (members : List (Option String × Json)),
    (∀ member ∈ members, Plain member.2) → lexemes? rest = some more →
      lexemes? (writeMembers members ++ rest) = some (lexemesOfMembers members ++ more)
  | _, _, [], _, follows => lexemes?_mark rfl rfl follows
  | _, _, (name, value) :: members, plain, follows => by
    obtain ⟨first, others⟩ := List.forall_mem_cons.mp plain
    have behind := lexemes?_writeMembers members others follows
    have whole := lexemes?_write value first (ends_writeMembers members) behind
    have named := lexemes?_writeString name (lexemes?_mark (c := ':') rfl rfl whole)
    rw [writeMembers, lexemesOfMembers]
    simp only [List.cons_append, List.append_assoc]
    exact lexemes?_mark rfl rfl named

end

/-! ## Progress -/

namespace Progress

/-- The lexemes lead from one progress to another. -/
def Leads (progress : Progress) (lexemes : List Lexeme) (next : Progress) : Prop :=
  lexemes.foldlM step? progress = some next

section Leading

variable {progress between next : Progress} {lexeme : Lexeme} {lexemes more : List Lexeme}

/-- A lexeme that may come next leads on. -/
theorem Leads.cons (step : progress.step? lexeme = some between)
    (leads : between.Leads lexemes next) : progress.Leads (lexeme :: lexemes) next := by
  unfold Leads at leads ⊢
  rw [List.foldlM_cons, step]
  exact leads

/-- Lexemes lead on from where others have led. -/
theorem Leads.append (first : progress.Leads lexemes between)
    (second : between.Leads more next) : progress.Leads (lexemes ++ more) next := by
  unfold Leads at first second ⊢
  rw [List.foldlM_append, first]
  exact second

end Leading

mutual

/-- The lexemes of a value lead from where a value may come to where it has come. -/
theorem leads_lexemesOf : ∀ (value : Json) {opened : List Opened} {mayClose : Bool},
    Leads ⟨opened, .value mayClose⟩ (lexemesOf value) ⟨opened, .after value⟩
  | null, _, _ | bool _, _, _ | whole _ _, _, _ | decimal _, _, _ | text _, _, _ => rfl
  | array [], _, _ | object [], _, _ => rfl
  | array (item :: items), _, _ =>
    .cons rfl (.append (leads_lexemesOf item) (leads_lexemesOfItems items))
  | object ((_, value) :: members), _, _ =>
    .cons rfl (.cons rfl (.cons rfl
      (.append (leads_lexemesOf value) (leads_lexemesOfMembers members))))

/-- The lexemes of items behind others lead to the array of them all. -/
theorem leads_lexemesOfItems : ∀ (items : List Json) {opened : List Opened}
    {before : List Json} {last : Json},
    Leads ⟨.array before :: opened, .after last⟩ (lexemesOfItems items)
      ⟨opened, .after (.array (before.reverse ++ last :: items))⟩
  | [], _, _, _ => .cons (by simp [step?]) rfl
  | item :: items, opened, before, last => by
    have others : Leads ⟨.array (last :: before) :: opened, .after item⟩ (lexemesOfItems items)
        ⟨opened, .after (.array ((last :: before).reverse ++ item :: items))⟩ :=
      leads_lexemesOfItems items
    rw [List.reverse_cons, List.append_assoc] at others
    exact .cons rfl (.append (leads_lexemesOf item) others)

/-- The lexemes of members behind others lead to the object of them all. -/
theorem leads_lexemesOfMembers : ∀ (members : List (Option String × Json))
    {opened : List Opened} {before : List (Option String × Json)} {name : Option String}
    {last : Json},
    Leads ⟨.object before name :: opened, .after last⟩ (lexemesOfMembers members)
      ⟨opened, .after (.object (before.reverse ++ (name, last) :: members))⟩
  | [], _, _, _, _ => .cons (by simp [step?]) rfl
  | (other, value) :: members, opened, before, name, last => by
    have others : Leads ⟨.object ((name, last) :: before) other :: opened, .after value⟩
        (lexemesOfMembers members)
        ⟨opened, .after
          (.object (((name, last) :: before).reverse ++ (other, value) :: members))⟩ :=
      leads_lexemesOfMembers members
    rw [List.reverse_cons, List.append_assoc] at others
    exact .cons rfl (.cons rfl (.cons rfl (.append (leads_lexemesOf value) others)))

end

end Progress

/-! ## Documents -/

/-- A plain value is read again from the document that is written for it. -/
theorem ofText?_toDocument {value : Json} (plain : Plain value) :
    ofText? (toDocument value) = some value := by
  have noMore : lexemes? [] = some [] := by rw [lexemes?]
  have ends : Ends [] := fun _ none => by cases none
  have lexed := lexemes?_write value plain ends noMore
  have led : Progress.start.Leads (lexemesOf value) ⟨[], .after value⟩ :=
    Progress.leads_lexemesOf value
  rw [List.append_nil, List.append_nil] at lexed
  unfold Progress.Leads at led
  rw [ofText?, toDocument, String.toList_ofList, ofChars?, lexed, Option.bind_some, led]
  rfl

end CueRouter.Json
