import CueRouter.Proofs.Value.Span
import CueRouter.Value.Literal
import CueRouter.Value.Printer
import Mathlib.Algebra.Ring.Int.Defs
import Mathlib.Algebra.Ring.Nat

/-!
# What literals denote

A literal is a run of digits, digits around a single point, or two runs of digits with a
separator between them. This grammar says for every text which value it denotes, if any,
and reading follows it in both directions. Whatever is not in the grammar is a fault that
carries the text as it was. Numbers that are not negative are written within the grammar,
so reading them gives them back.
-/

namespace CueRouter

open Text Text.Numeral

/-! ## The grammar -/

/-- The characters are a run of digits for the number, with spaces on either side. -/
inductive Span.EndDenotes : List Char → Int32 → Prop
  /-- Spaces, digits and spaces. -/
  | intro {before ds after : List Char} {n : Int32} (front : ∀ c ∈ before, c = ' ')
      (back : ∀ c ∈ after, c = ' ') (digits : Digits ds) (value : n.toInt = digitsValue ds) :
      EndDenotes (before ++ ds ++ after) n

/-- The literal without blank ends denotes the value. -/
inductive Denotes : List Char → Value → Prop
  /-- Digits for a number of 32 bits are an int. -/
  | int {ds : List Char} {n : Int32} (digits : Digits ds) (value : n.toInt = digitsValue ds) :
      Denotes ds (.int n)
  /-- Digits for a number beyond 32 bits are a long number. -/
  | long {ds : List Char} {n : Int64} (digits : Digits ds) (value : n.toInt = digitsValue ds)
      (wide : 2 ^ 31 ≤ n.toInt) : Denotes ds (.long n)
  /-- Digits around a point are a float. One side may be empty, but not both. -/
  | float {whole fraction : List Char} (digits : Digits (whole ++ fraction)) :
      Denotes (whole ++ '.' :: fraction)
        (.float (.ofQuotient (digitsValue (whole ++ fraction)) (10 ^ fraction.length)))
  /-- Two ends of 32 bits around a separator are a range. -/
  | range {before after : List Char} {lo hi : Int32} (low : Span.EndDenotes before lo)
      (high : Span.EndDenotes after hi) :
      Denotes (before ++ Span.separator :: after) (.range ⟨lo, hi⟩)

/-! ## Characters of literals -/

/-- Every digit may stand in a literal. -/
theorem isLiteralChar_of_isDigit {c : Char} (h : isDigit c = true) : isLiteralChar c = true := by
  simp [isLiteralChar, h]

/-- The only blank characters in a literal are spaces. -/
theorem eq_space_of_isLiteralChar {c : Char} (h : isLiteralChar c = true)
    (blank : isBlank c = true) : c = ' ' := by
  simp only [isLiteralChar, Bool.or_eq_true, beq_iff_eq] at h
  rcases h with ((digit | point) | space) | separator
  · rw [isBlank_of_isDigit digit] at blank
    cases blank
  · subst point
    cases blank
  · exact space
  · subst separator
    cases blank

/-- No character of a literal is a sign. -/
theorem unsigned_of_isLiteralChar {cs : List Char} (h : ∀ c ∈ cs, isLiteralChar c = true) :
    Unsigned cs := by
  intro c member
  have literal := h c member
  constructor <;> rintro rfl <;> cases literal

/-- Spaces are blank. -/
theorem blank_of_spaces {cs : List Char} (h : ∀ c ∈ cs, c = ' ') : Blank cs := by
  intro c member
  rw [h c member]
  rfl

/-- The characters of an end may stand in a literal, and none of them is a separator. -/
theorem Span.EndDenotes.literal {cs : List Char} {n : Int32} (h : EndDenotes cs n) :
    ∀ c ∈ cs, isLiteralChar c = true ∧ c ≠ separator := by
  obtain ⟨front, back, digits, -⟩ := h
  have space (c : Char) (same : c = ' ') : isLiteralChar c = true ∧ c ≠ separator := by
    subst same
    decide
  intro c member
  rcases List.mem_append.mp member with inner | last
  · rcases List.mem_append.mp inner with first | digit
    · exact space c (front c first)
    · exact ⟨isLiteralChar_of_isDigit (digits.all c digit), ne_of_isDigit (digits.all c digit) rfl⟩
  · exact space c (back c last)

/-- A literal has characters, all of which may stand in one. -/
theorem Denotes.literal {cs : List Char} {v : Value} (h : Denotes cs v) :
    cs ≠ [] ∧ ∀ c ∈ cs, isLiteralChar c = true := by
  have run {ds : List Char} (digits : Digits ds) :
      ds ≠ [] ∧ ∀ c ∈ ds, isLiteralChar c = true :=
    ⟨digits.nonempty, fun c member => isLiteralChar_of_isDigit (digits.all c member)⟩
  cases h with
  | int digits => exact run digits
  | long digits => exact run digits
  | float digits =>
    refine ⟨List.append_ne_nil_of_right_ne_nil _ (List.cons_ne_nil _ _), fun c member => ?_⟩
    rcases List.mem_append.mp member with whole | rest
    · exact (run digits).2 c (List.mem_append_left _ whole)
    · rcases List.mem_cons.mp rest with rfl | fraction
      · rfl
      · exact (run digits).2 c (List.mem_append_right _ fraction)
  | range low high =>
    refine ⟨List.append_ne_nil_of_right_ne_nil _ (List.cons_ne_nil _ _), fun c member => ?_⟩
    rcases List.mem_append.mp member with before | rest
    · exact (low.literal c before).1
    · rcases List.mem_cons.mp rest with rfl | after
      · rfl
      · exact (high.literal c after).1

/-! ## Ends and ranges -/

/-- An end of a range in a literal is read exactly as it is written. -/
theorem Span.readEnd_eq_ok_iff {cs : List Char} (literal : ∀ c ∈ cs, isLiteralChar c = true)
    {n : Int32} : readEnd cs = .ok n ↔ EndDenotes cs n := by
  rw [readEnd_eq_ok_iff_signed]
  constructor
  · intro signed
    obtain ⟨before, after, hbefore, hafter, whole⟩ := exists_blank_around_trimChars cs
    have sub (c : Char) (member : c ∈ before ∨ c ∈ trimChars cs ∨ c ∈ after) :
        isLiteralChar c = true := by
      refine literal c ?_
      rw [whole]
      simpa [or_assoc] using member
    have unsigned : Unsigned (trimChars cs) :=
      unsigned_of_isLiteralChar fun c member => sub c (.inr (.inl member))
    obtain ⟨digits, value⟩ :=
      (signed_iff_of_head unsigned.head?_ne.1 unsigned.head?_ne.2).mp signed
    rw [whole]
    refine .intro (fun c member => ?_) (fun c member => ?_) digits value
    · exact eq_space_of_isLiteralChar (sub c (.inl member)) (hbefore c member)
    · exact eq_space_of_isLiteralChar (sub c (.inr (.inr member))) (hafter c member)
  · rintro ⟨front, back, digits, value⟩
    rw [trimChars_append (blank_of_spaces front) (blank_of_spaces back), digits.trimChars, value]
    exact .plain digits

/-- A literal with a separator is read exactly as the range of its ends. -/
theorem Span.ofChars_eq_ok_iff {cs : List Char} (literal : ∀ c ∈ cs, isLiteralChar c = true)
    (separated : separator ∈ cs) {span : Span} :
    ofChars cs = .ok span ↔ ∃ before after, cs = before ++ separator :: after ∧
      EndDenotes before span.lo ∧ EndDenotes after span.hi := by
  constructor
  · intro h
    obtain ⟨before, after, rfl, first⟩ := List.eq_append_cons_of_mem separated
    obtain ⟨low, high⟩ := (ofChars_of_separator first).mp h
    refine ⟨before, after, rfl, (readEnd_eq_ok_iff fun c member => ?_).mp low,
      (readEnd_eq_ok_iff fun c member => ?_).mp high⟩
    · exact literal c (List.mem_append_left _ member)
    · exact literal c (List.mem_append_right _ (List.mem_cons_of_mem _ member))
  · rintro ⟨before, after, rfl, low, high⟩
    have first : separator ∉ before := fun member => (low.literal _ member).2 rfl
    refine (ofChars_of_separator first).mpr ⟨?_, ?_⟩
    · exact (readEnd_eq_ok_iff fun c member => (low.literal c member).1).mpr low
    · exact (readEnd_eq_ok_iff fun c member => (high.literal c member).1).mpr high

/-! ## Floats and whole numbers -/

/-- Characters are read as a float exactly if they are digits around a point. -/
theorem readPointed?_eq_some_iff {cs : List Char} {x : Single} :
    readPointed? cs = some x ↔ ∃ whole fraction, cs = whole ++ '.' :: fraction ∧
      Digits (whole ++ fraction) ∧
      x = .ofQuotient (digitsValue (whole ++ fraction)) (10 ^ fraction.length) := by
  have opened (whole fraction : List Char) (split : splitAtFirst '.' cs = some (whole, fraction)) :
      readPointed? cs = some x ↔ Digits (whole ++ fraction) ∧
        x = .ofQuotient (digitsValue (whole ++ fraction)) (10 ^ fraction.length) := by
    have digits : (whole ++ fraction).isEmpty = false ∧ (whole ++ fraction).all isDigit = true ↔
        Digits (whole ++ fraction) := by
      rw [List.isEmpty_eq_false_iff, List.all_eq_true]
      exact ⟨fun run => ⟨run.1, run.2⟩, fun digits => ⟨digits.nonempty, digits.all⟩⟩
    unfold readPointed?
    simp only [split, Option.bind_eq_bind, Option.bind_some]
    rw [← digits]
    cases (whole ++ fraction).isEmpty <;> cases (whole ++ fraction).all isDigit <;>
      simp [eq_comm]
  constructor
  · intro h
    cases split : splitAtFirst '.' cs with
    | none =>
      unfold readPointed? at h
      rw [split] at h
      cases h
    | some halves =>
      obtain ⟨whole, fraction⟩ := halves
      have cut := (splitAtFirst_eq_some_iff.mp split).1
      exact ⟨whole, fraction, cut, (opened whole fraction split).mp h⟩
  · rintro ⟨whole, fraction, cut, digits, value⟩
    have first : '.' ∉ whole := fun member =>
      ne_of_isDigit (digits.all _ (List.mem_append_left _ member)) rfl rfl
    exact (opened whole fraction (splitAtFirst_eq_some_iff.mpr ⟨cut, first⟩)).mpr ⟨digits, value⟩

/-- Characters are read as a whole number exactly if they are digits for one of 64 bits,
and as an int exactly if it is one of 32 bits. -/
theorem readWhole?_eq_some_iff {cs : List Char} (unsigned : Unsigned cs) {v : Value} :
    readWhole? cs = some v ↔ Digits cs ∧
      ((∃ n : Int32, n.toInt = digitsValue cs ∧ v = .int n) ∨
        ∃ n : Int64, n.toInt = digitsValue cs ∧ 2 ^ 31 ≤ n.toInt ∧ v = .long n) := by
  have short (m : Int) : Numeral.read signed32 cs = .ok m ↔
      Digits cs ∧ m = digitsValue cs ∧ m ≤ 2147483647 :=
    read_eq_ok_iff (by decide) (by decide) unsigned
  have wide (m : Int) : Numeral.read signed64 cs = .ok m ↔
      Digits cs ∧ m = digitsValue cs ∧ m ≤ 9223372036854775807 :=
    read_eq_ok_iff (by decide) (by decide) unsigned
  unfold readWhole?
  cases hshort : Numeral.read signed32 cs with
  | ok m =>
    obtain ⟨digits, value, most⟩ := (short m).mp hshort
    have exact : (Int32.ofInt m).toInt = m := Int32.toInt_ofInt_of_le (by omega) (by omega)
    rw [Option.some.injEq, and_iff_right digits]
    constructor
    · rintro rfl
      exact .inl ⟨_, exact.trans value, rfl⟩
    · rintro (⟨n, same, rfl⟩ | ⟨n, same, large, -⟩)
      · have number : Int32.ofInt m = n := Int32.toInt_inj.mp (by omega)
        rw [number]
      · omega
  | error fault =>
    have beyond (digits : Digits cs) : 2147483647 < (digitsValue cs : Int) := by
      by_contra small
      have read := (short _).mpr ⟨digits, rfl, Int.not_lt.mp small⟩
      rw [hshort] at read
      cases read
    dsimp only
    cases hwide : Numeral.read signed64 cs with
    | ok m =>
      obtain ⟨digits, value, most⟩ := (wide m).mp hwide
      have large := beyond digits
      have exact : (Int64.ofInt m).toInt = m := Int64.toInt_ofInt_of_le (by omega) (by omega)
      rw [Option.some.injEq, and_iff_right digits]
      constructor
      · rintro rfl
        exact .inr ⟨_, exact.trans value, by omega, rfl⟩
      · rintro (⟨n, same, -⟩ | ⟨n, same, -, rfl⟩)
        · have most : n.toInt ≤ 2147483647 := n.toInt_le
          omega
        · have number : Int64.ofInt m = n := Int64.toInt_inj.mp (by omega)
          rw [number]
    | error fault =>
      refine iff_of_false (fun h => by cases h) ?_
      rintro ⟨digits, ⟨n, same, -⟩ | ⟨n, same, -, -⟩⟩
      · have most : n.toInt ≤ 2147483647 := n.toInt_le
        have large := beyond digits
        omega
      · have most : n.toInt ≤ 9223372036854775807 := n.toInt_le
        have read := (wide _).mpr ⟨digits, rfl, by omega⟩
        rw [hwide] at read
        cases read

/-! ## Literals -/

/-- Characters are read exactly as the value that they denote. -/
theorem readLiteral?_eq_some_iff (cs : List Char) (v : Value) :
    readLiteral? cs = some v ↔ Denotes cs v := by
  constructor
  · intro h
    unfold readLiteral? at h
    split at h
    · cases h
    · next proper =>
      have literal : ∀ c ∈ cs, isLiteralChar c = true := by
        simp only [Bool.or_eq_true, List.isEmpty_iff, Bool.not_eq_true', not_or,
          Bool.not_eq_false, List.all_eq_true] at proper
        exact proper.2
      split at h
      · next separated =>
        have separated : Span.separator ∈ cs := List.contains_iff_mem.mp separated
        cases hspan : Span.ofChars cs with
        | error fault =>
          rw [hspan] at h
          cases h
        | ok span =>
          rw [hspan] at h
          cases h
          obtain ⟨before, after, rfl, low, high⟩ :=
            (Span.ofChars_eq_ok_iff literal separated).mp hspan
          exact .range low high
      · split at h
        · obtain ⟨x, hx, rfl⟩ := Option.map_eq_some_iff.mp h
          obtain ⟨whole, fraction, rfl, digits, rfl⟩ := readPointed?_eq_some_iff.mp hx
          exact .float digits
        · have unsigned := unsigned_of_isLiteralChar literal
          obtain ⟨digits, ⟨n, value, rfl⟩ | ⟨n, value, wide, rfl⟩⟩ :=
            (readWhole?_eq_some_iff unsigned).mp h
          · exact .int digits value
          · exact .long digits value wide
  · intro h
    obtain ⟨some, literal⟩ := h.literal
    have proper : ¬(cs.isEmpty || !cs.all isLiteralChar) = true := by
      simp only [Bool.or_eq_true, List.isEmpty_iff, Bool.not_eq_true', not_or,
        Bool.not_eq_false, List.all_eq_true]
      exact ⟨some, literal⟩
    have without {ds : List Char} {mark : Char} (digits : Digits ds)
        (other : isDigit mark = false) : ¬ds.contains mark = true := by
      rw [List.contains_iff_mem]
      exact fun member => ne_of_isDigit (digits.all mark member) other rfl
    unfold readLiteral?
    rw [if_neg proper]
    cases h with
    | int digits value =>
      rw [if_neg (without digits rfl), if_neg (without digits rfl),
        readWhole?_eq_some_iff digits.unsigned]
      exact ⟨digits, .inl ⟨_, value, rfl⟩⟩
    | long digits value wide =>
      rw [if_neg (without digits rfl), if_neg (without digits rfl),
        readWhole?_eq_some_iff digits.unsigned]
      exact ⟨digits, .inr ⟨_, value, wide, rfl⟩⟩
    | @float whole fraction digits =>
      have pointed : (whole ++ '.' :: fraction).contains '.' = true := by simp
      have unseparated : ¬(whole ++ '.' :: fraction).contains Span.separator = true := by
        have absent : ¬(whole ++ fraction).contains Span.separator = true := without digits rfl
        simp only [List.contains_iff_mem, List.mem_append, List.mem_cons, not_or] at absent ⊢
        exact ⟨absent.1, by decide, absent.2⟩
      rw [if_neg unseparated, if_pos pointed, readPointed?_eq_some_iff.mpr
        ⟨whole, fraction, rfl, digits, rfl⟩]
      rfl
    | @range before after lo hi low high =>
      have separated : (before ++ Span.separator :: after).contains Span.separator = true := by
        simp
      have span : Span.ofChars (before ++ Span.separator :: after) = .ok ⟨lo, hi⟩ :=
        (Span.ofChars_eq_ok_iff literal (List.contains_iff_mem.mp separated)).mpr
          ⟨before, after, rfl, low, high⟩
      rw [if_pos separated, span]
      rfl

namespace Value

/-- The value is a number that literals can denote in the way it is written: an int that
is not negative, a long number beyond 32 bits, or a range of ends that are not negative. -/
def IsPlain : Value → Prop
  | int n => 0 ≤ n.toInt
  | long n => 2 ^ 31 ≤ n.toInt
  | range span => 0 ≤ span.lo.toInt ∧ 0 ≤ span.hi.toInt
  | byte _ | float _ | reference _ | invalid => False

instance : DecidablePred IsPlain
  | int n => inferInstanceAs (Decidable (0 ≤ n.toInt))
  | long n => inferInstanceAs (Decidable (2 ^ 31 ≤ n.toInt))
  | range span => inferInstanceAs (Decidable (0 ≤ span.lo.toInt ∧ 0 ≤ span.hi.toInt))
  | byte _ | float _ | reference _ | invalid => isFalse id

/-- What is written of a plain value denotes it, and is made of digits and separators. -/
theorem IsPlain.denotes {v : Value} (plain : v.IsPlain) :
    Denotes v.text.toList v ∧ ∀ c ∈ v.text.toList, isDigit c = true ∨ c = Span.separator := by
  have written {n : Int} (h : 0 ≤ n) : ∀ c ∈ write n, isDigit c = true ∨ c = Span.separator :=
    fun c member => .inl ((digits_write h).1.all c member)
  cases v with
  | int n =>
    obtain ⟨digits, value⟩ := digits_write plain
    rw [Value.text, Numeral.text, String.toList_ofList]
    exact ⟨.int digits value.symm, written plain⟩
  | long n =>
    have wide : 2 ^ 31 ≤ n.toInt := plain
    have positive : 0 ≤ n.toInt := by omega
    obtain ⟨digits, value⟩ := digits_write positive
    rw [Value.text, Numeral.text, String.toList_ofList]
    exact ⟨.long digits value.symm wide, written positive⟩
  | range span =>
    obtain ⟨low, high⟩ := plain
    have ending {n : Int32} (h : 0 ≤ n.toInt) : Span.EndDenotes (write n.toInt) n := by
      obtain ⟨digits, value⟩ := digits_write h
      have bare : Span.EndDenotes ([] ++ write n.toInt ++ []) n :=
        .intro (fun c member => (List.not_mem_nil member).elim)
          (fun c member => (List.not_mem_nil member).elim) digits value.symm
      rwa [List.nil_append, List.append_nil] at bare
    rw [Value.text, Span.text, String.toList_ofList]
    refine ⟨.range (ending low) (ending high), fun c member => ?_⟩
    rcases List.mem_append.mp member with before | rest
    · exact written low c before
    · rcases List.mem_cons.mp rest with rfl | after
      · exact .inr rfl
      · exact written high c after
  | byte | float | reference | invalid => exact plain.elim

/-- No character that is written of a plain value is blank. -/
theorem IsPlain.trimChars_text {v : Value} (plain : v.IsPlain) :
    trimChars v.text.toList = v.text.toList := by
  refine trimChars_of_not_blank fun c member => ?_
  rcases plain.denotes.2 c member with digit | rfl
  · exact isBlank_of_isDigit digit
  · rfl

/-- A text is read exactly as the value that it denotes without blank ends. -/
theorem ofLiteral_eq_ok_iff (text : String) (v : Value) :
    ofLiteral text = .ok v ↔ Denotes (trimChars text.toList) v := by
  rw [← readLiteral?_eq_some_iff]
  unfold ofLiteral ofLiteral?
  cases readLiteral? (trimChars text.toList) <;> simp

/-- What is written of a plain value is read as this value. -/
theorem IsPlain.ofLiteral_text {v : Value} (plain : v.IsPlain) : ofLiteral v.text = .ok v := by
  rw [ofLiteral_eq_ok_iff, plain.trimChars_text]
  exact plain.denotes.1

/-- Reading a text yields the value that it denotes without blank ends, and the fault of
the whole text where it denotes none. What is written of a plain value is read as this
value. -/
theorem ofLiteral_grammar (text : String) :
    (∀ v, ofLiteral text = .ok v ↔ Denotes (trimChars text.toList) v) ∧
      ((∀ v, ¬Denotes (trimChars text.toList) v) →
        ofLiteral text = .error (.malformedToken text)) ∧
      ∀ v : Value, v.IsPlain → ofLiteral v.text = .ok v := by
  refine ⟨ofLiteral_eq_ok_iff text, fun none => ?_, fun v plain => plain.ofLiteral_text⟩
  have unread : ofLiteral? text = Option.none := by
    rw [Option.eq_none_iff_forall_ne_some]
    intro v some
    exact none v ((readLiteral?_eq_some_iff _ v).mp some)
  unfold ofLiteral
  rw [unread]

/-- A range with spaces and leading zeros, and the least number that is written as a long
one. -/
theorem ofLiteral_grammar_padded :
    ofLiteral " 007 > 42 " = .ok (range ⟨7, 42⟩) ∧
      ofLiteral (long 2147483648).text = .ok (long 2147483648) := by
  have low : Span.EndDenotes ([] ++ ['0', '0', '7'] ++ [' ']) 7 :=
    .intro (by simp) (by simp) ⟨by simp, List.all_eq_true.mp (by decide)⟩ (by decide)
  have high : Span.EndDenotes ([' '] ++ ['4', '2'] ++ []) 42 :=
    .intro (by simp) (by simp) ⟨by simp, List.all_eq_true.mp (by decide)⟩ (by decide)
  exact ⟨((ofLiteral_grammar " 007 > 42 ").1 _).mpr (.range low high),
    (ofLiteral_grammar "").2.2 _ (by decide)⟩

end Value

end CueRouter
