import CueRouter.Proofs.Key.Listing
import CueRouter.Proofs.Text.Signed

/-!
# Reading what is written for keycodes without a name

A keycode without a name is written as its numeral, and what can stand in a list includes
every numeral. Reading the list looks the numeral up among the names. In the standard table
the names made of figures are those of the ten digit keys, so the numerals 0 to 7, of
keycodes that have no name, are read as the digit keys, and every other numeral of a keycode
without a name is unknown. A list is read back as another one exactly if it holds one of
those keycodes and no keycode that makes the reading fail.
-/

namespace CueRouter.KeyNames

open Text

variable {codes : List Int32} {code : Int32}

/-! ## Numerals as items -/

/-- The characters that numerals are made of. -/
def isFigure (c : Char) : Bool := c == '-' || Numeral.isDigit c

/-- A figure is a minus sign or a character between the two ends of the digits. -/
theorem toNat_of_isFigure {c : Char} (h : isFigure c = true) :
    c.toNat = 45 ∨ 48 ≤ c.toNat ∧ c.toNat ≤ 57 := by
  rcases Bool.or_eq_true_iff.mp h with minus | digit
  · exact .inl (by simp [eq_of_beq minus])
  · exact .inr (by simpa [Numeral.isDigit] using digit)

/-- A figure has no capital and no small form. -/
theorem toLower_of_isFigure {c : Char} (h : isFigure c = true) : c.toLower = c := by
  have bounds := toNat_of_isFigure h
  have low : ¬('A').val ≤ c.val := by
    rw [UInt32.le_iff_toNat_le]
    show ¬65 ≤ c.toNat
    omega
  exact dif_neg fun capital => low capital.1

/-- A numeral is made of figures. -/
theorem isFigure_of_mem_write {n : Int} {c : Char} (h : c ∈ Numeral.write n) :
    isFigure c = true := by
  have digit {m : Nat} (member : c ∈ Numeral.digits m) : isFigure c = true := by
    simp [isFigure, (Numeral.digits_digits m).all c member]
  unfold Numeral.write at h
  split at h
  · rcases List.mem_cons.mp h with rfl | member
    · rfl
    · exact digit member
  · exact digit h

/-- A numeral can stand in a list. -/
theorem isItem_text (n : Int) : IsItem (Numeral.text n) := by
  have chars : (Numeral.text n).toList = Numeral.write n := String.toList_ofList
  refine ⟨by rw [chars, Numeral.trimChars_write], fun empty => ?_, fun comma => ?_⟩
  · have none : Numeral.write n = [] := by rw [← chars, empty]; rfl
    unfold Numeral.write at none
    split at none
    · exact List.cons_ne_nil _ _ none
    · exact Numeral.digits_ne_nil _ none
  · rw [chars] at comma
    exact absurd (isFigure_of_mem_write comma) (by decide)

/-- A numeral is looked up as it is. -/
theorem foldName_text (n : Int) : foldName (Numeral.text n) = Numeral.text n := by
  have lower : (Numeral.write n).map Char.toLower = Numeral.write n :=
    (List.map_congr_left (g := id) fun _ member =>
      toLower_of_isFigure (isFigure_of_mem_write member)).trans (List.map_id _)
  unfold foldName Numeral.text
  rw [String.toList_ofList, Numeral.trimChars_write, lower]

/-! ## Numerals as names -/

/-- The standard table looks names up in one spelling. -/
theorem code?_standard (name : String) :
    standard.code? name = findCode standardEntries (foldName name) := by rw [standard]

/-- The only names of the standard table that are made of figures are those of the digit
keys. -/
theorem exists_digit_of_mem_standardEntries :
    ∀ entry ∈ standardEntries, entry.1.toList.all isFigure = true →
      ∃ d ∈ List.range 10, entry = (String.ofList [Numeral.digitChar d], .ofNat (48 + d)) := by
  decide +kernel

/-- A numeral of one digit is that of the number the digit stands for. -/
theorem eq_of_write_eq_singleton {n : Int} {d : Nat} (small : d < 10)
    (h : Numeral.write n = [Numeral.digitChar d]) : n = d := by
  unfold Numeral.write at h
  split at h
  · exact absurd (List.cons.inj h).2 (Numeral.digits_ne_nil _)
  · have value := congrArg Numeral.digitsValue h
    have single : Numeral.digitsValue [Numeral.digitChar d] = d := by
      simp [Numeral.digitsValue, Numeral.digitValue_digitChar small]
    rw [Numeral.digitsValue_digits, single] at value
    omega

/-- The standard table finds a numeral only for a number of one digit, and finds the digit
key. -/
theorem code?_text_eq_some {n : Int} {found : Int32}
    (h : standard.code? (Numeral.text n) = some found) :
    (0 ≤ n ∧ n < 10) ∧ found.toInt = n + 48 := by
  rw [code?_standard, foldName_text] at h
  have listed : (Numeral.text n, found) ∈ standardEntries := mem_of_findCode h
  have chars : (Numeral.text n).toList = Numeral.write n := String.toList_ofList
  have figures : (Numeral.text n).toList.all isFigure = true :=
    List.all_eq_true.mpr fun c member => isFigure_of_mem_write (chars ▸ member)
  obtain ⟨d, small, same⟩ := exists_digit_of_mem_standardEntries _ listed figures
  have bound : d < 10 := List.mem_range.mp small
  obtain ⟨name, rfl⟩ := Prod.mk.inj same
  have value : n = d := eq_of_write_eq_singleton bound (by rw [← chars, name, String.toList_ofList])
  have wide : (Int32.ofNat (48 + d)).toInt = (48 + d : Nat) :=
    Int32.toInt_ofNat_of_lt (by omega)
  omega

/-! ## Reading one keycode again -/

/-- The keycode has no name of its own, and its numeral is the name of a digit key. -/
def Mistaken (code : Int32) : Prop := 0 ≤ code.toInt ∧ code.toInt ≤ 7

/-- Whether a keycode is mistaken for another can be read off its number. -/
instance : DecidablePred Mistaken := fun _ => instDecidableAnd

/-- The keycode has a name, or its numeral is one. -/
def Readable (code : Int32) : Prop := Mistaken code ∨ (standard.name? code).isSome

/-- Whether a keycode is readable can be looked up. -/
instance : DecidablePred Readable := fun _ => instDecidableOr

/-- The keycode as which a readable one is read. -/
def readAs (code : Int32) : Int32 := if Mistaken code then code + 48 else code

/-- What the standard table reads where it has written a keycode. -/
def reread (code : Int32) : Except ConfigFault Int32 :=
  if Readable code then .ok (readAs code)
  else .error (.malformedToken (Numeral.text code.toInt))

/-- No entry of the standard table is for a keycode that is mistaken. -/
theorem not_mistaken_of_mem_standardEntries : ∀ entry ∈ standardEntries, ¬Mistaken entry.2 := by
  decide +kernel

/-- The numeral of a keycode that is mistaken names a digit key. -/
theorem mem_standardEntries_of_mistaken (h : Mistaken code) :
    (Numeral.text code.toInt, code + 48) ∈ standardEntries := by
  have all : ∀ d ∈ List.range 8, (Numeral.text d, Int32.ofNat d + 48) ∈ standardEntries := by
    decide +kernel
  obtain ⟨low, high⟩ := h
  obtain ⟨d, value⟩ := Int.eq_ofNat_of_zero_le low
  have same : code = Int32.ofNat d := by
    rw [← Int32.toInt_inj, Int32.toInt_ofNat_of_lt (by omega)]
    exact value
  have member := all d (List.mem_range.mpr (by omega))
  rwa [← same, ← value] at member

/-- A keycode that is mistaken has no name. -/
theorem name?_of_mistaken (h : Mistaken code) : standard.name? code = none :=
  Option.eq_none_iff_forall_not_mem.mpr fun _ named =>
    not_mistaken_of_mem_standardEntries _ (mem_of_findName named) h

/-- A keycode without a name that is not mistaken is written as an unknown name. -/
theorem code?_text_of_nameless (nameless : standard.name? code = none) (h : ¬Mistaken code) :
    standard.code? (Numeral.text code.toInt) = none := by
  refine Option.eq_none_iff_forall_not_mem.mpr fun found known => ?_
  obtain ⟨⟨low, high⟩, -⟩ := code?_text_eq_some known
  have left : code.toInt = (8 : Int32).toInt ∨ code.toInt = (9 : Int32).toInt := by
    have above : ¬code.toInt ≤ 7 := fun most => h ⟨low, most⟩
    have eight : (8 : Int32).toInt = 8 := rfl
    have nine : (9 : Int32).toInt = 9 := rfl
    omega
  rcases left with same | same
  · rw [Int32.toInt_inj.mp same] at nameless
    exact absurd nameless (by decide +kernel)
  · rw [Int32.toInt_inj.mp same] at nameless
    exact absurd nameless (by decide +kernel)

/-- What is written for a keycode with a name is this name, which is found. -/
theorem code?_writeItem_of_named {name : String} (named : standard.name? code = some name) :
    standard.code? (standard.writeItem code) = some code := by
  have member := mem_of_findName named
  have plain := (isItem_and_foldName_of_mem_standardEntries _ member).2
  have written : standard.writeItem code = name := by simp [writeItem, named]
  rw [written, code?_standard, plain]
  exact findCode_of_mem nodup_standardEntries member

/-- What is written for a keycode without a name is its numeral. -/
theorem writeItem_of_nameless (nameless : standard.name? code = none) :
    standard.writeItem code = Numeral.text code.toInt := by
  simp [writeItem, nameless]

/-- Every keycode is written as what can stand in a list. -/
theorem isItem_writeItem (code : Int32) : IsItem (standard.writeItem code) := by
  cases named : standard.name? code with
  | none =>
    rw [writeItem_of_nameless named]
    exact isItem_text _
  | some name =>
    have written : standard.writeItem code = name := by simp [writeItem, named]
    rw [written]
    exact (isItem_and_foldName_of_mem_standardEntries _ (mem_of_findName named)).1

/-- What is written for a keycode is read as the keycode itself if this has a name, as a
digit key if it is mistaken for one, and not at all otherwise. -/
theorem readItem_writeItem (code : Int32) :
    standard.readItem (standard.writeItem code) = reread code := by
  by_cases mistaken : Mistaken code
  · have digit : standard.code? (Numeral.text code.toInt) = some (code + 48) := by
      rw [code?_standard, foldName_text]
      exact findCode_of_mem nodup_standardEntries (mem_standardEntries_of_mistaken mistaken)
    rw [writeItem_of_nameless (name?_of_mistaken mistaken), readItem_eq_ok_iff.mpr digit]
    simp [reread, Readable, readAs, mistaken]
  · cases named : standard.name? code with
    | none =>
      rw [writeItem_of_nameless named, readItem, code?_text_of_nameless named mistaken]
      simp [reread, Readable, mistaken, named]
    | some name =>
      rw [readItem_eq_ok_iff.mpr (code?_writeItem_of_named named)]
      simp [reread, Readable, readAs, mistaken, named]

/-- Only a mistaken keycode is read as another. -/
theorem readAs_eq_self_iff : readAs code = code ↔ ¬Mistaken code := by
  unfold readAs
  split <;> simp_all

/-! ## Reading a list again -/

/-- What is written for keycodes is read keycode by keycode. -/
theorem readList_writeList_eq (codes : List Int32) :
    standard.readList (standard.writeList codes) = codes.mapM reread := by
  rw [readList, listItems_writeList fun code _ => isItem_writeItem code, List.mapM_map]
  exact congrArg codes.mapM (funext readItem_writeItem)

/-- A list is read again exactly if all of its keycodes are readable. -/
theorem mapM_reread_eq_ok_iff {others : List Int32} :
    codes.mapM reread = .ok others ↔
      (∀ code ∈ codes, Readable code) ∧ codes.map readAs = others := by
  have one (code other : Int32) :
      reread code = .ok other ↔ Readable code ∧ readAs code = other := by
    unfold reread
    split <;> simp_all
  simp only [mapM_eq_ok_iff, one]
  rw [List.forall₂_and_left, ← List.forall₂_map_left_iff, List.forall₂_eq_eq_eq]

/-- Reading a list again fails exactly if one of its keycodes is not readable. -/
theorem exists_mapM_reread_eq_error_iff :
    (∃ fault, codes.mapM reread = .error fault) ↔ ∃ code ∈ codes, ¬Readable code := by
  constructor
  · rintro ⟨fault, failed⟩
    by_contra none
    push Not at none
    have read := mapM_reread_eq_ok_iff.mpr ⟨none, rfl⟩
    rw [failed] at read
    exact nomatch read
  · rintro ⟨code, member, unreadable⟩
    cases read : codes.mapM reread with
    | error fault => exact ⟨fault, rfl⟩
    | ok others => exact absurd ((mapM_reread_eq_ok_iff.mp read).1 code member) unreadable

/-- With the standard table, reading what is written for keycodes reads each of them again,
and it gives the same keycodes or fails exactly if none of them is mistaken for a digit key
or one of them is not readable. -/
theorem readList_writeList_same_iff (codes : List Int32) :
    standard.readList (standard.writeList codes) = codes.mapM reread ∧
      ((standard.readList (standard.writeList codes) = .ok codes ∨
          ∃ fault, standard.readList (standard.writeList codes) = .error fault) ↔
        (∀ code ∈ codes, ¬Mistaken code) ∨ ∃ code ∈ codes, ¬Readable code) := by
  refine ⟨readList_writeList_eq codes, ?_⟩
  have same : codes.map readAs = codes ↔ ∀ code ∈ codes, ¬Mistaken code := by
    have pointwise : codes.map readAs = codes.map id ↔ ∀ code ∈ codes, readAs code = id code :=
      List.map_inj_left
    simpa [readAs_eq_self_iff] using pointwise
  rw [readList_writeList_eq, exists_mapM_reread_eq_error_iff, mapM_reread_eq_ok_iff, same]
  by_cases readable : ∀ code ∈ codes, Readable code
  · rw [and_iff_right readable]
  · have unreadable : ∃ code ∈ codes, ¬Readable code := by simpa using readable
    simp only [unreadable, or_true]

/-- The keycode 5 has no name and is read as the key of the digit 5. -/
theorem not_readList_writeList_five :
    ¬∀ codes : List Int32,
      standard.readList (standard.writeList codes) = .ok codes ∨
        ∃ fault, standard.readList (standard.writeList codes) = .error fault := by
  intro all
  have read : standard.readList (standard.writeList [5]) = .ok [53] := by
    rw [readList_writeList_eq, mapM_reread_eq_ok_iff, List.forall_mem_singleton]
    decide +kernel
  rcases all [5] with same | ⟨fault, failed⟩
  · rw [read] at same
    exact absurd same (by decide)
  · rw [read] at failed
    exact nomatch failed

end CueRouter.KeyNames
