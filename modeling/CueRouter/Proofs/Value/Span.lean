import CueRouter.Proofs.Text.Signed
import CueRouter.Value.Span

/-!
# What spans are read from

A text spells a span if what stands in front of its first separator and what stands behind
it are signed numerals for the two ends, white space around them aside, and a text without a
separator spells the span of its one number. Reading accepts exactly these texts. What is
written of a span is one of them, and remains one with white space around either end.
-/

namespace CueRouter.Span

open Text Text.Numeral

/-- The characters spell the span. -/
inductive Spells : List Char → Span → Prop
  /-- A numeral for each end, apart at the first separator. -/
  | ends {before after : List Char} {lo hi : Int32} (first : separator ∉ before)
      (low : Signed (trimChars before) lo.toInt) (high : Signed (trimChars after) hi.toInt) :
      Spells (before ++ separator :: after) ⟨lo, hi⟩
  /-- A numeral for both ends, without a separator. -/
  | single {cs : List Char} {n : Int32} (none : separator ∉ cs)
      (both : Signed (trimChars cs) n.toInt) : Spells cs (.single n)

variable {cs before after : List Char} {span : Span} {n : Int32}

/-! ## Reading -/

/-- An end is read exactly from a signed numeral for it, with white space around it or
not. -/
theorem readEnd_eq_ok_iff_signed :
    readEnd cs = .ok n ↔ Signed (trimChars cs) n.toInt := by
  have read (m : Int) : Numeral.read signed32 (trimChars cs) = .ok m ↔
      Signed (trimChars cs) m ∧ -2147483648 ≤ m ∧ m ≤ 2147483647 :=
    read_eq_ok_iff_signed (by decide) (by decide)
  unfold readEnd
  constructor
  · intro h
    cases hread : Numeral.read signed32 (trimChars cs) with
    | error fault =>
      rw [hread] at h
      cases h
    | ok m =>
      obtain ⟨signed, least, most⟩ := (read m).mp hread
      rw [hread] at h
      have number : Int32.ofInt m = n := Except.ok.inj h
      have exact : n.toInt = m := by
        rw [← number]
        exact Int32.toInt_ofInt_of_le (by omega) (by omega)
      rw [exact]
      exact signed
  · intro signed
    rw [(read n.toInt).mpr ⟨signed, n.le_toInt, n.toInt_le⟩]
    exact congrArg Except.ok n.ofInt_toInt

/-- A span is read exactly if both ends are. -/
theorem ofChars_eq_ok_iff_readEnd {halves : List Char × List Char}
    (split : (splitAtFirst separator cs).getD (cs, cs) = halves) :
    ofChars cs = .ok span ↔ readEnd halves.1 = .ok span.lo ∧ readEnd halves.2 = .ok span.hi := by
  obtain ⟨lo, hi⟩ := span
  unfold ofChars
  rw [split]
  simp only [bind, Except.bind]
  cases readEnd halves.1 <;> cases readEnd halves.2 <;> simp [pure, Except.pure]

/-- The ends of a span stand in front of the first separator and behind it. -/
theorem ofChars_of_separator (first : separator ∉ before) :
    ofChars (before ++ separator :: after) = .ok span ↔
      readEnd before = .ok span.lo ∧ readEnd after = .ok span.hi := by
  have split : splitAtFirst separator (before ++ separator :: after) = some (before, after) :=
    splitAtFirst_eq_some_iff.mpr ⟨rfl, first⟩
  exact ofChars_eq_ok_iff_readEnd (congrArg (Option.getD · _) split)

/-- Without a separator, both ends are the whole text. -/
theorem ofChars_of_no_separator (none : separator ∉ cs) :
    ofChars cs = .ok span ↔ readEnd cs = .ok span.lo ∧ readEnd cs = .ok span.hi := by
  have split : splitAtFirst separator cs = Option.none := splitAtFirst_eq_none_iff.mpr none
  exact ofChars_eq_ok_iff_readEnd (congrArg (Option.getD · _) split)

/-- Characters are read exactly as the span that they spell. -/
theorem ofChars_eq_ok_iff_spells : ofChars cs = .ok span ↔ Spells cs span := by
  constructor
  · intro h
    by_cases separated : separator ∈ cs
    · obtain ⟨before, after, rfl, first⟩ := List.eq_append_cons_of_mem separated
      obtain ⟨low, high⟩ := (ofChars_of_separator first).mp h
      exact .ends first (readEnd_eq_ok_iff_signed.mp low) (readEnd_eq_ok_iff_signed.mp high)
    · obtain ⟨low, high⟩ := (ofChars_of_no_separator separated).mp h
      obtain ⟨lo, hi⟩ := span
      have same : lo = hi := Except.ok.inj (low.symm.trans high)
      subst same
      exact .single separated (readEnd_eq_ok_iff_signed.mp low)
  · intro h
    cases h with
    | ends first low high =>
      exact (ofChars_of_separator first).mpr
        ⟨readEnd_eq_ok_iff_signed.mpr low, readEnd_eq_ok_iff_signed.mpr high⟩
    | single none both =>
      have read : readEnd cs = .ok _ := readEnd_eq_ok_iff_signed.mpr both
      exact (ofChars_of_no_separator none).mpr ⟨read, read⟩

/-! ## Writing -/

/-- Both ends are written as numerals, with the separator between them. -/
theorem text_eq (span : Span) :
    span.text = Numeral.text span.lo.toInt ++ ">" ++ Numeral.text span.hi.toInt := by
  rw [← String.toList_inj]
  simp [text, Numeral.text, separator]

/-- No separator stands in a numeral. -/
theorem separator_notMem_write (m : Int) : separator ∉ write m := by
  intro member
  rcases (signed_write m).figure member with digit | plus | minus
  · cases digit
  · cases plus
  · cases minus

/-- A numeral with white space around it is a signed numeral once it is trimmed. -/
theorem signed_padded (hbefore : Blank before) (hafter : Blank after) (m : Int) :
    Signed (trimChars (before ++ write m ++ after)) m := by
  rw [trimChars_append hbefore hafter, trimChars_write]
  exact signed_write m

/-- What is written of a span, with white space around either end or not, is read as this
span. -/
theorem ofText_padded {a b c d : String} (ha : Blank a.toList) (hb : Blank b.toList)
    (hc : Blank c.toList) (hd : Blank d.toList) (span : Span) :
    ofText (a ++ Numeral.text span.lo.toInt ++ b ++ ">" ++ c ++
      Numeral.text span.hi.toInt ++ d) = .ok span := by
  have first : separator ∉ a.toList ++ write span.lo.toInt ++ b.toList :=
    notMem_padded rfl ha hb (separator_notMem_write _)
  have spelled := Spells.ends first (signed_padded ha hb _) (signed_padded hc hd span.hi.toInt)
  unfold ofText
  rw [ofChars_eq_ok_iff_spells]
  simpa [Numeral.text, separator] using spelled

/-! ## The grammar -/

/-- What is written of a span is its two ends with the separator between them, and is read as
this span with any white space around either end. A text is read exactly as the span that it
spells, and is a fault if it spells none. -/
theorem ofText_grammar :
    (∀ span : Span,
      span.text = Numeral.text span.lo.toInt ++ ">" ++ Numeral.text span.hi.toInt ∧
      ∀ a b c d : String, Blank a.toList → Blank b.toList → Blank c.toList → Blank d.toList →
        ofText (a ++ Numeral.text span.lo.toInt ++ b ++ ">" ++ c ++
          Numeral.text span.hi.toInt ++ d) = .ok span) ∧
      ∀ text : String, (∀ span, ofText text = .ok span ↔ Spells text.toList span) ∧
        ((∃ fault, ofText text = .error fault) ↔ ∀ span, ¬Spells text.toList span) := by
  refine ⟨fun span => ⟨text_eq span, fun a b c d ha hb hc hd => ofText_padded ha hb hc hd span⟩,
    fun text => ?_⟩
  have read (span : Span) : ofText text = .ok span ↔ Spells text.toList span :=
    ofChars_eq_ok_iff_spells
  refine ⟨read, ?_, fun none => ?_⟩
  · rintro ⟨fault, failed⟩ span spelled
    rw [(read span).mpr spelled] at failed
    cases failed
  · cases h : ofText text with
    | error fault => exact ⟨fault, rfl⟩
    | ok span => exact absurd ((read span).mp h) (none span)

/-- The two extreme numbers with white space around them, and one number behind a plus
sign. -/
theorem ofText_grammar_extremes :
    ofText "\t-2147483648 > 2147483647\n" = .ok ⟨-2147483648, 2147483647⟩ ∧
      ofText "+05" = .ok (single 5) := by
  have digits : Digits ['0', '5'] := ⟨List.cons_ne_nil _ _, List.all_eq_true.mp rfl⟩
  have five : Signed (trimChars "+05".toList) (5 : Int32).toInt := .plus digits
  have wide := (ofText_grammar.1 ⟨-2147483648, 2147483647⟩).2 "\t" " " " " "\n" (by decide)
    (by decide) (by decide) (by decide)
  have padded : "\t" ++ Numeral.text (-2147483648 : Int32).toInt ++ " " ++ ">" ++ " " ++
      Numeral.text (2147483647 : Int32).toInt ++ "\n" = "\t-2147483648 > 2147483647\n" := by
    decide +kernel
  rw [padded] at wide
  exact ⟨wide, ((ofText_grammar.2 "+05").1 _).mpr (.single (by decide) five)⟩

end CueRouter.Span
