import CueRouter.Text.Blank
import Mathlib.Data.List.DropRight

/-!
# What trimming keeps

A text is its trimming with blank characters before and behind it, and blank characters
at the ends are all that trimming ignores: texts that differ in them only have the same
trimming, and what was trimmed is not trimmed any further.
-/

namespace CueRouter.Text

/-- All of the characters are blank. -/
def Blank (cs : List Char) : Prop := ∀ c ∈ cs, isBlank c = true

/-- Whether characters are blank can be read off them. -/
instance (cs : List Char) : Decidable (Blank cs) :=
  decidable_of_iff (cs.all isBlank = true) List.all_eq_true

/-- Trimming takes nothing but blank characters off the ends. -/
theorem exists_blank_around_trimChars (cs : List Char) :
    ∃ before after, Blank before ∧ Blank after ∧ cs = before ++ trimChars cs ++ after := by
  refine ⟨cs.takeWhile isBlank, (trimLeft cs).rtakeWhile isBlank,
    fun c member => List.mem_takeWhile_imp member,
    fun c member => List.mem_rtakeWhile_imp member, ?_⟩
  have behind : trimChars cs ++ (trimLeft cs).rtakeWhile isBlank = trimLeft cs :=
    List.rdropWhile_append_rtakeWhile
  rw [List.append_assoc, behind]
  exact List.takeWhile_append_dropWhile.symm

/-- Blank characters at the ends make no difference to the trimming. -/
theorem trimChars_append {before after : List Char} (hbefore : Blank before)
    (hafter : Blank after) (cs : List Char) :
    trimChars (before ++ cs ++ after) = trimChars cs := by
  have front : trimLeft (before ++ cs ++ after) = trimLeft (cs ++ after) := by
    rw [List.append_assoc]
    exact List.dropWhile_append_of_pos hbefore
  have back (kept : List Char) : trimRight (kept ++ after) = trimRight kept := by
    unfold trimRight
    rw [List.reverse_append, List.dropWhile_append_of_pos]
    intro c member
    exact hafter c (List.mem_reverse.mp member)
  unfold trimChars
  rw [front]
  cases hleft : trimLeft cs with
  | nil =>
    have blank : Blank cs := List.dropWhile_eq_nil_iff.mp hleft
    have none : trimLeft (cs ++ after) = [] :=
      List.dropWhile_eq_nil_iff.mpr fun c member =>
        (List.mem_append.mp member).elim (blank c) (hafter c)
    rw [none]
  | cons c rest =>
    have kept : trimLeft (cs ++ after) = c :: rest ++ after := by
      unfold trimLeft at hleft ⊢
      rw [List.dropWhile_append, hleft]
      rfl
    rw [kept, back]

/-- A character that is not blank is not brought in by blank characters at the ends. -/
theorem notMem_padded {mark : Char} (solid : isBlank mark = false) {before after cs : List Char}
    (hbefore : Blank before) (hafter : Blank after) (h : mark ∉ cs) :
    mark ∉ before ++ cs ++ after := by
  have outside {ds : List Char} (blank : Blank ds) : mark ∉ ds := by
    intro member
    rw [blank mark member] at solid
    cases solid
  rw [List.mem_append, List.mem_append, not_or, not_or]
  exact ⟨⟨outside hbefore, h⟩, outside hafter⟩

/-- Characters none of which is blank are not trimmed. -/
theorem trimChars_of_not_blank {cs : List Char} (h : ∀ c ∈ cs, isBlank c = false) :
    trimChars cs = cs := by
  have kept {ds : List Char} (hds : ∀ c ∈ ds, isBlank c = false) : ds.dropWhile isBlank = ds := by
    cases ds with
    | nil => rfl
    | cons c ds =>
      have first := hds c List.mem_cons_self
      rw [List.dropWhile_cons, first]
      rfl
  have back : ∀ c ∈ cs.reverse, isBlank c = false := fun c member =>
    h c (List.mem_reverse.mp member)
  unfold trimChars trimLeft trimRight
  rw [kept h, kept back, List.reverse_reverse]

/-- What was trimmed is not trimmed any further. -/
@[simp] theorem trimChars_trimChars (cs : List Char) :
    trimChars (trimChars cs) = trimChars cs := by
  obtain ⟨before, after, hbefore, hafter, whole⟩ := exists_blank_around_trimChars cs
  have ends := trimChars_append hbefore hafter (trimChars cs)
  rw [← whole] at ends
  exact ends.symm

/-- Nothing is left of blank characters, and of blank characters only. -/
theorem trimChars_eq_nil_iff {cs : List Char} : trimChars cs = [] ↔ Blank cs := by
  constructor
  · intro none
    obtain ⟨before, after, hbefore, hafter, whole⟩ := exists_blank_around_trimChars cs
    rw [none, List.append_nil] at whole
    rw [whole]
    exact fun c member => (List.mem_append.mp member).elim (hbefore c) (hafter c)
  · intro blank
    have ends := trimChars_append blank (List.forall_mem_nil _) []
    rwa [List.append_nil, List.append_nil] at ends

/-- Trimming does not make characters more, and leaves them as they are if it does not make
them fewer. -/
theorem length_trimChars (cs : List Char) :
    (trimChars cs).length ≤ cs.length ∧
      (cs.length ≤ (trimChars cs).length → trimChars cs = cs) := by
  obtain ⟨before, after, -, -, whole⟩ := exists_blank_around_trimChars cs
  have length := congrArg List.length whole
  rw [List.length_append, List.length_append] at length
  refine ⟨by omega, fun most => ?_⟩
  have front : before = [] := List.eq_nil_of_length_eq_zero (by omega)
  have back : after = [] := List.eq_nil_of_length_eq_zero (by omega)
  rw [front, back, List.nil_append, List.append_nil] at whole
  exact whole.symm

/-- A trimmed text is not trimmed any further. -/
@[simp] theorem trim_trim (s : String) : trim (trim s) = trim s := by
  unfold trim
  rw [String.toList_ofList, trimChars_trimChars]

/-- Blank characters at the ends of a text make no difference to its trimming. -/
theorem trim_append {before after : String} (hbefore : Blank before.toList)
    (hafter : Blank after.toList) (s : String) : trim (before ++ s ++ after) = trim s := by
  unfold trim
  rw [String.toList_append, String.toList_append, trimChars_append hbefore hafter]

end CueRouter.Text
