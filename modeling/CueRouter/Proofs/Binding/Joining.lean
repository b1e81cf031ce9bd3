import CueRouter.Binding.Clause
import CueRouter.Proofs.Text.Split
import CueRouter.Proofs.Text.Trim

/-!
# Joining clauses

The separator of clauses begins and ends with a space, so it can overlap itself: where a
clause ends in the word `and`, the scan meets a separator too early. Other clauses are split
again where they were joined.
-/

namespace CueRouter

open Text

/-- The characters of the separator between clauses. -/
def clauseSeparator : List Char := [' ', 'a', 'n', 'd', ' ']

/-- The clause ends where a separator behind it would be met too early. -/
def EndsInAnd (clause : String) : Prop := [' ', 'a', 'n', 'd'] <:+ clause.toList

/-- Whether a clause ends in the word can be read off its characters. -/
instance (clause : String) : Decidable (EndsInAnd clause) :=
  inferInstanceAs (Decidable (_ <:+ _))

/-- The text is a clause as splitting yields them. -/
structure IsClause (clause : String) : Prop where
  /-- There is nothing to trim. -/
  trimmed : trimChars clause.toList = clause.toList
  /-- It is not blank. -/
  nonempty : clause ≠ ""
  /-- It is not split any further. -/
  free : Free clauseSeparator clause.toList

namespace Text

variable {cs : List Char}

/-- A separator of clauses behind characters is the first that is met, unless they end in
the word. -/
theorem closed_of_free (free : Free clauseSeparator cs) (ends : ¬[' ', 'a', 'n', 'd'] <:+ cs) :
    Closed clauseSeparator cs := by
  induction cs with
  | nil => trivial
  | cons c cs ih =>
    refine ⟨?_, ih free.2 fun suffix => ends (suffix.trans (List.suffix_cons c cs))⟩
    cases found : stripFront clauseSeparator (c :: cs ++ clauseSeparator) with
    | none => rfl
    | some rest =>
      exfalso
      have whole : c :: cs ++ clauseSeparator = clauseSeparator ++ rest :=
        eq_append_of_stripFront found
      rcases cs with _ | ⟨x, _ | ⟨y, _ | ⟨z, _ | ⟨w, cs⟩⟩⟩⟩
      · cases whole
      · cases whole
      · cases whole
      · cases whole
        exact ends (List.suffix_refl _)
      · have long : clauseSeparator.length ≤ (c :: x :: y :: z :: w :: cs).length := by
          simp [clauseSeparator]
        rw [(stripFront_append_eq_none_iff long clauseSeparator).mpr free.1] at found
        cases found

end Text

/-! ## Clauses of a text -/

/-- Splitting yields clauses. -/
theorem isClause_of_mem_splitClauses {text clause : String} (h : clause ∈ splitClauses text) :
    IsClause clause := by
  unfold splitClauses at h
  obtain ⟨member, nonempty⟩ := List.mem_filter.mp h
  obtain ⟨piece, among, rfl⟩ := List.mem_map.mp member
  have free : Free clauseSeparator piece := (apart_splitOn _ _ _).free_of_mem among
  obtain ⟨before, after, -, -, whole⟩ := exists_blank_around_trimChars piece
  rw [whole] at free
  refine ⟨?_, ?_, ?_⟩
  · rw [String.toList_ofList, trimChars_trimChars]
  · rintro empty
    rw [empty] at nonempty
    cases nonempty
  · rw [String.toList_ofList]
    exact free.of_append_left.of_append_right

/-- Clauses can be told apart when they are joined, unless one that is not the last ends in
the word. -/
theorem apart_of_clauses {clauses : List String} (all : ∀ clause ∈ clauses, IsClause clause)
    (ends : ∀ clause ∈ clauses.dropLast, ¬EndsInAnd clause) :
    Apart clauseSeparator (clauses.map String.toList) := by
  induction clauses with
  | nil => trivial
  | cons clause rest ih =>
    obtain ⟨first, others⟩ := List.forall_mem_cons.mp all
    cases rest with
    | nil => exact first.free
    | cons next rest =>
      rw [List.dropLast_cons_cons] at ends
      obtain ⟨here, later⟩ := List.forall_mem_cons.mp ends
      exact ⟨closed_of_free first.free here, ih others later⟩

/-- The characters of joined clauses are those of the clauses with the separator between
them. -/
theorem toList_intercalate_and (clauses : List String) :
    (" and ".intercalate clauses).toList =
      joinWith clauseSeparator (clauses.map String.toList) := by
  rw [String.toList_intercalate, joinWith_eq_intercalate]
  rfl

/-- Joined clauses are split again where they were joined, unless one that is not the last
ends in the word. -/
theorem splitClauses_intercalate {clauses : List String}
    (all : ∀ clause ∈ clauses, IsClause clause)
    (ends : ∀ clause ∈ clauses.dropLast, ¬EndsInAnd clause) :
    splitClauses (" and ".intercalate clauses) = clauses := by
  have trimmed : clauses.map ((fun piece => String.ofList (trimChars piece)) ∘ String.toList) =
      clauses := by
    refine List.map_congr_left (g := id) (fun clause member => ?_) |>.trans (List.map_id _)
    dsimp only [Function.comp]
    rw [(all clause member).trimmed, String.ofList_toList]
    rfl
  have kept : clauses.filter (fun clause => !clause.isEmpty) = clauses := by
    refine List.filter_eq_self.mpr fun clause member => ?_
    simpa using (all clause member).nonempty
  unfold splitClauses
  rw [toList_intercalate_and]
  by_cases none : clauses = []
  · rw [none, List.map_nil, joinWith, splitOn_nil]
    rfl
  · have split : splitOn ' ' ['a', 'n', 'd', ' '] (joinWith clauseSeparator
        (clauses.map String.toList)) = clauses.map String.toList :=
      splitOn_joinWith (apart_of_clauses all ends) (mt List.map_eq_nil_iff.mp none)
    rw [split, List.map_map, trimmed, kept]

end CueRouter
