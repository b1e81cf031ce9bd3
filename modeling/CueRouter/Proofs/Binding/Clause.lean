import CueRouter.Proofs.Binding.Joining

/-!
# Clauses and their sides

Joining clauses is undone by splitting them exactly if each of them is a clause as splitting
yields them and only the last may end in the word `and`. A list that comes back has lost no
character on the way: trimming a piece or dropping a blank one makes the joined text shorter.
A clause has two sides exactly if one equals sign stands in it, behind a name that is not
blank, and the sides are what stands around this sign, trimmed.
-/

namespace CueRouter

open Text

namespace Text

/-- The pieces trimmed, the blank ones dropped. -/
def tidy (pieces : List (List Char)) : List (List Char) :=
  (pieces.map trimChars).filter fun piece => !piece.isEmpty

/-- The number of characters of the pieces, with a separator behind each. -/
def extent (separator : List Char) : List (List Char) → Nat
  | [] => 0
  | piece :: pieces => piece.length + separator.length + extent separator pieces

variable {separator piece cs : List Char} {pieces : List (List Char)}

/-! ## Trimmed pieces -/

/-- A blank piece is dropped. -/
theorem tidy_cons_of_blank (h : trimChars piece = []) : tidy (piece :: pieces) = tidy pieces := by
  unfold tidy
  rw [List.map_cons, h]
  rfl

/-- A piece that is not blank is trimmed. -/
theorem tidy_cons_of_ne_nil (h : trimChars piece ≠ []) :
    tidy (piece :: pieces) = trimChars piece :: tidy pieces := by
  unfold tidy
  rw [List.map_cons]
  exact List.filter_cons_of_pos (by simpa using h)

/-- Joined pieces have one separator less than pieces with a separator behind each. -/
theorem length_joinWith (some : pieces ≠ []) :
    (joinWith separator pieces).length + separator.length = extent separator pieces := by
  induction pieces with
  | nil => exact absurd rfl some
  | cons piece rest ih =>
    cases rest with
    | nil => rfl
    | cons next rest =>
      have others := ih (List.cons_ne_nil _ _)
      rw [joinWith_cons _ _ (List.cons_ne_nil _ _), extent, List.length_append,
        List.length_append]
      omega

/-- Tidying makes pieces no longer. -/
theorem extent_tidy_le (separator : List Char) (pieces : List (List Char)) :
    extent separator (tidy pieces) ≤ extent separator pieces := by
  induction pieces with
  | nil => exact Nat.le_refl _
  | cons piece rest ih =>
    have shorter := (length_trimChars piece).1
    by_cases blank : trimChars piece = []
    · rw [tidy_cons_of_blank blank, extent]
      omega
    · rw [tidy_cons_of_ne_nil blank, extent, extent]
      omega

/-- Pieces that tidying makes no shorter are left as they are. -/
theorem tidy_eq_self (some : separator ≠ [])
    (h : extent separator pieces ≤ extent separator (tidy pieces)) : tidy pieces = pieces := by
  induction pieces with
  | nil => rfl
  | cons piece rest ih =>
    have positive := List.length_pos_iff.mpr some
    have shorter := extent_tidy_le separator rest
    obtain ⟨most, same⟩ := length_trimChars piece
    by_cases blank : trimChars piece = []
    · rw [tidy_cons_of_blank blank, extent] at h
      omega
    · rw [tidy_cons_of_ne_nil blank, extent, extent] at h
      rw [tidy_cons_of_ne_nil blank, same (by omega), ih (by omega)]

/-- Pieces that are joined to the same characters after tidying are left as they are. -/
theorem tidy_eq_self_of_joinWith (some : separator ≠ []) (left : tidy pieces ≠ [])
    (h : joinWith separator (tidy pieces) = joinWith separator pieces) : tidy pieces = pieces := by
  have given : pieces ≠ [] := by
    rintro rfl
    exact left rfl
  refine tidy_eq_self some ?_
  rw [← length_joinWith given, ← length_joinWith left, h]

end Text

/-! ## Clauses of a joined text -/

/-- A text is empty if its characters are. -/
theorem isEmpty_ofList (cs : List Char) : (String.ofList cs).isEmpty = cs.isEmpty := by
  rw [Bool.eq_iff_iff]
  simp

/-- The clauses of a text are its pieces, trimmed, the blank ones dropped. -/
theorem map_toList_splitClauses (text : String) :
    (splitClauses text).map String.toList =
      tidy (splitOn ' ' ['a', 'n', 'd', ' '] text.toList) := by
  have chars : String.toList ∘ (fun piece => String.ofList (trimChars piece)) = trimChars :=
    funext fun piece => String.toList_ofList
  have blank : (fun clause : String => !clause.isEmpty) ∘
      (fun piece => String.ofList (trimChars piece)) =
      (fun piece : List Char => !piece.isEmpty) ∘ trimChars :=
    funext fun piece => congrArg not (isEmpty_ofList _)
  unfold splitClauses tidy
  rw [List.filter_map, List.filter_map, List.map_map, chars, blank]

/-- Text is a clause as splitting yields them exactly if it is not empty, there is nothing to
trim from it and it does not contain the separator. -/
theorem isClause_iff (clause : String) :
    IsClause clause ↔
      clause ≠ "" ∧ trim clause = clause ∧ ¬" and ".toList <:+: clause.toList := by
  have trimmed : trim clause = clause ↔ trimChars clause.toList = clause.toList := by
    rw [← String.toList_inj, toList_trim]
  have free : Free clauseSeparator clause.toList ↔ ¬" and ".toList <:+: clause.toList :=
    free_iff_not_infix (List.cons_ne_nil _ _)
  rw [trimmed, ← free]
  exact ⟨fun h => ⟨h.nonempty, h.trimmed, h.free⟩,
    fun ⟨nonempty, trimmed, free⟩ => ⟨trimmed, nonempty, free⟩⟩

/-- Characters that end in the word do not end where a separator behind them begins. -/
theorem not_closed_of_suffix (ends : [' ', 'a', 'n', 'd'] <:+ cs) :
    ¬Closed clauseSeparator cs := by
  obtain ⟨front, rfl⟩ := ends
  induction front with
  | nil =>
    intro closed
    have missed : stripFront clauseSeparator
        ([' ', 'a', 'n', 'd'] ++ clauseSeparator) = none := closed.1
    cases missed
  | cons c front ih => exact fun closed => ih closed.2

/-- Joining clauses is undone by splitting them exactly if each is a clause as splitting
yields them and only the last may end in the word. -/
theorem splitClauses_intercalate_iff (clauses : List String) :
    splitClauses (" and ".intercalate clauses) = clauses ↔
      (∀ clause ∈ clauses, IsClause clause) ∧ ∀ clause ∈ clauses.dropLast, ¬EndsInAnd clause := by
  refine ⟨fun same => ⟨fun clause member => ?_, fun clause member ends => ?_⟩,
    fun ⟨all, ends⟩ => splitClauses_intercalate all ends⟩
  · rw [← same] at member
    exact isClause_of_mem_splitClauses member
  · let pieces := splitOn ' ' ['a', 'n', 'd', ' '] (" and ".intercalate clauses).toList
    have tidied : tidy pieces = clauses.map String.toList := by
      rw [← map_toList_splitClauses, same]
    have joined : joinWith clauseSeparator (tidy pieces) = joinWith clauseSeparator pieces := by
      rw [tidied, ← toList_intercalate_and]
      exact (joinWith_splitOn _ _ _).symm
    have left : tidy pieces ≠ [] := by
      rw [tidied]
      rintro none
      rw [List.map_eq_nil_iff.mp none] at member
      cases member
    have whole : tidy pieces = pieces := tidy_eq_self_of_joinWith (List.cons_ne_nil _ _) left joined
    have apart : Apart clauseSeparator (clauses.map String.toList) := by
      rw [← tidied, whole]
      exact apart_splitOn _ _ _
    refine not_closed_of_suffix ends (apart.closed_of_mem_dropLast ?_)
    rw [← List.map_dropLast]
    exact List.mem_map_of_mem member

/-! ## Sides of a clause -/

variable {clause : String} {name expression : List Char}

/-- A clause without an equals sign has no sides. -/
theorem splitClause_of_notMem (h : '=' ∉ clause.toList) :
    splitClause clause = .error (.missingEquals clause) := by
  unfold splitClause
  rw [splitAtFirst_eq_none_iff.mpr h]

/-- A clause with a second equals sign has no sides. -/
theorem splitClause_of_mem (cut : clause.toList = name ++ '=' :: expression)
    (first : '=' ∉ name) (second : '=' ∈ expression) :
    splitClause clause = .error (.missingSeparator clause) := by
  unfold splitClause
  rw [splitAtFirst_eq_some_iff.mpr ⟨cut, first⟩]
  exact if_pos (List.contains_iff_mem.mpr second)

/-- A clause with a blank name has no sides. -/
theorem splitClause_of_blank (cut : clause.toList = name ++ '=' :: expression)
    (first : '=' ∉ name) (only : '=' ∉ expression) (blank : Blank name) :
    splitClause clause = .error (.malformedToken clause) := by
  unfold splitClause
  rw [splitAtFirst_eq_some_iff.mpr ⟨cut, first⟩]
  exact (if_neg (mt List.contains_iff_mem.mp only)).trans
    (if_pos (List.isEmpty_iff.mpr (trimChars_eq_nil_iff.mpr blank)))

/-- The sides of a clause are what stands around its equals sign, trimmed. -/
theorem splitClause_of_not_blank (cut : clause.toList = name ++ '=' :: expression)
    (first : '=' ∉ name) (only : '=' ∉ expression) (named : ¬Blank name) :
    splitClause clause =
      .ok ⟨.ofList (trimChars name), .ofList (trimChars expression)⟩ := by
  unfold splitClause
  rw [splitAtFirst_eq_some_iff.mpr ⟨cut, first⟩]
  exact (if_neg (mt List.contains_iff_mem.mp only)).trans
    (if_neg (mt List.isEmpty_iff.mp (mt trimChars_eq_nil_iff.mp named)))

/-- A clause has sides, or it has no equals sign, more than one, or a blank name. -/
theorem splitClause_cases (clause : String) :
    clause.toList.count '=' = 0 ∧ splitClause clause = .error (.missingEquals clause) ∨
      1 < clause.toList.count '=' ∧ splitClause clause = .error (.missingSeparator clause) ∨
      clause.toList.count '=' = 1 ∧
        (Blank (clause.toList.takeWhile (· != '=')) ∧
            splitClause clause = .error (.malformedToken clause) ∨
          ¬Blank (clause.toList.takeWhile (· != '=')) ∧
            ∃ sides, splitClause clause = .ok sides) := by
  by_cases signed : '=' ∈ clause.toList
  · obtain ⟨name, expression, cut, first⟩ := List.eq_append_cons_of_mem signed
    have count : clause.toList.count '=' = expression.count '=' + 1 := by
      rw [cut, List.count_append, List.count_eq_zero.mpr first, List.count_cons_self, Nat.zero_add]
    have inside : ∀ c ∈ name, (c != '=') = true := fun c member =>
      bne_iff_ne.mpr (ne_of_mem_of_not_mem member first)
    have front : clause.toList.takeWhile (· != '=') = name := by
      rw [cut, List.takeWhile_append_of_pos inside]
      exact List.append_nil name
    rw [count, front]
    by_cases second : '=' ∈ expression
    · have more := List.count_pos_iff.mpr second
      exact .inr (.inl ⟨by omega, splitClause_of_mem cut first second⟩)
    · rw [List.count_eq_zero.mpr second]
      refine .inr (.inr ⟨rfl, ?_⟩)
      by_cases blank : Blank name
      · exact .inl ⟨blank, splitClause_of_blank cut first second blank⟩
      · exact .inr ⟨blank, _, splitClause_of_not_blank cut first second blank⟩
  · exact .inl ⟨List.count_eq_zero.mpr signed, splitClause_of_notMem signed⟩

/-- White space around either side of a clause makes no difference to its sides. -/
theorem splitClause_padded {name expression a b c d : String} (first : '=' ∉ name.toList)
    (only : '=' ∉ expression.toList) (named : ¬Blank name.toList) (ha : Blank a.toList)
    (hb : Blank b.toList) (hc : Blank c.toList) (hd : Blank d.toList) :
    splitClause (a ++ name ++ b ++ "=" ++ c ++ expression ++ d) =
      .ok ⟨trim name, trim expression⟩ := by
  have cut : (a ++ name ++ b ++ "=" ++ c ++ expression ++ d).toList =
      (a.toList ++ name.toList ++ b.toList) ++
        '=' :: (c.toList ++ expression.toList ++ d.toList) := by
    simp
  have padded : ¬Blank (a.toList ++ name.toList ++ b.toList) := fun blank =>
    named fun c member => blank c (by simp [member])
  rw [splitClause_of_not_blank cut (notMem_padded rfl ha hb first) (notMem_padded rfl hc hd only)
    padded, trimChars_append ha hb, trimChars_append hc hd]
  rfl

/-! ## The grammar -/

/-- Splitting undoes joining exactly if no clause is empty, can be trimmed or contains the
separator, and only the last may end in the word. White space around a name and an expression
does not count for the sides of their clause. A clause has no sides exactly if its equals signs
are not one or only white space is in front, and the fault tells these cases apart. -/
theorem joined_splits_back :
    (∀ clauses : List String,
      splitClauses (" and ".intercalate clauses) = clauses ↔
        (∀ clause ∈ clauses,
          clause ≠ "" ∧ trim clause = clause ∧ ¬" and ".toList <:+: clause.toList) ∧
        ∀ clause ∈ clauses.dropLast, ¬" and".toList <:+ clause.toList) ∧
      (∀ name expression a b c d : String, '=' ∉ name.toList → '=' ∉ expression.toList →
        ¬Blank name.toList →
        Blank a.toList → Blank b.toList → Blank c.toList → Blank d.toList →
        splitClause (a ++ name ++ b ++ "=" ++ c ++ expression ++ d) =
          .ok ⟨trim name, trim expression⟩) ∧
      ∀ clause : String,
        ((∃ fault, splitClause clause = .error fault) ↔
          clause.toList.count '=' ≠ 1 ∨ Blank (clause.toList.takeWhile (· != '='))) ∧
        (clause.toList.count '=' = 0 → splitClause clause = .error (.missingEquals clause)) ∧
        (1 < clause.toList.count '=' →
          splitClause clause = .error (.missingSeparator clause)) ∧
        (clause.toList.count '=' = 1 → Blank (clause.toList.takeWhile (· != '=')) →
          splitClause clause = .error (.malformedToken clause)) := by
  refine ⟨fun clauses => ?_, fun name expression a b c d first only named ha hb hc hd =>
    splitClause_padded first only named ha hb hc hd, fun clause => ?_⟩
  · simp only [← isClause_iff]
    exact splitClauses_intercalate_iff clauses
  · rcases splitClause_cases clause with
      ⟨none, result⟩ | ⟨many, result⟩ | ⟨one, ⟨blank, result⟩ | ⟨named, sides, result⟩⟩
    · exact ⟨⟨fun _ => .inl (by omega), fun _ => ⟨_, result⟩⟩, fun _ => result,
        fun many => by omega, fun one => by omega⟩
    · exact ⟨⟨fun _ => .inl (by omega), fun _ => ⟨_, result⟩⟩, fun none => by omega,
        fun _ => result, fun one => by omega⟩
    · exact ⟨⟨fun _ => .inr blank, fun _ => ⟨_, result⟩⟩, fun none => by omega,
        fun many => by omega, fun _ _ => result⟩
    · refine ⟨⟨?_, ?_⟩, fun none => by omega, fun many => by omega,
        fun _ blank => absurd blank named⟩
      · rintro ⟨fault, failed⟩
        rw [result] at failed
        cases failed
      · rintro (other | blank)
        · exact absurd one other
        · exact absurd blank named

/-- The word alone is a clause, and the last clause may end in it. White space around the
sides is dropped, and a clause with two equals signs has no sides. -/
theorem joined_splits_back_spareWords :
    splitClauses "and and key=a and band and" = ["and", "key=a", "band and"] ∧
      splitClause "\t amount  = VOL+0.1 " = .ok ⟨"amount", "VOL+0.1"⟩ ∧
      splitClause "ctrl=7 val=1" = .error (.missingSeparator "ctrl=7 val=1") := by
  have joined : splitClauses (" and ".intercalate ["and", "key=a", "band and"]) =
      ["and", "key=a", "band and"] :=
    (joined_splits_back.1 _).mpr ⟨by decide +kernel, by decide +kernel⟩
  have spaced : splitClause ("\t " ++ "amount" ++ "  " ++ "=" ++ " " ++ "VOL+0.1" ++ " ") =
      .ok ⟨trim "amount", trim "VOL+0.1"⟩ :=
    joined_splits_back.2.1 "amount" "VOL+0.1" "\t " "  " " " " " (by decide) (by decide)
      (by decide) (by decide) (by decide) (by decide) (by decide)
  exact ⟨joined, spaced, (joined_splits_back.2.2 "ctrl=7 val=1").2.2.1 (by decide)⟩

end CueRouter
