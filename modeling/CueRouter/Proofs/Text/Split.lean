import CueRouter.Text.Split

/-!
# Joining pieces again

Joining the pieces of a split gives the text back. The other way round, pieces that are
joined are split again at the same places, as long as no separator is met within a piece
or across its end. The pieces of a split are like this, and so are they when some of
them are left out.
-/

namespace CueRouter.Text

/-- The separator does not occur in the characters. -/
def Free (separator : List Char) : List Char → Prop
  | [] => True
  | c :: cs => stripFront separator (c :: cs) = none ∧ Free separator cs

/-- A separator behind the characters is the first that a scan of them meets. -/
def Closed (separator : List Char) : List Char → Prop
  | [] => True
  | c :: cs => stripFront separator (c :: cs ++ separator) = none ∧ Closed separator cs

/-- The pieces can be told apart when they are joined: a separator behind a piece is the
first that is met, and none occurs in the last. -/
def Apart (separator : List Char) : List (List Char) → Prop
  | [] => True
  | [last] => Free separator last
  | piece :: next :: rest => Closed separator piece ∧ Apart separator (next :: rest)

variable {separator piece cs : List Char} {pieces : List (List Char)}

/-! ## Characters behind others -/

/-- What stands at the front stays there when more characters follow. -/
theorem stripFront_append_of_eq_some {front rest : List Char}
    (h : stripFront front cs = some rest) (more : List Char) :
    stripFront front (cs ++ more) = some (rest ++ more) := by
  rw [eq_append_of_stripFront h, List.append_assoc, stripFront_append]

/-- Whether enough characters start with something does not depend on those behind
them. -/
theorem stripFront_append_eq_none_iff {front : List Char} (h : front.length ≤ cs.length)
    (more : List Char) : stripFront front (cs ++ more) = none ↔ stripFront front cs = none := by
  induction front generalizing cs with
  | nil => simp [stripFront]
  | cons f front ih =>
    cases cs with
    | nil => cases h
    | cons c cs =>
      simp only [List.cons_append, stripFront]
      split
      · exact ih (Nat.le_of_succ_le_succ h)
      · exact Iff.rfl

/-- Whether a separator is met before the one behind the characters does not depend on
what follows it. -/
theorem stripFront_append_separator (separator cs more : List Char) :
    stripFront separator (cs ++ separator ++ more) = none ↔
      stripFront separator (cs ++ separator) = none := by
  refine stripFront_append_eq_none_iff ?_ more
  rw [List.length_append]
  exact Nat.le_add_left _ _

/-- No separator occurs in a piece that ends where the separator behind it begins. -/
theorem Closed.free (h : Closed separator piece) : Free separator piece := by
  induction piece with
  | nil => trivial
  | cons c cs ih =>
    refine ⟨?_, ih h.2⟩
    cases hs : stripFront separator (c :: cs) with
    | none => rfl
    | some rest =>
      have met := stripFront_append_of_eq_some hs separator
      rw [h.1] at met
      cases met

/-- A separator of one character is met only where that character stands. -/
theorem closed_singleton {mark : Char} (h : mark ∉ cs) : Closed [mark] cs := by
  induction cs with
  | nil => trivial
  | cons c cs ih =>
    obtain ⟨first, rest⟩ := not_or.mp (mt List.mem_cons.mpr h)
    exact ⟨if_neg first, ih rest⟩

/-- What does not occur in characters does not occur in a part of them. -/
theorem Free.of_append_left {ds : List Char} (h : Free separator (cs ++ ds)) :
    Free separator cs := by
  induction cs with
  | nil => trivial
  | cons c cs ih =>
    refine ⟨?_, ih h.2⟩
    cases found : stripFront separator (c :: cs) with
    | none => rfl
    | some rest =>
      have met := stripFront_append_of_eq_some found ds
      have missed : stripFront separator (c :: cs ++ ds) = none := h.1
      rw [missed] at met
      cases met

/-- What does not occur in characters does not occur behind some of them. -/
theorem Free.of_append_right {ds : List Char} (h : Free separator (cs ++ ds)) :
    Free separator ds := by
  induction cs with
  | nil => exact h
  | cons c cs ih => exact ih h.2

/-- Characters are free of a separator exactly if it is no stretch of them. -/
theorem free_iff_not_infix (some : separator ≠ []) :
    Free separator cs ↔ ¬separator <:+: cs := by
  have stripped (ds : List Char) : stripFront separator ds = none ↔ ¬separator <+: ds := by
    rw [Option.eq_none_iff_forall_ne_some]
    constructor
    · rintro missed ⟨rest, rfl⟩
      exact missed rest (stripFront_append separator rest)
    · rintro missed rest found
      exact missed ⟨rest, (eq_append_of_stripFront found).symm⟩
  induction cs with
  | nil => exact iff_of_true trivial fun within => some (List.infix_nil.mp within)
  | cons c cs ih =>
    rw [List.infix_cons_iff, not_or]
    exact and_congr (stripped _) ih

/-! ## Pieces that are apart -/

/-- The first of pieces that are apart is free of separators, and the others are
apart. -/
theorem Apart.cons (h : Apart separator (piece :: pieces)) :
    Free separator piece ∧ (pieces ≠ [] → Closed separator piece) ∧
      Apart separator pieces := by
  cases pieces with
  | nil => exact ⟨h, fun none => absurd rfl none, trivial⟩
  | cons next rest => exact ⟨h.1.free, fun _ => h.1, h.2⟩

/-- A piece is apart from those behind it if the separator in between is the first that
is met. -/
theorem apart_cons (free : Free separator piece)
    (closed : pieces ≠ [] → Closed separator piece) (rest : Apart separator pieces) :
    Apart separator (piece :: pieces) := by
  cases pieces with
  | nil => exact free
  | cons next rest => exact ⟨closed (List.cons_ne_nil _ _), ‹_›⟩

/-- Pieces are apart if a separator behind any of them is the first that is met. -/
theorem apart_of_closed (h : ∀ piece ∈ pieces, Closed separator piece) :
    Apart separator pieces := by
  induction pieces with
  | nil => trivial
  | cons piece rest ih =>
    obtain ⟨first, others⟩ := List.forall_mem_cons.mp h
    exact apart_cons first.free (fun _ => first) (ih others)

/-- The separator does not occur in pieces that are apart. -/
theorem Apart.free_of_mem (h : Apart separator pieces) (member : piece ∈ pieces) :
    Free separator piece := by
  induction pieces with
  | nil => cases member
  | cons first rest ih =>
    rcases List.mem_cons.mp member with rfl | later
    · exact h.cons.1
    · exact ih h.cons.2.2 later

/-- A separator behind any but the last of pieces that are apart is the first that is
met. -/
theorem Apart.closed_of_mem_dropLast (h : Apart separator pieces)
    (member : piece ∈ pieces.dropLast) : Closed separator piece := by
  induction pieces with
  | nil => cases member
  | cons first rest ih =>
    cases rest with
    | nil => cases member
    | cons next rest =>
      rw [List.dropLast_cons_cons] at member
      rcases List.mem_cons.mp member with rfl | later
      · exact h.1
      · exact ih h.2 later

/-- Pieces stay apart when some are left out. -/
theorem Apart.sublist {kept : List (List Char)} (h : Apart separator pieces)
    (sub : kept.Sublist pieces) : Apart separator kept := by
  induction sub with
  | slnil => trivial
  | cons piece _ ih => exact ih h.cons.2.2
  | @cons_cons kept pieces piece sub ih =>
    obtain ⟨free, closed, rest⟩ := h.cons
    refine apart_cons free (fun some => closed ?_) (ih rest)
    rintro rfl
    exact some (List.sublist_nil.mp sub)

/-- Joining is the same as joining in the library. -/
theorem joinWith_eq_intercalate (separator : List Char) (pieces : List (List Char)) :
    joinWith separator pieces = separator.intercalate pieces := by
  induction pieces with
  | nil => rfl
  | cons piece rest ih =>
    cases rest with
    | nil => exact List.intercalate_singleton.symm
    | cons next rest =>
      rw [joinWith_cons _ _ (List.cons_ne_nil _ _), ih, List.intercalate_cons_cons]

/-! ## Splitting -/

section Split

variable {first : Char} {more : List Char}

/-- No characters are one empty piece. -/
theorem splitOn_nil (first : Char) (more : List Char) : splitOn first more [] = [[]] := by
  rw [splitOn]

/-- The pieces of a split are apart. -/
theorem apart_splitOn (first : Char) (more cs : List Char) :
    Apart (first :: more) (splitOn first more cs) := by
  fun_induction splitOn first more cs with
  | case1 => trivial
  | case2 c cs rest found ih => exact apart_cons trivial (fun _ => trivial) ih
  | case3 c cs found ih =>
    have joined := joinWith_splitOn first more cs
    cases hsplit : splitOn first more cs with
    | nil => exact absurd hsplit (splitOn_ne_nil first more cs)
    | cons piece pieces =>
      rw [hsplit] at ih joined
      obtain ⟨free, closed, rest⟩ := ih.cons
      refine apart_cons ⟨?_, free⟩ (fun some => ⟨?_, closed some⟩) rest
      · cases hs : stripFront (first :: more) (c :: piece) with
        | none => rfl
        | some _ =>
          cases pieces with
          | nil =>
            have same : piece = cs := joined
            rw [same, found] at hs
            cases hs
          | cons next others =>
            rw [joinWith_cons _ _ (List.cons_ne_nil _ _), List.append_assoc] at joined
            have met := stripFront_append_of_eq_some hs
              (first :: more ++ joinWith (first :: more) (next :: others))
            rw [List.cons_append, joined, found] at met
            cases met
      · rw [joinWith_cons _ _ some] at joined
        have behind := stripFront_append_separator (first :: more) (c :: piece)
          (joinWith (first :: more) pieces)
        rw [List.cons_append, List.cons_append, joined] at behind
        exact behind.mp found

/-- Characters without a separator are one piece. -/
theorem splitOn_of_free (h : Free (first :: more) cs) : splitOn first more cs = [cs] := by
  induction cs with
  | nil => exact splitOn_nil first more
  | cons c cs ih =>
    rw [splitOn]
    split
    · next found =>
      rw [h.1] at found
      cases found
    · rw [ih h.2]
      rfl

/-- A closed piece in front of a separator is cut off there. -/
theorem splitOn_of_closed (h : Closed (first :: more) piece) (rest : List Char) :
    splitOn first more (piece ++ (first :: more) ++ rest) =
      piece :: splitOn first more rest := by
  induction piece with
  | nil =>
    have found := stripFront_append (first :: more) rest
    rw [List.nil_append, List.cons_append, splitOn]
    split
    · next other hother =>
      rw [← List.cons_append, found] at hother
      cases hother
      rfl
    · next hother =>
      rw [← List.cons_append, found] at hother
      cases hother
  | cons c cs ih =>
    rw [List.cons_append, List.cons_append, splitOn]
    split
    · next found =>
      have missed := (stripFront_append_separator (first :: more) (c :: cs) rest).mpr h.1
      rw [List.cons_append, List.cons_append] at missed
      rw [missed] at found
      cases found
    · rw [ih h.2]
      rfl

/-- Pieces that are apart are what splitting them yields when they are joined. -/
theorem splitOn_joinWith (h : Apart (first :: more) pieces) (some : pieces ≠ []) :
    splitOn first more (joinWith (first :: more) pieces) = pieces := by
  induction pieces with
  | nil => exact absurd rfl some
  | cons piece rest ih =>
    obtain ⟨free, closed, others⟩ := h.cons
    cases rest with
    | nil => exact splitOn_of_free free
    | cons next rest =>
      rw [joinWith_cons _ _ (List.cons_ne_nil _ _),
        splitOn_of_closed (closed (List.cons_ne_nil _ _)),
        ih others (List.cons_ne_nil _ _)]

end Split

end CueRouter.Text
