import CueRouter.Text.Blank

/-!
# Splitting text

Two ways of cutting a text: at every occurrence of a separator, scanning from
the left and never overlapping, and once at the first occurrence of a single
character. Joining the pieces of the first cut with the separator gives the
text back, and the second cut loses exactly the one separator.
-/

namespace CueRouter.Text

/-- What follows `front` when the characters start with it. -/
def stripFront : (front cs : List Char) → Option (List Char)
  | [], cs => some cs
  | _ :: _, [] => none
  | f :: front, c :: cs => if f = c then stripFront front cs else none

theorem eq_append_of_stripFront {front cs rest : List Char}
    (h : stripFront front cs = some rest) : cs = front ++ rest := by
  fun_induction stripFront front cs with
  | case1 cs => simpa using h
  | case2 => simp at h
  | case3 f front cs ih => rw [List.cons_append, ← ih h]
  | case4 => simp at h

theorem stripFront_append (front rest : List Char) :
    stripFront front (front ++ rest) = some rest := by
  induction front with
  | nil => rfl
  | cons f front ih => simp [stripFront, ih]

/-- Put one character in front of the first piece. -/
def consFirst (c : Char) : List (List Char) → List (List Char)
  | [] => [[c]]
  | piece :: pieces => (c :: piece) :: pieces

/-- The pieces between the occurrences of a separator. The separator is given
by its first character and the rest, so it is never empty; an occurrence is
taken as soon as the scan from the left meets it. -/
def splitOn (first : Char) (more : List Char) : List Char → List (List Char)
  | [] => [[]]
  | c :: cs =>
    match _found : stripFront (first :: more) (c :: cs) with
    | some rest => [] :: splitOn first more rest
    | none => consFirst c (splitOn first more cs)
termination_by cs => cs.length
decreasing_by
  · have := congrArg List.length (eq_append_of_stripFront _found)
    simp only [List.length_append, List.length_cons] at this
    simp only [List.length_cons]
    omega
  · simp

/-- The pieces with the separator between neighbours. -/
def joinWith (separator : List Char) : List (List Char) → List Char
  | [] => []
  | [piece] => piece
  | piece :: next :: pieces =>
    piece ++ separator ++ joinWith separator (next :: pieces)

theorem splitOn_ne_nil (first : Char) (more cs : List Char) :
    splitOn first more cs ≠ [] := by
  fun_induction splitOn first more cs with
  | case1 => simp
  | case2 => simp
  | case3 c cs h ih => unfold consFirst; split <;> simp

theorem joinWith_cons (separator piece : List Char) {pieces : List (List Char)}
    (h : pieces ≠ []) :
    joinWith separator (piece :: pieces) =
      piece ++ separator ++ joinWith separator pieces := by
  match pieces, h with
  | _ :: _, _ => rfl

theorem joinWith_consFirst (separator : List Char) (c : Char)
    {pieces : List (List Char)} (h : pieces ≠ []) :
    joinWith separator (consFirst c pieces) = c :: joinWith separator pieces := by
  match pieces, h with
  | [piece], _ => rfl
  | piece :: next :: pieces, _ => rfl

/-- Splitting loses nothing but the separators. -/
theorem joinWith_splitOn (first : Char) (more cs : List Char) :
    joinWith (first :: more) (splitOn first more cs) = cs := by
  fun_induction splitOn first more cs with
  | case1 => rfl
  | case2 c cs rest h ih =>
    rw [joinWith_cons _ _ (splitOn_ne_nil first more rest), ih,
      eq_append_of_stripFront h]
    rfl
  | case3 c cs h ih =>
    rw [joinWith_consFirst _ _ (splitOn_ne_nil first more cs), ih]

/-- The characters before and after the first occurrence of `mark`. -/
def splitAtFirst (mark : Char) : List Char → Option (List Char × List Char)
  | [] => none
  | c :: cs =>
    if c = mark then some ([], cs)
    else (splitAtFirst mark cs).map fun halves => (c :: halves.1, halves.2)

/-- The first half holds no mark, and the mark stands between the halves. -/
theorem splitAtFirst_eq_some_iff {mark : Char} {cs before after : List Char} :
    splitAtFirst mark cs = some (before, after) ↔
      cs = before ++ mark :: after ∧ mark ∉ before := by
  induction cs generalizing before with
  | nil => simp [splitAtFirst]
  | cons c cs ih =>
    unfold splitAtFirst
    split
    · next hc =>
      subst hc
      cases before with
      | nil => simp
      | cons b before => simp; intro hb _ hm; exact absurd hb hm
    · next hc =>
      cases before with
      | nil => simp [hc]
      | cons b before =>
        simp only [Option.map_eq_some_iff, Prod.mk.injEq, List.cons.injEq,
          Prod.exists, List.cons_append, List.mem_cons, not_or]
        constructor
        · rintro ⟨before', after', h, ⟨rfl, rfl⟩, rfl⟩
          obtain ⟨rfl, hm⟩ := ih.mp h
          exact ⟨⟨rfl, rfl⟩, Ne.symm hc, hm⟩
        · rintro ⟨⟨rfl, rfl⟩, _, hm⟩
          exact ⟨before, after, ih.mpr ⟨rfl, hm⟩, ⟨rfl, rfl⟩, rfl⟩

/-- There is no cut exactly when the mark does not occur. -/
theorem splitAtFirst_eq_none_iff {mark : Char} {cs : List Char} :
    splitAtFirst mark cs = none ↔ mark ∉ cs := by
  induction cs with
  | nil => simp [splitAtFirst]
  | cons c cs ih =>
    unfold splitAtFirst
    split
    · next hc => simp [hc]
    · next hc => simp [ih, Ne.symm hc]

end CueRouter.Text
