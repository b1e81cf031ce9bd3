import Mathlib.Data.List.Nodup

/-!
# Looking up pairs

What is looked up in a list of pairs is the second half of a pair with the given first
half. If the first halves are distinct, there is at most one such pair, so all pairs are
found and their order makes no difference.
-/

namespace CueRouter.Text

variable {κ α : Type} [BEq κ] [LawfulBEq κ] {pairs others : List (κ × α)} {key : κ} {value : α}

/-- What is found under a key stands in a pair with this key. -/
theorem mem_of_find?_fst
    (h : (pairs.find? fun pair => pair.1 == key).map Prod.snd = some value) :
    (key, value) ∈ pairs := by
  obtain ⟨pair, found, rfl⟩ := Option.map_eq_some_iff.mp h
  have same : pair.1 = key := by simpa using List.find?_some found
  rw [← same]
  exact List.mem_of_find?_eq_some found

/-- With distinct keys, what is found under a key is what stands in a pair with this
key. -/
theorem find?_fst_eq_some_iff (distinct : (pairs.map Prod.fst).Nodup) :
    (pairs.find? fun pair => pair.1 == key).map Prod.snd = some value ↔
      (key, value) ∈ pairs := by
  refine ⟨mem_of_find?_fst, fun member => ?_⟩
  have isSome : (pairs.find? fun pair => pair.1 == key).isSome :=
    List.find?_isSome.mpr ⟨_, member, beq_self_eq_true key⟩
  obtain ⟨pair, found⟩ := Option.isSome_iff_exists.mp isSome
  have named : pair.1 = key := by simpa using List.find?_some found
  have same : pair = (key, value) :=
    List.inj_on_of_nodup_map distinct (List.mem_of_find?_eq_some found) member named
  rw [found, same]
  rfl

/-- With distinct keys, the same is found in any order. -/
theorem find?_fst_eq_of_perm (distinct : (pairs.map Prod.fst).Nodup) (perm : pairs.Perm others)
    (key : κ) :
    (pairs.find? fun pair => pair.1 == key).map Prod.snd =
      (others.find? fun pair => pair.1 == key).map Prod.snd := by
  refine Option.ext fun value => ?_
  rw [find?_fst_eq_some_iff distinct,
    find?_fst_eq_some_iff ((perm.map Prod.fst).nodup_iff.mp distinct), perm.mem_iff]

end CueRouter.Text
