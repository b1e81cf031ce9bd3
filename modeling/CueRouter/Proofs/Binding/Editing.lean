import Mathlib.Data.List.Sort
import CueRouter.Binding.Declaration
import CueRouter.Proofs.Text.Lookup

/-!
# Editing declarations

The attributes of a declaration have distinct names, so an edit that changes the text of
attributes or deletes some of them can be read off name by name. The outputs are sorted
by number, and sorting keeps the order of outputs of one number. So an edit changes the
list of outputs just as it changes the single ones.
-/

namespace CueRouter

open Text

/-! ## Sorting by a number -/

section Sorting

variable {α β : Type} {key : α → Nat}

/-- Numbers can be compared one after another. -/
theorem decide_le_trans (key : α → Nat) (a b c : α) (hab : decide (key a ≤ key b) = true)
    (hbc : decide (key b ≤ key c) = true) : decide (key a ≤ key c) = true := by
  rw [decide_eq_true_eq] at hab hbc ⊢
  exact Nat.le_trans hab hbc

/-- Any two numbers can be compared. -/
theorem decide_le_total (key : α → Nat) (a b : α) :
    (decide (key a ≤ key b) || decide (key b ≤ key a)) = true := by
  rw [Bool.or_eq_true, decide_eq_true_eq, decide_eq_true_eq]
  exact Nat.le_total _ _

/-- Sorting by a number sorts. -/
theorem pairwise_mergeSort_key (key : α → Nat) (xs : List α) :
    (xs.mergeSort fun a b => decide (key a ≤ key b)).Pairwise
      fun a b => key a ≤ key b :=
  (List.pairwise_mergeSort (decide_le_trans key) (decide_le_total key) xs).imp
    of_decide_eq_true

/-- Sorting by a number leaves the elements of one number in their order. -/
theorem filter_mergeSort_key (key : α → Nat) (xs : List α) (k : Nat) :
    (xs.mergeSort fun a b => decide (key a ≤ key b)).filter (fun a => key a == k) =
      xs.filter fun a => key a == k := by
  have alike : (xs.filter fun a => key a == k).Pairwise
      fun a b => decide (key a ≤ key b) = true := by
    refine List.pairwise_of_forall_mem_list fun a ha b hb => ?_
    rw [List.mem_filter, beq_iff_eq] at ha hb
    rw [decide_eq_true_eq, ha.2, hb.2]
  have within := List.sublist_mergeSort (decide_le_trans key) (decide_le_total key) alike
    List.filter_sublist
  have filtered := within.filter fun a => key a == k
  rw [List.filter_filter] at filtered
  simp only [Bool.and_self] at filtered
  exact (filtered.eq_of_length ((List.mergeSort_perm xs _).filter _).length_eq.symm).symm

/-- The lists have the same elements of each number, in the same order. -/
def SameByKey (key : α → Nat) (xs ys : List α) : Prop :=
  ∀ k, xs.filter (fun a => key a == k) = ys.filter fun a => key a == k

/-- Lists with the same elements of each number have the same elements. -/
theorem SameByKey.mem {xs ys : List α} (h : SameByKey key xs ys) {a : α} (ha : a ∈ xs) :
    a ∈ ys := by
  have filtered : a ∈ xs.filter fun b => key b == key a :=
    List.mem_filter.mpr ⟨ha, beq_self_eq_true _⟩
  rw [h] at filtered
  exact (List.mem_filter.mp filtered).1

/-- Sorted lists with the same elements of each number start with the same one. -/
theorem SameByKey.head_eq {x y : α} {xs ys : List α}
    (h : SameByKey key (x :: xs) (y :: ys))
    (hx : (x :: xs).Pairwise fun a b => key a ≤ key b)
    (hy : (y :: ys).Pairwise fun a b => key a ≤ key b) : x = y := by
  have below : key x ≤ key y := by
    rcases List.mem_cons.mp (SameByKey.mem (fun k => (h k).symm) List.mem_cons_self) with
      same | later
    · exact Nat.le_of_eq (congrArg key same.symm)
    · exact (List.pairwise_cons.mp hx).1 y later
  have above : key y ≤ key x := by
    rcases List.mem_cons.mp (h.mem List.mem_cons_self) with same | later
    · exact Nat.le_of_eq (congrArg key same.symm)
    · exact (List.pairwise_cons.mp hy).1 x later
  have first := h (key x)
  rw [List.filter_cons, List.filter_cons, if_pos (beq_self_eq_true _),
    if_pos (beq_iff_eq.mpr (Nat.le_antisymm above below))] at first
  exact (List.cons.inj first).1

/-- Sorted lists are equal if they have the same elements of each number, in the same
order. -/
theorem SameByKey.eq {xs ys : List α} (h : SameByKey key xs ys)
    (hx : xs.Pairwise fun a b => key a ≤ key b)
    (hy : ys.Pairwise fun a b => key a ≤ key b) : xs = ys := by
  induction xs generalizing ys with
  | nil =>
    cases ys with
    | nil => rfl
    | cons y ys => cases SameByKey.mem (fun k => (h k).symm) List.mem_cons_self
  | cons x xs ih =>
    cases ys with
    | nil => cases h.mem List.mem_cons_self
    | cons y ys =>
      obtain rfl := h.head_eq hx hy
      refine congrArg (x :: ·) (ih (fun k => ?_) hx.of_cons hy.of_cons)
      have all := h k
      rw [List.filter_cons, List.filter_cons] at all
      split at all
      · exact (List.cons.inj all).2
      · exact all

/-- A change that keeps numbers changes the elements of one number apart from the
others. -/
theorem filter_key_filterMap {key' : β → Nat} {g : α → Option β}
    (keeps : ∀ a b, g a = some b → key' b = key a) (xs : List α) (k : Nat) :
    (xs.filterMap g).filter (fun b => key' b == k) =
      (xs.filter fun a => key a == k).filterMap g := by
  rw [List.filter_filterMap, List.filterMap_filter]
  refine congrArg (List.filterMap · xs) (funext fun a => ?_)
  cases h : g a with
  | none => split <;> rfl
  | some b =>
    rw [Option.filter_some, keeps a b h]

/-- Sorting by a number commutes with changes that keep the numbers. -/
theorem mergeSort_filterMap (key : α → Nat) (key' : β → Nat) {g : α → Option β}
    (keeps : ∀ a b, g a = some b → key' b = key a) (xs : List α) :
    ((xs.filterMap g).mergeSort fun a b => decide (key' a ≤ key' b)) =
      (xs.mergeSort fun a b => decide (key a ≤ key b)).filterMap g := by
  have same : SameByKey key' ((xs.filterMap g).mergeSort fun a b => decide (key' a ≤ key' b))
      ((xs.mergeSort fun a b => decide (key a ≤ key b)).filterMap g) := by
    intro k
    rw [filter_mergeSort_key, filter_key_filterMap keeps, filter_key_filterMap keeps,
      filter_mergeSort_key]
  refine same.eq (pairwise_mergeSort_key key' _) ?_
  refine List.Pairwise.filterMap g (fun a b h c hc d hd => ?_) (pairwise_mergeSort_key key xs)
  rw [keeps a c hc, keeps b d hd]
  exact h

end Sorting

/-! ## Attributes -/

namespace Declaration

/-- The attributes of a declaration have distinct names. -/
def Distinct (declaration : Declaration) : Prop :=
  (declaration.attributes.map Prod.fst).Nodup

variable {declaration : Declaration} {name text : String}

/-- Whether names are distinct can be read off the attributes. -/
instance (declaration : Declaration) : Decidable declaration.Distinct :=
  inferInstanceAs (Decidable (declaration.attributes.map Prod.fst).Nodup)

/-- An attribute in front is read before the others. -/
theorem get?_cons (pair : String × String) (rest : List (String × String)) (name : String) :
    Declaration.get? ⟨pair :: rest⟩ name =
      if pair.1 = name then some pair.2 else Declaration.get? ⟨rest⟩ name := by
  unfold get?
  rw [List.find?_cons]
  by_cases h : pair.1 = name
  · rw [if_pos h, beq_iff_eq.mpr h]
    rfl
  · rw [if_neg h, beq_eq_false_iff_ne.mpr h]

/-- What can be read of a declaration is one of its attributes. -/
theorem mem_of_get? (h : declaration.get? name = some text) :
    (name, text) ∈ declaration.attributes :=
  mem_of_find?_fst h

/-- Every attribute can be read by its name. -/
theorem Distinct.get?_of_mem (distinct : declaration.Distinct)
    (h : (name, text) ∈ declaration.attributes) : declaration.get? name = some text :=
  (find?_fst_eq_some_iff distinct).mpr h

/-- The declaration with its texts changed, or deleted, name by name. -/
def edit (declaration : Declaration) (change : String → String → Option String) :
    Declaration :=
  ⟨declaration.attributes.filterMap fun pair =>
    (change pair.1 pair.2).map fun text => (pair.1, text)⟩

/-- An edit leaves of an attribute what the change makes of its text. -/
theorem Distinct.get?_edit (distinct : declaration.Distinct)
    (change : String → String → Option String) (name : String) :
    (declaration.edit change).get? name = (declaration.get? name).bind (change name) := by
  obtain ⟨attributes⟩ := declaration
  unfold edit
  induction attributes with
  | nil => rfl
  | cons pair rest ih =>
    obtain ⟨new, others⟩ := List.nodup_cons.mp distinct
    have later := ih others
    dsimp only at later ⊢
    rw [List.filterMap_cons, get?_cons]
    by_cases same : pair.1 = name
    · have unread : Declaration.get? ⟨rest⟩ name = none := by
        rw [Option.eq_none_iff_forall_not_mem]
        intro other hother
        refine new ?_
        rw [same]
        exact List.mem_map_of_mem (f := Prod.fst) (mem_of_get? hother)
      rw [unread] at later
      rw [if_pos same, ← same]
      cases hchange : change pair.1 pair.2 with
      | none =>
        rw [Option.bind_some, hchange, same]
        exact later
      | some text =>
        rw [Option.bind_some, hchange, Option.map_some]
        dsimp only
        rw [get?_cons, if_pos rfl]
    · rw [if_neg same, ← later]
      cases change pair.1 pair.2 with
      | none => rfl
      | some text =>
        rw [Option.map_some]
        dsimp only
        rw [get?_cons, if_neg same]

/-- An edit keeps names distinct. -/
theorem Distinct.edit (distinct : declaration.Distinct)
    (change : String → String → Option String) : (declaration.edit change).Distinct := by
  have names : (declaration.edit change).attributes.map Prod.fst =
      declaration.attributes.filterMap fun pair =>
        (change pair.1 pair.2).map fun _ => pair.1 := by
    unfold Declaration.edit
    rw [List.map_filterMap]
    simp only [Option.map_map, Function.comp_def]
  have sublist : (declaration.attributes.filterMap fun pair =>
      (change pair.1 pair.2).map fun _ => pair.1).Sublist
        (declaration.attributes.map Prod.fst) := by
    induction declaration.attributes with
    | nil => exact .slnil
    | cons pair rest ih =>
      rw [List.filterMap_cons, List.map_cons]
      cases change pair.1 pair.2 with
      | none => exact ih.cons _
      | some text => exact ih.cons_cons _
  unfold Distinct
  rw [names]
  exact List.Nodup.sublist sublist distinct

/-- Setting an attribute that is there changes its text. -/
theorem set_of_isSome (h : (declaration.get? name).isSome = true) (text : String) :
    declaration.set name text =
      declaration.edit fun other old => some (if other = name then text else old) := by
  unfold Declaration.set edit
  rw [if_pos h, ← List.filterMap_eq_map]
  refine congrArg Declaration.mk (congrArg (List.filterMap · _) (funext fun pair => ?_))
  by_cases same : pair.1 = name
  · simp [same]
  · simp [same]

/-- Setting an attribute that is not there puts it behind the others. -/
theorem set_of_none (h : declaration.get? name = none) (text : String) :
    declaration.set name text = ⟨declaration.attributes ++ [(name, text)]⟩ := by
  unfold Declaration.set
  rw [h]
  rfl

/-- What was set is read, and the other attributes are read as before. -/
theorem get?_set (declaration : Declaration) (name text other : String) :
    (declaration.set name text).get? other =
      if other = name then some text else declaration.get? other := by
  unfold Declaration.set
  split
  · next there =>
    have names : (fun pair : String × String => pair.1 == other) ∘ (fun pair =>
        if pair.1 == name then (name, text) else pair) = fun pair => pair.1 == other := by
      funext pair
      by_cases same : pair.1 = name <;> simp [same]
    obtain ⟨old, hold⟩ := Option.isSome_iff_exists.mp there
    unfold get? at hold ⊢
    rw [List.find?_map, names, Option.map_map]
    by_cases same : other = name
    · obtain ⟨pair, found, -⟩ := Option.map_eq_some_iff.mp hold
      have named := List.find?_some found
      rw [same, found, if_pos rfl, Option.map_some]
      dsimp only [Function.comp]
      rw [if_pos named]
    · rw [if_neg same]
      refine Option.map_congr fun pair found => ?_
      have named := List.find?_some found
      rw [beq_iff_eq] at named
      dsimp only [Function.comp]
      rw [if_neg fun called => same (named.symm.trans (beq_iff_eq.mp called))]
  · next missing =>
    have unread : declaration.get? name = none := Option.not_isSome_iff_eq_none.mp missing
    unfold get? at unread ⊢
    dsimp only
    rw [List.find?_append, Option.map_or]
    by_cases same : other = name
    · rw [same, unread, if_pos rfl, Option.none_or]
      simp
    · rw [if_neg same]
      have apart : (name == other) = false := beq_eq_false_iff_ne.mpr (Ne.symm same)
      simp [apart]

/-- Setting an attribute takes none away. -/
theorem isSome_get?_set (name text : String) {other : String}
    (h : (declaration.get? other).isSome = true) :
    ((declaration.set name text).get? other).isSome = true := by
  rw [get?_set]
  split
  · rfl
  · exact h

/-- Setting an attribute that is there replaces it where it stands. -/
theorem Distinct.exists_set (distinct : declaration.Distinct) {old : String}
    (h : declaration.get? name = some old) (text : String) :
    ∃ before after, declaration.attributes = before ++ (name, old) :: after ∧
      (declaration.set name text).attributes = before ++ (name, text) :: after ∧
      ∀ pair ∈ before ++ after, pair.1 ≠ name := by
  obtain ⟨before, after, split⟩ := List.append_of_mem (mem_of_get? h)
  have names : ((before ++ (name, old) :: after).map Prod.fst).Nodup := split ▸ distinct
  rw [List.map_append, List.map_cons, List.nodup_middle, List.nodup_cons,
    ← List.map_append] at names
  have once : name ∉ (before ++ after).map Prod.fst := names.1
  have apart : ∀ pair ∈ before ++ after, pair.1 ≠ name := by
    rintro pair member rfl
    exact once (List.mem_map_of_mem member)
  refine ⟨before, after, split, ?_, apart⟩
  have others (pairs : List (String × String)) (within : ∀ pair ∈ pairs, pair.1 ≠ name) :
      (pairs.map fun pair => if pair.1 == name then (name, text) else pair) = pairs := by
    refine List.map_congr_left (g := id) (fun pair member => ?_) |>.trans (List.map_id pairs)
    rw [if_neg fun same => within pair member (beq_iff_eq.mp same)]
    rfl
  unfold Declaration.set
  rw [if_pos (by rw [h]; rfl)]
  dsimp only
  rw [split, List.map_append, List.map_cons, if_pos (beq_self_eq_true name),
    others before fun pair member => apart pair (List.mem_append_left _ member),
    others after fun pair member => apart pair (List.mem_append_right _ member)]

/-- Setting an attribute keeps names distinct. -/
theorem Distinct.set (distinct : declaration.Distinct) (name text : String) :
    (declaration.set name text).Distinct := by
  unfold Distinct
  cases h : declaration.get? name with
  | some old =>
    obtain ⟨before, after, split, replaced, -⟩ := distinct.exists_set h text
    unfold Distinct at distinct
    rw [split, List.map_append, List.map_cons] at distinct
    rw [replaced, List.map_append, List.map_cons]
    exact distinct
  | none =>
    rw [set_of_none h, List.map_append, List.nodup_append]
    refine ⟨distinct, List.nodup_singleton _, fun other hother added hadded => ?_⟩
    rintro rfl
    rw [List.mem_singleton.mp hadded] at hother
    obtain ⟨⟨_, found⟩, hpair, rfl⟩ := List.mem_map.mp hother
    rw [distinct.get?_of_mem hpair] at h
    cases h

/-- Declarations of attributes have distinct names. -/
theorem distinct_ofPairs (pairs : List (String × String)) :
    (Declaration.ofPairs pairs).Distinct := by
  have run (declaration : Declaration) (distinct : declaration.Distinct) :
      (pairs.foldl (fun declaration pair => declaration.set pair.1 pair.2)
        declaration).Distinct := by
    induction pairs generalizing declaration with
    | nil => exact distinct
    | cons pair pairs ih => exact ih _ (distinct.set pair.1 pair.2)
  exact run {} List.nodup_nil

/-! ## Names of attributes -/

/-- A name has a suffix after a stem if it is made of both. -/
theorem suffixAfter?_eq_some_iff {stem name : String} {suffix : List Char} :
    suffixAfter? stem name = some suffix ↔ name = stem ++ String.ofList suffix := by
  unfold suffixAfter?
  constructor
  · intro h
    have whole := eq_append_of_stripFront h
    rw [← String.toList_inj, String.toList_append, String.toList_ofList]
    exact whole
  · rintro rfl
    rw [String.toList_append, String.toList_ofList]
    exact stripFront_append _ _

/-- The suffix of a name made with a stem. -/
theorem suffixAfter?_append (stem : String) (suffix : List Char) :
    suffixAfter? stem (stem ++ String.ofList suffix) = some suffix :=
  suffixAfter?_eq_some_iff.mpr rfl

/-- No name of parameters is one of an output. -/
theorem suffixAfter?_output_parameters (suffix : List Char) :
    suffixAfter? "output" ("parameters" ++ String.ofList suffix) = none := by
  unfold suffixAfter?
  rw [String.toList_append]
  rfl

/-- A name with a suffix after a stem is none of those without. -/
theorem append_ne_of_suffixAfter? {stem name : String} (h : suffixAfter? stem name = none)
    (suffix : List Char) : stem ++ String.ofList suffix ≠ name := by
  rintro rfl
  rw [suffixAfter?_append] at h
  cases h

/-- No name with a suffix after a stem is read by itself. -/
theorem isRead_append {stem : String} (input : suffixAfter? stem "input" = none)
    (conditions : suffixAfter? stem "conditions" = none)
    (echo : suffixAfter? stem "echo" = none) (suffix : List Char) :
    ¬(stem ++ String.ofList suffix == "input" ||
      stem ++ String.ofList suffix == "conditions" ||
      stem ++ String.ofList suffix == "echo") = true := by
  rw [Bool.or_eq_true, Bool.or_eq_true, beq_iff_eq, beq_iff_eq, beq_iff_eq]
  rintro ((same | same) | same)
  · exact append_ne_of_suffixAfter? input suffix same
  · exact append_ne_of_suffixAfter? conditions suffix same
  · exact append_ne_of_suffixAfter? echo suffix same

/-- An output is a stray if its suffix is no number. -/
theorem isStray_output (declaration : Declaration) (suffix : List Char) :
    declaration.isStray ("output" ++ String.ofList suffix) =
      (suffixNumber? suffix).isNone := by
  unfold isStray
  rw [if_neg (isRead_append rfl rfl rfl suffix), suffixAfter?_append]

/-- Parameters are strays if their suffix is no number or there is no such output. -/
theorem isStray_parameters (declaration : Declaration) (suffix : List Char) :
    declaration.isStray ("parameters" ++ String.ofList suffix) =
      ((suffixNumber? suffix).isNone ||
        (declaration.get? ("output" ++ String.ofList suffix)).isNone) := by
  unfold isStray
  rw [if_neg (isRead_append rfl rfl rfl suffix), suffixAfter?_output_parameters,
    suffixAfter?_append]

/-- The output of an attribute has its text and the parameters of the same suffix. -/
theorem numberedOutput?_output (declaration : Declaration) (suffix : List Char)
    (text : String) :
    declaration.numberedOutput? ("output" ++ String.ofList suffix, text) =
      (suffixNumber? suffix).map fun number =>
        ⟨number, text,
          (declaration.get? ("parameters" ++ String.ofList suffix)).getD ""⟩ := by
  unfold numberedOutput?
  rw [suffixAfter?_append]
  dsimp only [bind, Option.bind]
  cases suffixNumber? suffix <;> rfl

/-- An attribute of another name declares no output. -/
theorem numberedOutput?_eq_none {declaration : Declaration} {name : String}
    (h : suffixAfter? "output" name = none) (text : String) :
    declaration.numberedOutput? (name, text) = none := by
  unfold numberedOutput?
  rw [h]
  rfl

/-! ## Outputs -/

/-- Outputs that are declared in number order stay in that order. -/
theorem outputs_eq_of_pairwise
    (ordered : (declaration.attributes.filterMap declaration.numberedOutput?).Pairwise
      fun one other => one.number ≤ other.number) :
    declaration.outputs =
      (declaration.attributes.filterMap declaration.numberedOutput?).map
        NumberedOutput.output := by
  unfold outputs
  dsimp only
  rw [List.mergeSort_of_pairwise (ordered.imp decide_eq_true)]

/-- An edit that changes the outputs one by one, each keeping its number, changes the
list of outputs in the same way. -/
theorem outputs_eq_filterMap {edited : Declaration} {g : OutputText → Option OutputText}
    (h : edited.attributes.filterMap edited.numberedOutput? =
      (declaration.attributes.filterMap declaration.numberedOutput?).filterMap
        fun numbered => (g numbered.output).map (NumberedOutput.mk numbered.number)) :
    edited.outputs = declaration.outputs.filterMap g := by
  unfold outputs
  dsimp only
  rw [h, mergeSort_filterMap NumberedOutput.number NumberedOutput.number,
    List.map_filterMap, List.filterMap_map]
  · refine congrArg (List.filterMap · _) (funext fun numbered => ?_)
    rw [Option.map_map]
    exact Option.map_id'
  · intro numbered other hother
    obtain ⟨output, -, rfl⟩ := Option.map_eq_some_iff.mp hother
    rfl

end Declaration

end CueRouter
