import CueRouter.Proofs.Binding.Numbering

/-!
# Building declarations

Outputs that are added to an input one after another have the numbers from zero on, so the
next number is always free and none is lost. They come back in the order in which they were
added, and every attribute is read.
-/

namespace CueRouter

namespace Declaration

variable {declaration : Declaration}

/-- A call that builds a declaration further. -/
inductive Step where
  /-- Set the conditions. -/
  | conditions (text : String)
  /-- Say whether the input is echoed. -/
  | echo (on : Bool)
  /-- Add an output. -/
  | output (added : OutputText)

/-- The output that a call adds, if it adds one. -/
def Step.added? : Step → Option OutputText
  | conditions _ | echo _ => none
  | output added => some added

/-- The declaration after a call. -/
def take (declaration : Declaration) : Step → Declaration
  | .conditions text => declaration.withConditions text
  | .echo on => declaration.withEcho on
  | .output added => declaration.addOutput added.event added.parameters

/-! ## Lists of outputs -/

/-- The declaration has the outputs under the numbers from zero on, in the order of its
attributes, and every attribute is read. -/
structure Lists (declaration : Declaration) (outputs : List OutputText) : Prop where
  /-- The names of attributes are distinct. -/
  distinct : declaration.Distinct
  /-- Every output has its place in the list for its number. -/
  numbered_eq : declaration.numbered = outputs.mapIdx NumberedOutput.mk
  /-- No attribute is a stray. -/
  read : ∀ name text, declaration.get? name = some text → declaration.isStray name = false

/-- An attribute that is read stays so when more are set. -/
theorem isStray_mono {other : Declaration} {name : String}
    (more : ∀ name, (declaration.get? name).isSome = true → (other.get? name).isSome = true)
    (h : declaration.isStray name = false) : other.isStray name = false := by
  cases ho : suffixAfter? "output" name with
  | some suffix =>
    obtain rfl := suffixAfter?_eq_some_iff.mp ho
    rw [isStray_output] at h ⊢
    exact h
  | none =>
    cases hp : suffixAfter? "parameters" name with
    | some suffix =>
      obtain rfl := suffixAfter?_eq_some_iff.mp hp
      rw [isStray_parameters, Bool.or_eq_false_iff, Option.isNone_eq_false_iff,
        Option.isNone_eq_false_iff] at h ⊢
      exact ⟨h.1, more _ h.2⟩
    | none =>
      unfold isStray at h ⊢
      rw [ho, hp] at h ⊢
      exact h

namespace Lists

variable {outputs : List OutputText}

/-- The outputs come in the order of the list. -/
theorem outputs_eq (lists : declaration.Lists outputs) : declaration.outputs = outputs := by
  have ordered : declaration.numbered.Pairwise fun one other => one.number ≤ other.number := by
    rw [lists.numbered_eq, List.pairwise_iff_getElem]
    intro i j hi hj before
    rw [List.getElem_mapIdx, List.getElem_mapIdx]
    exact Nat.le_of_lt before
  rw [Declaration.outputs_eq, List.mergeSort_of_pairwise (ordered.imp decide_eq_true),
    lists.numbered_eq]
  refine List.ext_getElem? fun i => ?_
  rw [List.getElem?_map, List.getElem?_mapIdx, Option.map_map]
  exact Option.map_id'

/-- The next suffix is free. -/
theorem free (lists : declaration.Lists outputs) (few : outputs.length < 2 ^ 32) :
    declaration.get? ("output" ++ String.ofList declaration.nextSuffix) = none := by
  rw [Option.eq_none_iff_forall_ne_some]
  intro old taken
  have number := declaration.suffixNumber?_nextSuffix
  rw [lists.outputs_eq, if_pos few] at number
  have member : ⟨outputs.length, old, (declaration.get?
      ("parameters" ++ String.ofList declaration.nextSuffix)).getD ""⟩ ∈
        declaration.numbered := by
    refine List.mem_filterMap.mpr ⟨_, mem_of_get? taken, ?_⟩
    rw [numberedOutput?_output, number, Option.map_some]
  rw [lists.numbered_eq, List.mem_mapIdx] at member
  obtain ⟨i, hi, same⟩ := member
  exact Nat.ne_of_lt hi (congrArg NumberedOutput.number same)

/-- Setting an attribute that is read and belongs to no output keeps the list. -/
theorem set (lists : declaration.Lists outputs) {name : String}
    (output : suffixAfter? "output" name = none)
    (parameters : suffixAfter? "parameters" name = none)
    (read : ∀ other : Declaration, other.isStray name = false) (text : String) :
    (declaration.set name text).Lists outputs where
  distinct := lists.distinct.set name text
  numbered_eq := (declaration.numbered_set output parameters text).trans lists.numbered_eq
  read other found h := by
    rw [get?_set] at h
    split at h
    · next same =>
      rw [same]
      exact read _
    · exact isStray_mono (fun _ => isSome_get?_set name text) (lists.read _ _ h)

/-- An added output is the last of the list. -/
theorem addOutput (lists : declaration.Lists outputs) (few : outputs.length < 2 ^ 32)
    (added : OutputText) :
    (declaration.addOutput added.event added.parameters).Lists (outputs ++ [added]) := by
  let suffix := declaration.nextSuffix
  have number : suffixNumber? suffix = some outputs.length := by
    rw [suffixNumber?_nextSuffix, lists.outputs_eq, if_pos few]
  let first := declaration.set ("output" ++ String.ofList suffix) added.event
  have before (name : String) (h : (declaration.get? name).isSome = true) :
      (first.get? name).isSome = true := isSome_get?_set _ _ h
  have after (name : String) (h : (first.get? name).isSome = true) :
      ((declaration.setOutput suffix added).get? name).isSome = true := isSome_get?_set _ _ h
  rw [addOutput_eq]
  refine ⟨lists.distinct.setOutput suffix added, ?_, fun name text h => ?_⟩
  · rw [lists.distinct.numbered_setOutput_of_none (lists.free few), lists.numbered_eq, number,
      List.mapIdx_concat]
    rfl
  · unfold setOutput at h
    rw [get?_set, get?_set] at h
    by_cases parameters : name = "parameters" ++ String.ofList suffix
    · have output : (first.get? ("output" ++ String.ofList suffix)).isSome = true := by
        rw [get?_set, if_pos rfl]
        rfl
      rw [parameters, isStray_parameters, number, Option.isNone_eq_false_iff.mpr (after _ output)]
      rfl
    · by_cases output : name = "output" ++ String.ofList suffix
      · rw [output, isStray_output, number]
        rfl
      · rw [if_neg parameters, if_neg output] at h
        exact isStray_mono (fun name there => after name (before name there))
          (lists.read name text h)

/-- A call adds what it adds behind the list. -/
theorem take (lists : declaration.Lists outputs) (step : Step)
    (few : (outputs ++ step.added?.toList).length ≤ 2 ^ 32) :
    (declaration.take step).Lists (outputs ++ step.added?.toList) := by
  cases step with
  | conditions text =>
    rw [show Step.added? (.conditions text) = none from rfl, Option.toList_none,
      List.append_nil]
    exact lists.set rfl rfl (fun _ => rfl) text
  | echo on =>
    rw [show Step.added? (.echo on) = none from rfl, Option.toList_none, List.append_nil]
    exact lists.set rfl rfl (fun _ => rfl) _
  | output added =>
    have room : outputs.length < 2 ^ 32 := by
      rw [List.length_append] at few
      exact few
    exact lists.addOutput room added

end Lists

/-! ## Calls one after another -/

end Declaration

end CueRouter
