import CueRouter.Proofs.Binding.Editing
import CueRouter.Proofs.Text.Numeral
import Mathlib.Algebra.Ring.Nat

/-!
# Numbering outputs

An added output goes under the number of the outputs that are there. If no attribute
declares an output under that suffix, it is one more output and all others stay. If one
does, because numbers were left out, its output is lost.
-/

namespace CueRouter

open Text

namespace Declaration

variable {declaration : Declaration} {suffix : List Char}

/-! ## Numbers of outputs -/

/-- The number of the output that an attribute of this name declares, if it declares
one. -/
def outputNumber? (name : String) : Option Nat :=
  (suffixAfter? "output" name).bind suffixNumber?

/-- No two attributes declare outputs of one number. -/
def DistinctNumbers (declaration : Declaration) : Prop :=
  (declaration.attributes.filterMap fun pair => outputNumber? pair.1).Nodup

/-- Whether numbers are distinct can be read off the names. -/
instance (declaration : Declaration) : Decidable declaration.DistinctNumbers :=
  inferInstanceAs (Decidable (declaration.attributes.filterMap _).Nodup)

/-- The outputs with their numbers, in the order of the attributes. -/
def numbered (declaration : Declaration) : List NumberedOutput :=
  declaration.attributes.filterMap declaration.numberedOutput?

/-- The outputs are those that the attributes declare, sorted by number. -/
theorem outputs_eq (declaration : Declaration) :
    declaration.outputs = (declaration.numbered.mergeSort fun a b =>
      decide (a.number ≤ b.number)).map NumberedOutput.output := rfl

/-- The outputs are those that the attributes declare, in another order. -/
theorem outputs_perm (declaration : Declaration) :
    declaration.outputs.Perm (declaration.numbered.map NumberedOutput.output) := by
  rw [outputs_eq]
  exact (List.mergeSort_perm _ _).map NumberedOutput.output

/-- The number of an output is that of the name of its attribute. -/
theorem map_number_numberedOutput? (declaration : Declaration) (pair : String × String) :
    (declaration.numberedOutput? pair).map NumberedOutput.number = outputNumber? pair.1 := by
  obtain ⟨name, text⟩ := pair
  unfold outputNumber?
  cases h : suffixAfter? "output" name with
  | none =>
    rw [numberedOutput?_eq_none h]
    rfl
  | some suffix =>
    obtain rfl := suffixAfter?_eq_some_iff.mp h
    rw [numberedOutput?_output, Option.map_map]
    exact Option.map_id'

/-- What an attribute declares depends on the parameters of its suffix only. -/
theorem numberedOutput?_congr {other : Declaration} {pair : String × String}
    (same : ∀ suffix, pair.1 = "output" ++ String.ofList suffix →
      declaration.get? ("parameters" ++ String.ofList suffix) =
        other.get? ("parameters" ++ String.ofList suffix)) :
    declaration.numberedOutput? pair = other.numberedOutput? pair := by
  obtain ⟨name, text⟩ := pair
  cases h : suffixAfter? "output" name with
  | none => rw [numberedOutput?_eq_none h, numberedOutput?_eq_none h]
  | some suffix =>
    obtain rfl := suffixAfter?_eq_some_iff.mp h
    rw [numberedOutput?_output, numberedOutput?_output, same suffix rfl]

/-! ## Setting an output -/

/-- Names with one stem are equal only if their suffixes are. -/
theorem append_ofList_inj {stem : String} {other : List Char} :
    stem ++ String.ofList suffix = stem ++ String.ofList other ↔ suffix = other := by
  refine ⟨fun same => ?_, fun same => by rw [same]⟩
  have after := suffixAfter?_append stem suffix
  rw [same, suffixAfter?_append] at after
  exact (Option.some.inj after).symm

/-- No name of an output is one of parameters. -/
theorem output_ne_parameters (suffix other : List Char) :
    "output" ++ String.ofList suffix ≠ "parameters" ++ String.ofList other :=
  append_ne_of_suffixAfter? (suffixAfter?_output_parameters other) suffix

/-- Setting an attribute makes no difference to what ignores attributes of its name. -/
theorem filterMap_set_of_ignored {β : Type} {f : String × String → Option β} {name : String}
    (ignored : ∀ text, f (name, text) = none) (text : String) :
    (declaration.set name text).attributes.filterMap f =
      declaration.attributes.filterMap f := by
  cases h : declaration.get? name with
  | some old =>
    rw [set_of_isSome (by rw [h]; rfl)]
    unfold edit
    rw [List.filterMap_filterMap]
    refine congrArg (List.filterMap · _) (funext fun pair => ?_)
    rw [Option.map_some, Option.bind_some]
    by_cases same : pair.1 = name
    · obtain ⟨other, old⟩ := pair
      dsimp only at same
      rw [same, ignored, ignored]
    · rw [if_neg same]
  | none =>
    rw [set_of_none h, List.filterMap_append]
    have last : [(name, text)].filterMap f = [] := by
      rw [List.filterMap_cons, ignored]
      rfl
    rw [last, List.append_nil]

/-- Setting an attribute that belongs to no output leaves the outputs as they are. -/
theorem numbered_set (declaration : Declaration) {name : String}
    (output : suffixAfter? "output" name = none)
    (parameters : suffixAfter? "parameters" name = none) (text : String) :
    (declaration.set name text).numbered = declaration.numbered := by
  unfold numbered
  rw [filterMap_set_of_ignored (numberedOutput?_eq_none output) text]
  refine List.filterMap_congr fun pair _ => numberedOutput?_congr fun suffix _ => ?_
  rw [get?_set, if_neg (append_ne_of_suffixAfter? parameters suffix)]

/-- The declaration with an output and its parameters under a suffix. -/
def setOutput (declaration : Declaration) (suffix : List Char) (output : OutputText) :
    Declaration :=
  (declaration.set ("output" ++ String.ofList suffix) output.event).set
    ("parameters" ++ String.ofList suffix) output.parameters

/-- Setting an output keeps names distinct. -/
theorem Distinct.setOutput (distinct : declaration.Distinct) (suffix : List Char)
    (output : OutputText) : (declaration.setOutput suffix output).Distinct :=
  (distinct.set _ _).set _ _

/-- The outputs are those of the attributes before the parameters are set. -/
theorem numbered_setOutput (declaration : Declaration) (suffix : List Char)
    (output : OutputText) :
    (declaration.setOutput suffix output).numbered =
      (declaration.set ("output" ++ String.ofList suffix) output.event).attributes.filterMap
        (declaration.setOutput suffix output).numberedOutput? :=
  filterMap_set_of_ignored
    (fun text => numberedOutput?_eq_none (suffixAfter?_output_parameters suffix) text) _

/-- What the attributes of other outputs declare stays as it is. -/
theorem numberedOutput?_setOutput_of_ne (declaration : Declaration) (output : OutputText)
    {pair : String × String}
    (apart : pair.1 ≠ "output" ++ String.ofList suffix) :
    (declaration.setOutput suffix output).numberedOutput? pair =
      declaration.numberedOutput? pair := by
  refine numberedOutput?_congr fun other same => ?_
  have suffixes : other ≠ suffix := by
    rintro rfl
    exact apart same
  unfold setOutput
  rw [get?_set, if_neg (mt append_ofList_inj.mp suffixes), get?_set,
    if_neg (output_ne_parameters suffix other).symm]

/-- The attribute that was set declares the output. -/
theorem numberedOutput?_setOutput (declaration : Declaration) (suffix : List Char)
    (output : OutputText) :
    (declaration.setOutput suffix output).numberedOutput?
        ("output" ++ String.ofList suffix, output.event) =
      (suffixNumber? suffix).map fun number => ⟨number, output⟩ := by
  rw [numberedOutput?_output]
  unfold setOutput
  rw [get?_set, if_pos rfl]
  rfl

/-- An output under a suffix of its own comes behind the others. -/
theorem Distinct.numbered_setOutput_of_none (distinct : declaration.Distinct)
    (free : declaration.get? ("output" ++ String.ofList suffix) = none)
    (output : OutputText) :
    (declaration.setOutput suffix output).numbered = declaration.numbered ++
      ((suffixNumber? suffix).map fun number => ⟨number, output⟩).toList := by
  rw [numbered_setOutput, set_of_none free, List.filterMap_append]
  have others : declaration.attributes.filterMap
      (declaration.setOutput suffix output).numberedOutput? = declaration.numbered := by
    refine List.filterMap_congr fun pair member =>
      declaration.numberedOutput?_setOutput_of_ne output fun same => ?_
    obtain ⟨name, text⟩ := pair
    rw [← same, distinct.get?_of_mem member] at free
    cases free
  rw [others, List.filterMap_cons, List.filterMap_nil, numberedOutput?_setOutput]
  cases suffixNumber? suffix <;> rfl

/-- An output under the suffix of another takes its place. -/
theorem Distinct.numbered_setOutput_of_some (distinct : declaration.Distinct) {old : String}
    (taken : declaration.get? ("output" ++ String.ofList suffix) = some old)
    (output : OutputText) :
    ∃ before after,
      declaration.numbered = before ++ ((suffixNumber? suffix).map fun number =>
        ⟨number, old,
          (declaration.get? ("parameters" ++ String.ofList suffix)).getD ""⟩).toList ++ after ∧
      (declaration.setOutput suffix output).numbered = before ++
        ((suffixNumber? suffix).map fun number => ⟨number, output⟩).toList ++ after := by
  obtain ⟨front, back, split, replaced, apart⟩ := distinct.exists_set taken output.event
  have others (pairs : List (String × String))
      (within : ∀ pair ∈ pairs, pair ∈ front ++ back) :
      pairs.filterMap (declaration.setOutput suffix output).numberedOutput? =
        pairs.filterMap declaration.numberedOutput? :=
    List.filterMap_congr fun pair member =>
      declaration.numberedOutput?_setOutput_of_ne output (apart pair (within pair member))
  refine ⟨front.filterMap declaration.numberedOutput?,
    back.filterMap declaration.numberedOutput?, ?_, ?_⟩
  · unfold numbered
    rw [split, List.filterMap_append, List.filterMap_cons, numberedOutput?_output]
    cases suffixNumber? suffix <;> simp
  · rw [numbered_setOutput, replaced, List.filterMap_append, List.filterMap_cons,
      numberedOutput?_setOutput,
      others front fun _ => List.mem_append_left _,
      others back fun _ => List.mem_append_right _]
    cases suffixNumber? suffix <;> simp

/-! ## Adding an output -/

/-- The suffix of the next output that is added. -/
def nextSuffix (declaration : Declaration) : List Char :=
  if declaration.outputs.length = 0 then [] else Numeral.write declaration.outputs.length

/-- An output is added by setting it under the next suffix. -/
theorem addOutput_eq (declaration : Declaration) (event parameters : String) :
    declaration.addOutput event parameters =
      declaration.setOutput declaration.nextSuffix ⟨event, parameters⟩ := by
  unfold addOutput setOutput nextSuffix
  dsimp only
  split <;> rfl

/-- A numeral is a suffix for its number, up to 32 bits. -/
theorem suffixNumber?_write (n : Nat) :
    suffixNumber? (Numeral.write n) = if n < 2 ^ 32 then some n else none := by
  obtain ⟨digits, value⟩ := Numeral.digits_write (Int.natCast_nonneg n)
  have read (m : Int) : Numeral.read Numeral.unsigned32 (Numeral.write n) = .ok m ↔
      m = n ∧ m ≤ Numeral.unsigned32.greatest := by
    rw [Numeral.read_eq_ok_iff (by decide) (by decide) digits.unsigned, value]
    exact and_iff_right digits
  have greatest : Numeral.unsigned32.greatest = 4294967295 := rfl
  unfold suffixNumber?
  rw [if_neg fun empty => digits.nonempty (List.isEmpty_iff.mp empty)]
  by_cases few : n < 2 ^ 32
  · rw [(read n).mpr ⟨rfl, by omega⟩, if_pos few]
    rfl
  · rw [if_neg few]
    cases h : Numeral.read Numeral.unsigned32 (Numeral.write n) with
    | error fault => rfl
    | ok m =>
      obtain ⟨same, most⟩ := (read m).mp h
      omega

/-- The next suffix is the number of outputs that are there, up to 32 bits. -/
theorem suffixNumber?_nextSuffix (declaration : Declaration) :
    suffixNumber? declaration.nextSuffix =
      if declaration.outputs.length < 2 ^ 32 then some declaration.outputs.length
      else none := by
  unfold nextSuffix
  by_cases none : declaration.outputs.length = 0
  · rw [if_pos none, none]
    rfl
  · rw [if_neg none, suffixNumber?_write]

/-- The outputs after one was added are those under the next suffix and the others. -/
theorem outputs_addOutput_perm (declaration : Declaration) (event parameters : String) :
    (declaration.addOutput event parameters).outputs.Perm
      ((declaration.setOutput declaration.nextSuffix ⟨event, parameters⟩).numbered.map
        NumberedOutput.output) := by
  rw [addOutput_eq]
  exact outputs_perm _

/-- Where the next suffix is free, an added output is one more. -/
theorem Distinct.outputs_addOutput_of_none (distinct : declaration.Distinct)
    (few : declaration.outputs.length < 2 ^ 32)
    (free : declaration.get? ("output" ++ String.ofList declaration.nextSuffix) = none)
    (event parameters : String) :
    (declaration.addOutput event parameters).outputs.Perm
      (⟨event, parameters⟩ :: declaration.outputs) := by
  have added := declaration.outputs_addOutput_perm event parameters
  rw [distinct.numbered_setOutput_of_none free, suffixNumber?_nextSuffix, if_pos few,
    List.map_append] at added
  exact added.trans
    (List.perm_append_comm.trans (declaration.outputs_perm.symm.append_left [_]))

/-- Where the next suffix is taken, an added output replaces the one that has it. -/
theorem Distinct.outputs_addOutput_of_some (distinct : declaration.Distinct)
    (few : declaration.outputs.length < 2 ^ 32) {old : String}
    (taken : declaration.get? ("output" ++ String.ofList declaration.nextSuffix) = some old)
    (event parameters : String) :
    ∃ others, declaration.outputs.Perm (⟨old, (declaration.get?
          ("parameters" ++ String.ofList declaration.nextSuffix)).getD ""⟩ :: others) ∧
      (declaration.addOutput event parameters).outputs.Perm
        (⟨event, parameters⟩ :: others) := by
  obtain ⟨front, back, before, after⟩ :=
    distinct.numbered_setOutput_of_some taken ⟨event, parameters⟩
  rw [suffixNumber?_nextSuffix, if_pos few] at before after
  have middle (output : OutputText) : ((front ++ [NumberedOutput.mk
      declaration.outputs.length output] ++ back).map NumberedOutput.output).Perm
        (output :: (front ++ back).map NumberedOutput.output) := by
    rw [List.append_assoc]
    exact List.perm_middle.map NumberedOutput.output
  refine ⟨(front ++ back).map NumberedOutput.output, ?_, ?_⟩
  · have listed := declaration.outputs_perm
    rw [before] at listed
    exact listed.trans (middle _)
  · have listed := declaration.outputs_addOutput_perm event parameters
    rw [after] at listed
    exact listed.trans (middle _)

/-- Where 32 bits cannot number any more outputs, an added output is none. -/
theorem Distinct.outputs_addOutput_of_many (distinct : declaration.Distinct)
    (many : ¬declaration.outputs.length < 2 ^ 32) (event parameters : String) :
    (declaration.addOutput event parameters).outputs.Perm declaration.outputs := by
  have number := declaration.suffixNumber?_nextSuffix
  rw [if_neg many] at number
  have same : (declaration.setOutput declaration.nextSuffix ⟨event, parameters⟩).numbered =
      declaration.numbered := by
    cases taken : declaration.get? ("output" ++ String.ofList declaration.nextSuffix) with
    | none =>
      rw [distinct.numbered_setOutput_of_none taken, number]
      exact List.append_nil _
    | some old =>
      obtain ⟨front, back, before, after⟩ :=
        distinct.numbered_setOutput_of_some taken ⟨event, parameters⟩
      rw [number] at before after
      exact after.trans before.symm
  have added := declaration.outputs_addOutput_perm event parameters
  rw [same] at added
  exact added.trans declaration.outputs_perm.symm

/-- Adding an output adds it to the others and leaves them as they are exactly if there are
fewer than 32 bits can number and no attribute declares an output under the next suffix.
If one does, its output is replaced by the added one, and only the others stay. -/
theorem outputs_addOutput_iff (distinct : declaration.Distinct) (event parameters : String) :
    let added := (declaration.addOutput event parameters).outputs
    let next := String.ofList declaration.nextSuffix
    (added.Perm (⟨event, parameters⟩ :: declaration.outputs) ↔
        declaration.outputs.length < 2 ^ 32 ∧ declaration.get? ("output" ++ next) = none) ∧
      (declaration.outputs.length < 2 ^ 32 →
        ∀ old, declaration.get? ("output" ++ next) = some old →
          ∃ others, declaration.outputs.Perm
              (⟨old, (declaration.get? ("parameters" ++ next)).getD ""⟩ :: others) ∧
            added.Perm (⟨event, parameters⟩ :: others)) := by
  intro added next
  have replaced (few : declaration.outputs.length < 2 ^ 32) (old : String)
      (taken : declaration.get? ("output" ++ next) = some old) :=
    distinct.outputs_addOutput_of_some few taken event parameters
  refine ⟨⟨fun more => ?_, fun ⟨few, free⟩ =>
    distinct.outputs_addOutput_of_none few free event parameters⟩, replaced⟩
  have length : added.length = declaration.outputs.length + 1 := more.length_eq
  by_cases few : declaration.outputs.length < 2 ^ 32
  · refine ⟨few, Option.eq_none_iff_forall_ne_some.mpr fun old taken => ?_⟩
    obtain ⟨others, before, after⟩ := replaced few old taken
    have same : added.length = declaration.outputs.length :=
      after.length_eq.trans before.length_eq.symm
    omega
  · have same : added.length = declaration.outputs.length :=
      (distinct.outputs_addOutput_of_many few event parameters).length_eq
    omega

/-- An output of number zero and one of the given number. -/
def twoOutputs (number : String) : Declaration :=
  ⟨[("input", "key"), ("output", "go-sub"), ("output" ++ number, "trigger-loop")]⟩

/-- Behind the numbers zero and three an output is added, and behind the numbers zero and two
it takes the place of the second. -/
theorem outputs_addOutput_iff_twoOutputs :
    ((twoOutputs "3").addOutput "key" "").outputs.Perm
        [⟨"key", ""⟩, ⟨"go-sub", ""⟩, ⟨"trigger-loop", ""⟩] ∧
      ∃ others, [⟨"go-sub", ""⟩, ⟨"trigger-loop", ""⟩].Perm
          (⟨"trigger-loop", ""⟩ :: others) ∧
        ((twoOutputs "2").addOutput "key" "").outputs.Perm (⟨"key", ""⟩ :: others) := by
  have apart : (twoOutputs "3").outputs = [⟨"go-sub", ""⟩, ⟨"trigger-loop", ""⟩] :=
    (outputs_eq_of_pairwise (by decide +kernel)).trans (by decide +kernel)
  have near : (twoOutputs "2").outputs = [⟨"go-sub", ""⟩, ⟨"trigger-loop", ""⟩] :=
    (outputs_eq_of_pairwise (by decide +kernel)).trans (by decide +kernel)
  have free := (@outputs_addOutput_iff (twoOutputs "3") (by decide +kernel) "key" "").1.mpr
  have taken := (@outputs_addOutput_iff (twoOutputs "2") (by decide +kernel) "key" "").2
  unfold nextSuffix at free taken
  rw [apart] at free
  rw [near] at taken
  exact ⟨free (by decide +kernel), taken (by decide) "trigger-loop" (by decide +kernel)⟩

/-- An output under number one of a declaration with no other is lost when one is added. -/
theorem not_outputs_addOutput :
    ¬∀ (pairs : List (String × String)) (event parameters : String),
      (ofPairs pairs).DistinctNumbers →
        ((ofPairs pairs).addOutput event parameters).outputs.Perm
          (⟨event, parameters⟩ :: (ofPairs pairs).outputs) := by
  intro all
  have more := all [("input", "key"), ("output1", "trigger-loop")] "go-sub" ""
    (by decide +kernel)
  have before : (ofPairs [("input", "key"), ("output1", "trigger-loop")]).outputs =
      [⟨"trigger-loop", ""⟩] :=
    (outputs_eq_of_pairwise (by decide +kernel)).trans (by decide +kernel)
  have after : ((ofPairs [("input", "key"), ("output1", "trigger-loop")]).addOutput
      "go-sub" "").outputs = [⟨"go-sub", ""⟩] := by
    unfold addOutput
    rw [before]
    exact (outputs_eq_of_pairwise (by decide +kernel)).trans (by decide +kernel)
  rw [before, after] at more
  cases more.length_eq

end Declaration

end CueRouter
