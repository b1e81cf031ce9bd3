import CueRouter.Binding.Compile
import CueRouter.Proofs.Binding.Numbering

/-!
# Declarations as mappings

A declaration maps names of attributes to texts, and the order in which it lists them means
nothing: outputs are sorted by number and strays by name. So declarations with the same
mapping have the same outputs and the same strays, and they compile to the same chain with
the same complaints in the same order. The only exception is outputs of one number, which
these theorems leave out.
-/

namespace CueRouter

namespace Declaration

variable {declaration other : Declaration}

/-! ## The same attributes in another order -/

/-- The same attributes have distinct names in any order. -/
theorem Distinct.of_perm (distinct : declaration.Distinct)
    (perm : declaration.attributes.Perm other.attributes) : other.Distinct :=
  (perm.map Prod.fst).nodup_iff.mp distinct

/-- An attribute has a text exactly if it is one of the attributes. -/
theorem Distinct.get?_eq_some_iff (distinct : declaration.Distinct) {name text : String} :
    declaration.get? name = some text ↔ (name, text) ∈ declaration.attributes :=
  ⟨mem_of_get?, distinct.get?_of_mem⟩

/-- The same attributes are read alike in any order. -/
theorem Distinct.get?_eq_of_perm (distinct : declaration.Distinct)
    (perm : declaration.attributes.Perm other.attributes) (name : String) :
    declaration.get? name = other.get? name :=
  Text.find?_fst_eq_of_perm distinct perm name

/-- Attributes that are read alike are the same in some order. -/
theorem Distinct.perm_of_get?_eq (distinct : declaration.Distinct) (others : other.Distinct)
    (same : ∀ name, declaration.get? name = other.get? name) :
    declaration.attributes.Perm other.attributes := by
  rw [List.perm_ext_iff_of_nodup (List.Nodup.of_map _ distinct) (List.Nodup.of_map _ others)]
  rintro ⟨name, text⟩
  rw [← distinct.get?_eq_some_iff, ← others.get?_eq_some_iff, same]

/-! ## Sorting -/

/-- Sorting undoes any change of the order if no two elements are level. -/
theorem mergeSort_eq_of_perm {α : Type} {le : α → α → Bool}
    (trans : ∀ a b c, le a b = true → le b c = true → le a c = true)
    (total : ∀ a b, (le a b || le b a) = true) {xs ys : List α} (perm : xs.Perm ys)
    (apart : ∀ a ∈ xs, ∀ b ∈ xs, le a b = true → le b a = true → a = b) :
    xs.mergeSort le = ys.mergeSort le := by
  have sorted : (xs.mergeSort le).Perm (ys.mergeSort le) :=
    (List.mergeSort_perm xs le).trans (perm.trans (List.mergeSort_perm ys le).symm)
  refine sorted.eq_of_pairwise (fun a b ha hb => ?_) (List.pairwise_mergeSort trans total xs)
    (List.pairwise_mergeSort trans total ys)
  exact apart a (List.mem_mergeSort.mp ha) b (perm.mem_iff.mpr (List.mem_mergeSort.mp hb))

/-- Sorting outputs by number undoes any change of their order if the numbers are
distinct. -/
theorem mergeSort_number_eq {outputs others : List NumberedOutput} (perm : outputs.Perm others)
    (distinct : (outputs.map NumberedOutput.number).Nodup) :
    (outputs.mergeSort fun a b => decide (a.number ≤ b.number)) =
      others.mergeSort fun a b => decide (a.number ≤ b.number) := by
  refine mergeSort_eq_of_perm (decide_le_trans NumberedOutput.number)
    (decide_le_total NumberedOutput.number) perm fun one hone other hother below above => ?_
  exact List.inj_on_of_nodup_map distinct hone hother
    (Nat.le_antisymm (of_decide_eq_true below) (of_decide_eq_true above))

/-- Sorting texts undoes any change of their order. -/
theorem mergeSort_text_eq {names others : List String} (perm : names.Perm others) :
    (names.mergeSort fun a b => !decide (b < a)) =
      others.mergeSort fun a b => !decide (b < a) := by
  have le_iff (a b : String) : (!decide (b < a)) = true ↔ a ≤ b := by
    rw [Bool.not_eq_true', decide_eq_false_iff_not]
    exact String.not_lt
  refine mergeSort_eq_of_perm (fun a b c hab hbc => ?_) (fun a b => ?_) perm
    fun a _ b _ hab hba => ?_
  · rw [le_iff] at hab hbc ⊢
    exact String.le_trans hab hbc
  · rw [Bool.or_eq_true, le_iff, le_iff]
    exact String.le_total a b
  · rw [le_iff] at hab hba
    exact String.le_antisymm hab hba

/-! ## The same mapping -/

/-- The numbers of the outputs are those of the names of attributes. -/
theorem map_number_numbered (declaration : Declaration) :
    declaration.numbered.map NumberedOutput.number =
      declaration.attributes.filterMap fun pair => outputNumber? pair.1 := by
  unfold numbered
  rw [List.map_filterMap]
  exact congrArg (List.filterMap · _) (funext declaration.map_number_numberedOutput?)

/-- The same attributes declare the same outputs, in another order. -/
theorem Distinct.numbered_perm (distinct : declaration.Distinct)
    (perm : declaration.attributes.Perm other.attributes) :
    declaration.numbered.Perm other.numbered := by
  have same : declaration.numberedOutput? = other.numberedOutput? :=
    funext fun pair => numberedOutput?_congr fun suffix _ => distinct.get?_eq_of_perm perm _
  unfold numbered
  rw [same]
  exact perm.filterMap _

/-- The same attributes declare the same outputs, in another order among those of one
number. -/
theorem Distinct.outputs_perm (distinct : declaration.Distinct)
    (perm : declaration.attributes.Perm other.attributes) :
    declaration.outputs.Perm other.outputs :=
  declaration.outputs_perm.trans
    (((distinct.numbered_perm perm).map NumberedOutput.output).trans other.outputs_perm.symm)

/-- The outputs do not depend on the order of the attributes. -/
theorem Distinct.outputs_eq_of_perm (distinct : declaration.Distinct)
    (numbers : declaration.DistinctNumbers)
    (perm : declaration.attributes.Perm other.attributes) :
    declaration.outputs = other.outputs := by
  unfold DistinctNumbers at numbers
  rw [← map_number_numbered] at numbers
  rw [outputs_eq, outputs_eq, mergeSort_number_eq (distinct.numbered_perm perm) numbers]

/-- Whether nothing reads an attribute does not depend on the order of the attributes. -/
theorem isStray_congr (same : ∀ name, declaration.get? name = other.get? name) (name : String) :
    declaration.isStray name = other.isStray name := by
  unfold isStray
  simp only [same]

/-- The strays do not depend on the order of the attributes. -/
theorem Distinct.strays_eq_of_perm (distinct : declaration.Distinct)
    (perm : declaration.attributes.Perm other.attributes) :
    declaration.strays = other.strays := by
  have same : declaration.isStray = other.isStray :=
    funext (isStray_congr (distinct.get?_eq_of_perm perm))
  unfold strays
  rw [same]
  exact mergeSort_text_eq ((perm.map Prod.fst).filter _)

end Declaration

namespace Compiler

open Declaration

variable {declaration other : Declaration}

/-- What a declaration compiles to depends on its mapping, its outputs and its strays. -/
theorem compile_congr (compiler : Compiler)
    (same : ∀ name, declaration.get? name = other.get? name)
    (outputs : declaration.outputs = other.outputs) (strays : declaration.strays = other.strays)
    (interfaceId : Int32) :
    compiler.compile declaration interfaceId = compiler.compile other interfaceId := by
  have echo : declaration.wantsEcho = other.wantsEcho := by
    unfold wantsEcho
    rw [same]
  have input : compiler.inputSchema declaration = compiler.inputSchema other := by
    unfold inputSchema
    rw [same]
  have complaints : strayComplaints declaration = strayComplaints other := by
    unfold strayComplaints inputText
    rw [strays, same]
  unfold compile
  rw [input, outputs, same, echo, complaints]

/-- The order of attributes means nothing. Take any two sequences of calls that set
attributes and leave the same mapping of names to texts, and no two outputs of one number.
In whatever orders the two declarations list their attributes, they have the same outputs and
the same strays, they compile to the same, and they do the same to every table and journal. -/
theorem install_eq_of_get?_eq (pairs others : List (String × String))
    (same : ∀ name, (ofPairs pairs).get? name = (ofPairs others).get? name)
    (numbers : (ofPairs pairs).DistinctNumbers) (first second : Declaration)
    (hfirst : first.attributes.Perm (ofPairs pairs).attributes)
    (hsecond : second.attributes.Perm (ofPairs others).attributes) :
    first.outputs = second.outputs ∧ first.strays = second.strays ∧
      ∀ (compiler : Compiler) (table : Table) (journal : Journal) (interfaceId : Int32),
        compiler.compile first interfaceId = compiler.compile second interfaceId ∧
          compiler.install table journal first interfaceId =
            compiler.install table journal second interfaceId := by
  have built := distinct_ofPairs pairs
  have distinct : first.Distinct := built.of_perm hfirst.symm
  have perm : first.attributes.Perm second.attributes :=
    hfirst.trans ((built.perm_of_get?_eq (distinct_ofPairs others) same).trans hsecond.symm)
  have apart : first.DistinctNumbers := (hfirst.filterMap _).nodup_iff.mpr numbers
  have reads := distinct.get?_eq_of_perm perm
  have outputs := distinct.outputs_eq_of_perm apart perm
  have strays := distinct.strays_eq_of_perm perm
  refine ⟨outputs, strays, fun compiler table journal interfaceId => ?_⟩
  have compiled := compiler.compile_congr reads outputs strays interfaceId
  refine ⟨compiled, ?_⟩
  unfold install inputText
  rw [compiled, reads]

/-- Attributes in an order that sorts the outputs, with two strays behind them. -/
def sortedAttributes : List (String × String) :=
  [("input", "key"), ("output", "trigger-loop"), ("output2", "go-sub"),
    ("output10", "set-debug-mode"), ("typo", "x"), ("also", "y")]

/-- The same attributes, set and listed the other way round and with the input set twice, are
read in the same order. -/
theorem install_eq_of_get?_eq_sortedAttributes :
    let compiler : Compiler := ⟨.standard 512, .empty, .exact []⟩
    let first : Declaration := ⟨sortedAttributes.reverse⟩
    let second : Declaration := ⟨sortedAttributes⟩
    first.outputs = [⟨"trigger-loop", ""⟩, ⟨"go-sub", ""⟩, ⟨"set-debug-mode", ""⟩] ∧
      first.strays = second.strays ∧
      compiler.install .empty {} first 1 = compiler.install .empty {} second 1 := by
  intro compiler first second
  let pairs := ("input", "go-sub") :: sortedAttributes.reverse
  have mappings : (ofPairs pairs).attributes.Perm (ofPairs sortedAttributes).attributes := by
    decide +kernel
  obtain ⟨outputs, strays, all⟩ := install_eq_of_get?_eq pairs sortedAttributes
    ((distinct_ofPairs pairs).get?_eq_of_perm mappings) (by decide +kernel) first second
    (by decide +kernel) (by decide +kernel)
  refine ⟨outputs.trans ?_, strays, (all compiler .empty {} 1).2⟩
  exact (outputs_eq_of_pairwise (by decide +kernel)).trans (by decide +kernel)

end Compiler

end CueRouter
