import CueRouter.Proofs.Binding.Independence
import CueRouter.Proofs.Binding.Joining
import CueRouter.Proofs.Binding.Numbering
import CueRouter.Proofs.Binding.Pruning

/-!
# The order of conditions

The first condition on the indexed field decides the bucket of a chain, so conditions in
another order may put the chain in another bucket. No event can tell. The conditions hold of
the same events in any order, and whether there is a bucket at all does not depend on the
order, so the search that stands for the lookup finds the chain of the same call.
-/

namespace CueRouter

open Text Declaration

/-! ## Conditions in another order -/

namespace Declaration

/-- The declaration with the given clauses for its conditions. -/
def withClauses (declaration : Declaration) (clauses : List String) : Declaration :=
  declaration.withConditions (" and ".intercalate clauses)

/-- The conditions are no output and no parameters of one, so the outputs stay. -/
theorem outputs_withClauses (declaration : Declaration) (clauses : List String) :
    (declaration.withClauses clauses).outputs = declaration.outputs := by
  have same : (declaration.withClauses clauses).numbered = declaration.numbered :=
    declaration.numbered_set rfl rfl _
  rw [outputs_eq, outputs_eq, same]

/-- The other attributes stay. -/
theorem get?_withClauses (declaration : Declaration) (clauses : List String) {name : String}
    (apart : name ≠ "conditions") :
    (declaration.withClauses clauses).get? name = declaration.get? name := by
  unfold withClauses withConditions
  rw [get?_set, if_neg apart]

end Declaration

namespace Compiler

/-- The conditions are the joined clauses. -/
theorem conditionsText_withClauses (declaration : Declaration) (clauses : List String) :
    conditionsText (declaration.withClauses clauses) = " and ".intercalate clauses := by
  unfold conditionsText withClauses withConditions
  rw [get?_set, if_pos rfl, Option.getD_some]

/-- The input stays. -/
theorem inputSchema_withClauses (compiler : Compiler) (declaration : Declaration)
    (clauses : List String) :
    compiler.inputSchema (declaration.withClauses clauses) =
      compiler.inputSchema declaration := by
  unfold inputSchema
  rw [get?_withClauses _ _ (by decide)]

/-- Conditions in another order compile to the same clauses in another order, and have a
bucket if they had one. -/
theorem compileConditions_perm (compiler : Compiler) (schema : Schema) {text other : String}
    (perm : (splitClauses other).Perm (splitClauses text)) (interfaceId : Int32) :
    (compiler.compileConditions schema other interfaceId).clauses.Perm
        (compiler.compileConditions schema text interfaceId).clauses ∧
      (compiler.compileConditions schema other interfaceId).slot.isIndexed =
        (compiler.compileConditions schema text interfaceId).slot.isIndexed := by
  have accepted : (compiler.acceptedConditions schema other).Perm
      (compiler.acceptedConditions schema text) := perm.filterMap _
  have clauses := accepted.map Condition.clause
  have implicit : implicitCondition schema interfaceId
        ((compiler.acceptedConditions schema other).map Condition.clause) =
      implicitCondition schema interfaceId
        ((compiler.acceptedConditions schema text).map Condition.clause) := by
    unfold implicitCondition
    simp only [clauses.any_eq]
  have indexed (conditions : List Condition) :
      (((conditions.findSome? Condition.bucket).map Slot.indexed).getD .wildcard).isIndexed =
        conditions.any fun condition => condition.bucket.isSome := by
    rw [← List.isSome_findSome?]
    cases conditions.findSome? Condition.bucket <;> rfl
  rw [(compileConditions_eq other interfaceId).1, (compileConditions_eq other interfaceId).2,
    (compileConditions_eq text interfaceId).1, (compileConditions_eq text interfaceId).2,
    implicit, indexed, indexed]
  exact ⟨clauses.append_right _, accepted.any_eq⟩

end Compiler

/-! ## Compilations that answer the same events -/

/-- Two compilations are for the same inputs, their chains apply to the same events, and
either both or none has a bucket. -/
structure Compilation.Alike (c d : Compilation) : Prop where
  /-- They have the same schema. -/
  schema_eq : c.schema = d.schema
  /-- Either both or none has a bucket. -/
  isIndexed_eq : c.slot.isIndexed = d.slot.isIndexed
  /-- Their conditions hold of the same events. -/
  headApplies_eq : ∀ event store, c.headApplies event store = d.headApplies event store

/-- Compilations that are alike answer the same events. -/
theorem Compilation.Alike.answers_eq {c d : Compilation} (h : c.Alike d) (event : Event)
    (store : Store) : c.answers event store = d.answers event store := by
  unfold answers
  rw [h.schema_eq, h.headApplies_eq]

namespace Compiler

variable {compiler : Compiler}

/-- A declaration whose conditions are in another order is rejected if it was, and otherwise
it compiles to a chain that answers the same events. -/
theorem rel_compiled?_withClauses (compiler : Compiler) {declaration : Declaration}
    (interfaceId : Int32) {clauses : List String}
    (perm : clauses.Perm (splitClauses (conditionsText declaration)))
    (split : splitClauses (" and ".intercalate clauses) = clauses) :
    Option.Rel Compilation.Alike
      (compiler.compiled? ⟨declaration.withClauses clauses, interfaceId⟩)
      (compiler.compiled? ⟨declaration, interfaceId⟩) := by
  let reordered := declaration.withClauses clauses
  have outputs : reordered.outputs = declaration.outputs :=
    declaration.outputs_withClauses clauses
  have input : compiler.inputSchema reordered = compiler.inputSchema declaration :=
    compiler.inputSchema_withClauses declaration clauses
  have text : conditionsText reordered = " and ".intercalate clauses :=
    conditionsText_withClauses declaration clauses
  change Option.Rel _ (compiler.compile reordered interfaceId).toOption
    (compiler.compile declaration interfaceId).toOption
  cases found : compiler.inputSchema declaration with
  | error fault =>
    unfold compile
    rw [input, found]
    exact .none
  | ok schema =>
    by_cases nonempty : declaration.outputs = []
    · unfold compile
      rw [input, found, outputs, nonempty]
      exact .none
    · rw [compile_eq_of_inputSchema found nonempty,
        compile_eq_of_inputSchema (input.trans found) (outputs.symm ▸ nonempty), text, outputs]
      rw [← split] at perm
      obtain ⟨conditions, slots⟩ :=
        compiler.compileConditions_perm schema perm interfaceId
      refine .some ⟨rfl, slots, fun event store => ?_⟩
      unfold Compilation.headApplies
      rw [head?_any_toBindings, head?_any_toBindings, conditions.all_eq]

/-! ## The place of the answer -/

/-- The place of the call that answers an event: the first whose chain has a bucket and
applies, or else the first whose chain applies without one. -/
def answerPlace (compiler : Compiler) (calls : List Call) (event : Event) (store : Store) :
    Option Nat :=
  (calls.findIdx? fun call => (compiler.compiled? call).any fun c =>
      c.slot.isIndexed && c.answers event store).or
    (calls.findIdx? fun call => (compiler.compiled? call).any fun c =>
      !c.slot.isIndexed && c.answers event store)

/-- The place of a call is found by what the call compiles to. -/
theorem exists_of_findIdx? {calls : List Call} {test : Compilation → Bool} {place : Nat}
    (h : (calls.findIdx? fun call => (compiler.compiled? call).any test) = some place) :
    ∃ call c, calls[place]? = some call ∧ compiler.compiled? call = some c ∧
      test c = true := by
  obtain ⟨inside, passes, -⟩ := List.findIdx?_eq_some_iff_getElem.mp h
  obtain ⟨c, hc, htest⟩ := (Option.any_eq_true _ _).mp passes
  exact ⟨calls[place], c, List.getElem?_eq_getElem inside, hc, htest⟩

/-- A call that is found by a compilation that answers an event adds a chain. -/
theorem isSome_of_findIdx? {calls : List Call} {test : Compilation → Bool} {event : Event}
    {store : Store} {place : Nat}
    (h : (calls.findIdx? fun call => (compiler.compiled? call).any fun c =>
      test c && c.answers event store) = some place) :
    (calls[place]?.bind compiler.chainOf).isSome = true := by
  obtain ⟨call, c, hcall, hc, both⟩ := exists_of_findIdx? h
  obtain ⟨chain, hchain, -⟩ :=
    Compilation.exists_chain?_of_answers (Bool.and_eq_true_iff.mp both).2
  unfold chainOf
  rw [hcall, Option.bind_some, hc, Option.bind_some, hchain, Option.isSome_some]

/-- The call at the place of the answer adds a chain. -/
theorem isSome_of_answerPlace {calls : List Call} {event : Event} {store : Store} {place : Nat}
    (h : compiler.answerPlace calls event store = some place) :
    (calls[place]?.bind compiler.chainOf).isSome = true := by
  rcases Option.or_eq_some_iff.mp h with indexed | ⟨-, wildcard⟩
  · exact isSome_of_findIdx? indexed
  · exact isSome_of_findIdx? wildcard

/-- Searching through what calls compile to is searching through the calls. -/
theorem find?_compilations (compiler : Compiler) (calls : List Call)
    (test : Compilation → Bool) :
    (compiler.compilations calls).find? test =
      (calls.findIdx? fun call => (compiler.compiled? call).any test).bind fun place =>
        calls[place]?.bind compiler.compiled? := by
  unfold compilations
  rw [List.find?_filterMap, List.find?_eq_bind_findIdx?_getElem?, Option.bind_assoc]
  rfl

/-- A search finds what the call at the place of the answer compiles to. -/
theorem search_compilations (compiler : Compiler) (calls : List Call) (event : Event)
    (store : Store) :
    Compilation.search (compiler.compilations calls) event store =
      (compiler.answerPlace calls event store).bind fun place =>
        calls[place]?.bind compiler.compiled? := by
  unfold Compilation.search answerPlace
  rw [find?_compilations, find?_compilations]
  cases h : calls.findIdx? fun call => (compiler.compiled? call).any fun c =>
      c.slot.isIndexed && c.answers event store with
  | none => rfl
  | some place =>
    obtain ⟨call, c, hcall, hc, -⟩ := exists_of_findIdx? h
    rw [Option.some_or, Option.bind_some, hcall, Option.bind_some, hc, Option.some_or]

/-- A lookup finds the chain of the call at the place of the answer. -/
theorem find_eq_answerPlace {calls : List Call} (built : compiler.catalog.Built)
    (noFloat : ∀ call ∈ calls, compiler.ComparesNoFloat call.declaration) {event : Event}
    (whole : ∀ field ∈ (compiler.catalog.schema event.type).indexedField?,
      (event.field field.index).isWhole = true) (store : Store) (journal : Journal) :
    (compiler.installAll calls .empty journal).find event store =
      .ok ((compiler.answerPlace calls event store).bind fun place =>
        calls[place]?.bind compiler.chainOf) := by
  rw [find_installAll built noFloat whole journal, search_compilations, Option.bind_assoc]
  simp only [Option.bind_assoc]
  rfl

/-! ## Calls with their conditions in another order -/

/-- A call is another one with the clauses of its conditions in some order. -/
def Call.Reorders (call original : Call) : Prop :=
  call.interfaceId = original.interfaceId ∧
    ∃ clauses, clauses.Perm (splitClauses (conditionsText original.declaration)) ∧
      call.declaration = original.declaration.withClauses clauses

/-- No clause of the conditions of the call ends in the word that joins clauses. -/
def Call.Joins (call : Call) : Prop :=
  ∀ clause ∈ splitClauses (conditionsText call.declaration), ¬EndsInAnd clause

/-- Whether the conditions of a call can be joined can be read off their clauses. -/
instance (call : Call) : Decidable call.Joins :=
  inferInstanceAs (Decidable (∀ clause ∈ splitClauses _, ¬EndsInAnd clause))

/-- Clauses of conditions are split again however they are ordered. -/
theorem Call.Joins.split {call : Call} (joins : call.Joins) {clauses : List String}
    (perm : clauses.Perm (splitClauses (conditionsText call.declaration))) :
    splitClauses (" and ".intercalate clauses) = clauses :=
  splitClauses_intercalate
    (fun _ member => isClause_of_mem_splitClauses (perm.mem_iff.mp member))
    fun clause member => joins clause (perm.mem_iff.mp (List.dropLast_subset clauses member))

/-- Calls whose conditions are in another order pass the same tests. -/
theorem findIdx?_eq_of_reorders {calls others : List Call}
    (reorders : List.Forall₂ Call.Reorders others calls)
    (joins : ∀ call ∈ calls, call.Joins) {test : Compilation → Bool}
    (alike : ∀ c d : Compilation, c.Alike d → test c = test d) :
    (others.findIdx? fun call => (compiler.compiled? call).any test) =
      calls.findIdx? fun call => (compiler.compiled? call).any test := by
  induction reorders with
  | nil => rfl
  | @cons call original others calls reorders rest ih =>
    obtain ⟨here, later⟩ := List.forall_mem_cons.mp joins
    obtain ⟨interface, clauses, perm, declaration⟩ := reorders
    have same : (compiler.compiled? call).any test = (compiler.compiled? original).any test := by
      obtain ⟨reordered, interfaceId⟩ := call
      obtain rfl : interfaceId = original.interfaceId := interface
      obtain rfl : reordered = original.declaration.withClauses clauses := declaration
      have pair := compiler.rel_compiled?_withClauses original.interfaceId perm
        (here.split perm)
      change Option.Rel _ _ (compiler.compiled? original) at pair
      generalize compiler.compiled? original = compiled at pair ⊢
      generalize compiler.compiled? ⟨_, _⟩ = compiledReordered at pair ⊢
      cases pair with
      | none => rfl
      | some pair => exact alike _ _ pair
    rw [List.findIdx?_cons, List.findIdx?_cons, same, ih later]

/-- The order of conditions does not move the place of the answer. -/
theorem answerPlace_eq_of_reorders (compiler : Compiler) {calls others : List Call}
    (reorders : List.Forall₂ Call.Reorders others calls)
    (joins : ∀ call ∈ calls, call.Joins) (event : Event) (store : Store) :
    compiler.answerPlace others event store = compiler.answerPlace calls event store := by
  unfold answerPlace
  rw [findIdx?_eq_of_reorders reorders joins fun c d alike => ?_,
    findIdx?_eq_of_reorders reorders joins fun c d alike => ?_]
  · rw [alike.isIndexed_eq, alike.answers_eq]
  · rw [alike.isIndexed_eq, alike.answers_eq]

/-- Conditions in another order compare with the same constants. -/
theorem ComparesNoFloat.of_reorders {call original : Call}
    (noFloat : compiler.ComparesNoFloat original.declaration)
    (reorders : Call.Reorders call original) (joins : original.Joins) :
    compiler.ComparesNoFloat call.declaration := by
  obtain ⟨-, clauses, perm, declaration⟩ := reorders
  intro schema field found indexed condition member
  rw [declaration, inputSchema_withClauses] at found
  rw [declaration, conditionsText_withClauses, mem_acceptedConditions, joins.split perm]
    at member
  obtain ⟨clause, among, compiled⟩ := member
  exact noFloat schema field found indexed condition
    (mem_acceptedConditions.mpr ⟨clause, perm.mem_iff.mp among, compiled⟩)

/-- No reordered call compares with a float if no original does. -/
theorem comparesNoFloat_of_reorders {calls others : List Call}
    (reorders : List.Forall₂ Call.Reorders others calls)
    (noFloat : ∀ call ∈ calls, compiler.ComparesNoFloat call.declaration)
    (joins : ∀ call ∈ calls, call.Joins) :
    ∀ call ∈ others, compiler.ComparesNoFloat call.declaration := by
  induction reorders with
  | nil => exact fun _ member => absurd member List.not_mem_nil
  | cons reordered _ ih =>
    obtain ⟨here, later⟩ := List.forall_mem_cons.mp noFloat
    obtain ⟨join, rest⟩ := List.forall_mem_cons.mp joins
    exact List.forall_mem_cons.mpr ⟨here.of_reorders reordered join, ih later rest⟩

/-- The order of conditions means nothing. Take calls that compare the indexed field with no
float and have no clause that ends in the word between clauses, and the same calls with the
clauses of their conditions in any order. For every event with a whole number in its indexed
field and every values of the variables, both tables answer with the chain of the call at
the same place, or neither answers. -/
theorem find_reordered (compiler : Compiler) (built : compiler.catalog.Built)
    (calls others : List Call) (reorders : List.Forall₂ Call.Reorders others calls)
    (noFloat : ∀ call ∈ calls, compiler.ComparesNoFloat call.declaration)
    (joins : ∀ call ∈ calls, call.Joins) (event : Event)
    (whole : ∀ field ∈ (compiler.catalog.schema event.type).indexedField?,
      (event.field field.index).isWhole = true)
    (store : Store) (journal journal' : Journal) :
    ∃ answer : Option Nat,
      (compiler.installAll calls .empty journal).find event store =
          .ok (answer.bind fun place => calls[place]?.bind compiler.chainOf) ∧
        (compiler.installAll others .empty journal').find event store =
          .ok (answer.bind fun place => others[place]?.bind compiler.chainOf) ∧
        ∀ place, answer = some place →
          (calls[place]?.bind compiler.chainOf).isSome = true ∧
            (others[place]?.bind compiler.chainOf).isSome = true := by
  have same := compiler.answerPlace_eq_of_reorders reorders joins event store
  refine ⟨compiler.answerPlace calls event store,
    find_eq_answerPlace built noFloat whole store journal, ?_, fun place found => ?_⟩
  · rw [← same]
    exact find_eq_answerPlace built (comparesNoFloat_of_reorders reorders noFloat joins) whole
      store journal'
  · constructor
    · exact isSome_of_answerPlace found
    · exact isSome_of_answerPlace (same.trans found)

/-- Three calls on a subroutine call: conditions that never hold together, conditions on two
fields, and no conditions. -/
def conditionedCalls : List Call :=
  [⟨⟨[("input", "go-sub"), ("conditions", "sub=3 and sub=4"),
      ("output", "trigger-loop")]⟩, 1⟩,
    ⟨⟨[("input", "go-sub"), ("conditions", "sub=67 and param1=7"),
      ("output", "set-debug-mode")]⟩, 1⟩,
    ⟨⟨[("input", "go-sub"), ("output", "set-master-volume")]⟩, 1⟩]

/-- The same calls with their conditions the other way round. -/
def turnedCalls : List Call :=
  conditionedCalls.map fun call =>
    ⟨call.declaration.withClauses (splitClauses (conditionsText call.declaration)).reverse,
      call.interfaceId⟩

/-- Turning conditions round is one way to order them. -/
theorem reorders_turnedCalls : List.Forall₂ Call.Reorders turnedCalls conditionedCalls := by
  unfold turnedCalls
  rw [List.forall₂_map_left_iff]
  exact List.forall₂_same.mpr fun call _ => ⟨rfl, _, List.reverse_perm _, rfl⟩

/-- The first call moves to another bucket when its conditions are turned round. Still the
second answers with either order. -/
theorem find_reordered_conditionedCalls :
    let compiler : Compiler := ⟨.standard 512, .empty, .exact []⟩
    let event : Event := ⟨.goSub, [.int 1, .int 67, .int 7, .int 0, .int 0], false⟩
    let answered (calls : List Call) (place : Nat) : Prop :=
      (compiler.installAll calls .empty {}).find event .empty =
        .ok (calls[place]?.bind compiler.chainOf)
    (compiler.compilations conditionedCalls).map Compilation.slot =
        [.indexed 3, .indexed 3, .wildcard] ∧
      (compiler.compilations turnedCalls).map Compilation.slot =
        [.indexed 4, .indexed 3, .wildcard] ∧
      answered conditionedCalls 1 ∧ answered turnedCalls 1 := by
  intro compiler event answered
  have noFloat : ∀ call ∈ conditionedCalls, compiler.ComparesNoFloat call.declaration := by
    decide +kernel
  have whole : ∀ field ∈ (compiler.catalog.schema event.type).indexedField?,
      (event.field field.index).isWhole = true := by
    decide +kernel
  have second : answered conditionedCalls 1 := by
    have place : compiler.answerPlace conditionedCalls event .empty = some 1 := by
      decide +kernel
    refine (find_eq_answerPlace (.standard 512) noFloat whole .empty {}).trans ?_
    rw [place, Option.bind_some]
  obtain ⟨answer, found, turned, -⟩ := find_reordered compiler (.standard 512) conditionedCalls
    turnedCalls reorders_turnedCalls noFloat (by decide +kernel) event whole .empty {} {}
  have place : answer = some 1 := by
    have same := congrArg (Option.map fun chain => chain.head.prototype.type)
      (Except.ok.inj (second.symm.trans found))
    have adds : (conditionedCalls[1]?.bind compiler.chainOf).map
        (fun chain => chain.head.prototype.type) = some .setDebugMode := by
      decide +kernel
    rw [adds] at same
    rcases answer with _ | _ | _ | _ | _
    · cases same
    · revert same
      decide +kernel
    · rfl
    · revert same
      decide +kernel
    · cases same
  rw [place] at turned
  exact ⟨by decide +kernel, by decide +kernel, second, turned⟩

end Compiler

end CueRouter
