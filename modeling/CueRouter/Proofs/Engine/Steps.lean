import CueRouter.Proofs.Binding.Lookup
import CueRouter.Proofs.Dispatch.Stretch
import CueRouter.Proofs.Engine.Transpose

/-!
# What steps leave alone

A step of configuration touches the table only by the declarations that it compiles, the
variables only by using them, and the listeners only by those that it subscribes. So the
listeners of an engine are those that were subscribed, in order. Its catalog and its settings
are those it began with, and it starts out ready to broadcast when none of its listeners
answers.
-/

namespace CueRouter

namespace Setup

/-! ## The table -/

/-- The declarations that a step compiles, each with its interface. -/
def Step.calls : Step → List Compiler.Call
  | .bind declaration interfaceId => [⟨declaration, interfaceId⟩]
  | .load interface => interface.bindings.map fun declaration => ⟨declaration, interface.id⟩
  | .declare .. | .share _ | .link .. | .subscribe _ | .useKeys _ | .useSink _ => []

section Changes

variable {s t : Setup} {count : Nat}

/-- A change that adds no binding leaves the table as it is. -/
theorem Change.table_eq (h : Change s count t) (none : count = 0) : t.table = s.table := by
  cases h with
  | mentioned interfaceId =>
    unfold mention
    split <;> rfl
  | installed declaration interfaceId =>
    have unchanged := s.compiler.install_eq_unchanged s.table s.journal declaration interfaceId
    cases hresult : (s.compiler.install s.table s.journal declaration interfaceId).result with
    | error fault => exact (unchanged.1 fault hresult).1
    | ok added =>
      rw [hresult] at none
      cases none
      exact unchanged.2 hresult
  | said | subscribed | renamed | shared | declared | linked => rfl

/-- Changes that add no binding leave the table as it is. -/
theorem Changes.table_eq (h : Changes s count t) (none : count = 0) : t.table = s.table := by
  induction h with
  | refl => rfl
  | tail _ last ih =>
    obtain ⟨earlier, later⟩ := Nat.add_eq_zero_iff.mp none
    exact (last.table_eq later).trans (ih earlier)

/-- No change replaces the catalog or the settings. -/
theorem Changes.fixed (h : Changes s count t) :
    t.catalog = s.catalog ∧ t.settings = s.settings := by
  refine h.keeps (P := fun _ t => t.catalog = s.catalog ∧ t.settings = s.settings) ?_
    ⟨rfl, rfl⟩
  rintro n m t u ⟨catalog, settings⟩ change
  rw [← catalog, ← settings]
  cases change with
  | mentioned interfaceId =>
    unfold mention
    split <;> exact ⟨rfl, rfl⟩
  | said | subscribed | renamed | shared | declared | linked | installed => exact ⟨rfl, rfl⟩

/-- Changes do nothing with the variables but use them. -/
theorem Changes.exists_afterAll_eq (h : Changes s count t) :
    ∃ uses, t.store = s.store.afterAll uses := by
  refine h.keeps (P := fun _ t => ∃ uses, t.store = s.store.afterAll uses) ?_ ⟨[], rfl⟩
  rintro n m t u ⟨uses, same⟩ change
  have used (use : Use) : t.store.after use = s.store.afterAll (uses ++ [use]) := by
    unfold Store.afterAll at same ⊢
    rw [same, List.foldl_append]
    rfl
  cases change with
  | mentioned interfaceId => exact ⟨uses, (t.store_mention interfaceId).trans same⟩
  | shared cell => exact ⟨_, used (.share cell)⟩
  | @declared name kind initial declared h =>
    have after : t.store.after (.call (.declareValue name kind initial)) = declared.store := by
      simp [Store.after, Call.outcome, h]
    exact ⟨_, after.symm.trans (used _)⟩
  | @linked name shared declared h =>
    have after : t.store.after (.call (.link name shared)) = declared.store := by
      simp [Store.after, Call.outcome, h]
    exact ⟨_, after.symm.trans (used _)⟩
  | said | subscribed | renamed | installed => exact ⟨uses, same⟩

end Changes

variable (s : Setup)

/-- A step without declarations adds no binding. -/
theorem answer_take_of_calls_eq_nil {step : Step} (h : step.calls = []) :
    (s.take step).answer = 0 := by
  cases step with
  | bind declaration interfaceId => cases h
  | load interface =>
    have none : interface.bindings = [] := List.map_eq_nil_iff.mp h
    simp only [take, loadInterface, none, addBindings]
  | declare | share | link | subscribe | useKeys | useSink => rfl

/-- A binding is compiled after its interface is mentioned. -/
theorem table_addBinding (declaration : Declaration) (interfaceId : Int32) :
    (s.addBinding declaration interfaceId).setup.table =
      ((s.mention interfaceId).compiler.install (s.mention interfaceId).table
        (s.mention interfaceId).journal declaration interfaceId).table := by
  unfold addBinding
  dsimp only
  split <;> rfl

/-! ## Everything else -/

/-- Taking over a variable or reporting why not changes the variables and the journal at
most. -/
theorem exists_settle_eq (name : String) (result : Except ConfigFault Store.Declared) :
    ∃ store journal, (s.settle name result).setup =
      { s with store := store, journal := journal } := by
  cases result with
  | ok declared => exact ⟨declared.store, s.journal, rfl⟩
  | error fault => exact ⟨s.store, _, rfl⟩

/-- So does declaring a variable. -/
theorem exists_declareVariable_eq (name typeName : String) (initializer : Option String) :
    ∃ store journal, (s.declareVariable name typeName initializer).setup =
      { s with store := store, journal := journal } := by
  unfold declareVariable
  exact s.exists_settle_eq _ _

/-- So does linking one. -/
theorem exists_linkVariable_eq (name : String) (shared : SharedCell) :
    ∃ store journal, (s.linkVariable name shared).setup =
      { s with store := store, journal := journal } := by
  unfold linkVariable
  exact s.exists_settle_eq _ _

/-- So does declaring several. -/
theorem exists_addVariables_eq (declarations : List VariableDeclaration) :
    ∃ store journal, declarations.foldl addVariable s =
      { s with store := store, journal := journal } := by
  induction declarations generalizing s with
  | nil => exact ⟨s.store, s.journal, rfl⟩
  | cons declaration rest ih =>
    obtain ⟨first, noted, once⟩ := s.exists_declareVariable_eq declaration.name
      declaration.typeName declaration.initializer
    have head : s.addVariable declaration = { s with store := first, journal := noted } := once
    rw [List.foldl_cons, head]
    exact ih _

/-- Adding a binding mentions the interface and changes the table and the journal at
most. -/
theorem exists_addBinding_eq (declaration : Declaration) (interfaceId : Int32) :
    ∃ table journal, (s.addBinding declaration interfaceId).setup =
      { s.mention interfaceId with table := table, journal := journal } := by
  unfold addBinding
  dsimp only
  split
  · exact ⟨_, _, rfl⟩
  · exact ⟨_, _, rfl⟩

/-! ## The listeners -/

/-- The listeners that a step subscribes. -/
def Step.listeners : Step → List Listener
  | .subscribe listener => [listener]
  | .declare .. | .share _ | .link .. | .bind .. | .load _ | .useKeys _ | .useSink _ => []

/-- Mentioning an interface subscribes no listener. -/
theorem listeners_mention (interfaceId : Int32) :
    (s.mention interfaceId).listeners = s.listeners := by
  unfold mention
  split <;> rfl

/-- Adding bindings subscribes no listener. -/
theorem listeners_addBindings (interfaceId : Int32) (declarations : List Declaration) :
    (s.addBindings interfaceId declarations).setup.listeners = s.listeners := by
  induction declarations generalizing s with
  | nil => rfl
  | cons declaration rest ih =>
    obtain ⟨table, journal, added⟩ := s.exists_addBinding_eq declaration interfaceId
    refine (ih _).trans ?_
    rw [added]
    exact s.listeners_mention interfaceId

/-- A step adds the listeners that it subscribes. -/
theorem listeners_take (step : Step) :
    (s.take step).setup.listeners = s.listeners ++ step.listeners := by
  cases step with
  | subscribe listener => rfl
  | load interface =>
    obtain ⟨store, journal, declared⟩ :=
      (s.mention interface.id).exists_addVariables_eq interface.declarations
    refine (listeners_addBindings _ interface.id interface.bindings).trans ?_
    rw [declared]
    exact (s.listeners_mention interface.id).trans (List.append_nil _).symm
  | bind declaration interfaceId =>
    exact (s.listeners_addBindings interfaceId [declaration]).trans (List.append_nil _).symm
  | declare name typeName initializer =>
    obtain ⟨store, journal, declared⟩ := s.exists_declareVariable_eq name typeName initializer
    simp only [take]
    rw [declared]
    exact (List.append_nil _).symm
  | link name shared =>
    obtain ⟨store, journal, linked⟩ := s.exists_linkVariable_eq name shared
    simp only [take]
    rw [linked]
    exact (List.append_nil _).symm
  | share | useKeys | useSink => exact (List.append_nil _).symm

/-- Steps add the listeners that they subscribe, in order. -/
theorem listeners_configure (steps : List Step) :
    (s.configure steps).setup.listeners = s.listeners ++ steps.flatMap Step.listeners := by
  induction steps generalizing s with
  | nil => exact (List.append_nil _).symm
  | cons step steps ih =>
    refine (ih (s.take step).setup).trans ?_
    rw [listeners_take, List.append_assoc, List.flatMap_cons]

/-! ## An engine -/

section Build

variable (settings : Settings) (keys : KeyNames) (sink : Sink) (steps : List Step)

/-- Whatever steps configured an engine, its catalog is the stock one. -/
theorem catalog_configure :
    ((ofSettings settings keys sink).configure steps).setup.catalog =
      .standard settings.keyBuckets :=
  (changes_configure _ steps).fixed.1

/-- Whatever steps configured an engine, it has the settings that it was given. -/
theorem settings_configure :
    ((ofSettings settings keys sink).configure steps).setup.settings = settings :=
  (changes_configure _ steps).fixed.2

variable {steps} in
/-- An engine starts out ready when its pool has enough events, of which it has one at least,
and none of its listeners answers. -/
theorem ready_build {type : EventType} {room : Nat} (enough : room ≤ max settings.poolSize 1)
    (ignored : ∀ listener ∈ steps.flatMap Step.listeners, listener.Ignores type) :
    ((ofSettings settings keys sink).configure steps).setup.build.state.Ready type room := by
  refine ⟨?_, fun _ => rfl, ?_, (Pool.Built.fresh _).available_le⟩
  · have subscribed : ((ofSettings settings keys sink).configure steps).setup.listeners =
        steps.flatMap Step.listeners := listeners_configure _ steps
    show ∀ listener ∈ ((ofSettings settings keys sink).configure steps).setup.listeners, _
    rw [subscribed]
    exact ignored
  · show room ≤ (Pool.ofCapacity
      ((ofSettings settings keys sink).configure steps).setup.settings.poolSize).available
    rwa [settings_configure, Pool.available_ofCapacity]

end Build

end Setup

end CueRouter
