import CueRouter.Proofs.Engine.Steps

/-!
# What the table of a setup holds

Each declaration is compiled with the variables and the key names that there are at its time,
so no one compiler makes the table of a setup. What steps install is still known call by call:
the table holds what each declaration compiled to, in the order of the steps, and nothing else.
A setup only ever gains variables, so its compilers knew no name that it does not know.
-/

namespace CueRouter

/-- A call and what it is compiled with. -/
structure Compiler.Making where
  /-- The compiler of the time. -/
  compiler : Compiler
  /-- The call. -/
  call : Compiler.Call

namespace Compiler.Making

/-- What the call compiles to, unless it is rejected. -/
def compilation? (making : Making) : Option Compilation :=
  (making.compiler.compile making.call.declaration making.call.interfaceId).toOption

/-- A call compiles to what its compiler makes of its declaration. -/
theorem compilation?_eq_some {making : Making} {c : Compilation} :
    making.compilation? = some c ↔
      making.compiler.compile making.call.declaration making.call.interfaceId = .ok c := by
  unfold compilation?
  cases making.compiler.compile making.call.declaration making.call.interfaceId <;>
    simp [Except.toOption]

end Compiler.Making

namespace Setup

open Compiler (Making)

/-- The setup has the catalog of the compiler and all of its variables. -/
structure Outgrows (s : Setup) (compiler : Compiler) : Prop where
  /-- The catalogs are the same. -/
  catalog : compiler.catalog = s.catalog
  /-- A name that is unknown to the setup is unknown to the compiler. -/
  unknown : ∀ name, s.store.lookup name = none → compiler.store.lookup name = none

/-- The table holds what these calls compiled to, one after another, each by a compiler that
the setup has outgrown. -/
def Installs (s : Setup) (calls : List Compiler.Call) : Prop :=
  ∃ makings : List Making, makings.map Making.call = calls ∧
    (∀ making ∈ makings, s.Outgrows making.compiler) ∧
    s.table.Holds s.catalog (makings.filterMap Making.compilation?)

variable {s t : Setup} {calls : List Compiler.Call} {count : Nat}

/-- What a setup has outgrown, it has outgrown after any changes. -/
theorem Outgrows.of_changes {compiler : Compiler} (h : s.Outgrows compiler)
    (changes : Changes s count t) : t.Outgrows compiler where
  catalog := h.catalog.trans changes.fixed.1.symm
  unknown name absent := by
    obtain ⟨uses, same⟩ := changes.exists_afterAll_eq
    rw [same] at absent
    exact h.unknown name (Store.lookup_eq_none_of_afterAll absent)

/-- Changes that add no binding install nothing. -/
theorem Installs.of_changes (h : s.Installs calls) (changes : Changes s 0 t) :
    t.Installs calls := by
  obtain ⟨makings, made, outgrown, holds⟩ := h
  refine ⟨makings, made, fun making member => (outgrown making member).of_changes changes, ?_⟩
  rwa [changes.fixed.1, changes.table_eq rfl]

/-- Adding a binding installs one more call. -/
theorem Installs.addBinding (h : s.Installs calls) (built : s.catalog.Built)
    (declaration : Declaration) (interfaceId : Int32) :
    (s.addBinding declaration interfaceId).setup.Installs
      (calls ++ [⟨declaration, interfaceId⟩]) := by
  have mentioned := (Change.mentioned (s := s) interfaceId).once
  have added := changes_addBinding s declaration interfaceId
  obtain ⟨makings, made, outgrown, holds⟩ := h
  let last : Making := ⟨(s.mention interfaceId).compiler, declaration, interfaceId⟩
  have current : s.Outgrows last.compiler :=
    ⟨mentioned.fixed.1, fun name absent => by rwa [← s.store_mention interfaceId] at absent⟩
  rw [← current.catalog] at built holds
  have grown : Table.Holds _ last.compiler.catalog (_ ++ last.compiler.compilations [last.call]) :=
    Compiler.holds_install built holds (s.mention interfaceId).journal last.call
  rw [current.catalog, ← mentioned.table_eq rfl] at grown
  refine ⟨makings ++ [last], ?_, fun making member => ?_, ?_⟩
  · rw [List.map_append, made]
    rfl
  · rcases List.mem_append.mp member with old | new
    · exact (outgrown making old).of_changes added
    · rw [List.mem_singleton.mp new]
      exact current.of_changes added
  · rw [added.fixed.1, table_addBinding, List.filterMap_append]
    exact grown

/-- Adding bindings installs their calls in order. -/
theorem Installs.addBindings (h : s.Installs calls) (built : s.catalog.Built)
    (interfaceId : Int32) (declarations : List Declaration) :
    (s.addBindings interfaceId declarations).setup.Installs
      (calls ++ declarations.map fun declaration => ⟨declaration, interfaceId⟩) := by
  induction declarations generalizing s calls with
  | nil => rwa [List.map_nil, List.append_nil]
  | cons declaration rest ih =>
    have catalog : (s.addBinding declaration interfaceId).setup.catalog = s.catalog :=
      (changes_addBinding s declaration interfaceId).fixed.1
    rw [List.map_cons, List.append_cons]
    refine ih (h.addBinding built declaration interfaceId) ?_
    rwa [catalog]

/-- A step installs its calls. -/
theorem Installs.take (h : s.Installs calls) (built : s.catalog.Built) (step : Step) :
    (s.take step).setup.Installs (calls ++ step.calls) := by
  have quiet (none : step.calls = []) : (s.take step).setup.Installs (calls ++ step.calls) := by
    have changes := s.changes_take step
    rw [s.answer_take_of_calls_eq_nil none] at changes
    rw [none, List.append_nil]
    exact h.of_changes changes
  cases step with
  | bind declaration interfaceId => exact h.addBinding built declaration interfaceId
  | load interface =>
    have declared := (Change.mentioned (s := s) interface.id).once.trans
      (changes_addVariables _ interface.declarations)
    rw [← declared.fixed.1] at built
    have bound := (h.of_changes declared).addBindings built interface.id interface.bindings
    exact bound.of_changes (Change.said _).once
  | declare | share | link | subscribe | useKeys | useSink => exact quiet rfl

/-- Steps install their calls in order. -/
theorem Installs.configure (h : s.Installs calls) (built : s.catalog.Built)
    (steps : List Step) :
    (s.configure steps).setup.Installs (calls ++ steps.flatMap Step.calls) := by
  induction steps generalizing s calls with
  | nil => rwa [List.flatMap_nil, List.append_nil]
  | cons step steps ih =>
    rw [List.flatMap_cons, ← List.append_assoc]
    refine ih (h.take built step) ?_
    rwa [(s.changes_take step).fixed.1]

/-- An engine is set up with the calls of its steps installed. -/
theorem installs_configure (settings : Settings) (keys : KeyNames) (sink : Sink)
    (steps : List Step) :
    ((ofSettings settings keys sink).configure steps).setup.Installs
      (steps.flatMap Step.calls) := by
  have none : (ofSettings settings keys sink).Installs [] :=
    ⟨[], rfl, fun making member => absurd member List.not_mem_nil, Table.holds_empty _⟩
  exact none.configure (.standard settings.keyBuckets) steps

end Setup

end CueRouter
