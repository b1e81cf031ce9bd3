import CueRouter.Dispatch.Route
import CueRouter.Proofs.Dispatch.Handling

/-!
# The trace of an event

What is heard of an event, as a relation on the variables alone: there is no
pool, no depth and no journal in it. An output is traced from the variables that
the outputs before it left, everything nested in them included, and an input is
heard after all that it brought about. A trace and the variables after it are
determined by the event and the variables before.
-/

namespace CueRouter

mutual

/-- From these variables, the event is heard as this list of events and leaves
those variables. -/
inductive Trace (router : Router) : Store → Event → List Event → Store → Prop
  /-- An echo or an action is heard and brings nothing about. -/
  | passed {store : Store} {event : Event}
      (h : event.echo = true ∨ event.type.role = .action) :
      Trace router store event [event] store
  /-- A control event is carried out before it is heard. -/
  | controlled {store : Store} {event : Event} (hecho : event.echo = false)
      (hrole : event.type.role = .control) :
      Trace router store event [event] (router.controlled store event)
  /-- An input with a chain is heard after the outputs, and after its echo if the
  head asks for one. -/
  | answered {store after : Store} {event : Event} {chain : Chain}
      {heard : List Event} (hecho : event.echo = false)
      (hrole : event.type.role = .input)
      (found : router.table.find event store = .ok (some chain))
      (fired : Fires router event store chain.toList heard after) :
      Trace router store event
        (heard ++ (if chain.head.echo then [event.marked] else []) ++ [event]) after
  /-- An input without a chain is heard after its echo, unless it could feed
  itself. -/
  | unanswered {store : Store} {event : Event} (hecho : event.echo = false)
      (hrole : event.type.role = .input)
      (missed : ∀ chain, router.table.find event store ≠ .ok (some chain)) :
      Trace router store event
        ((if event.type.isSelfReferential then [] else [event.marked]) ++ [event])
        store

/-- From these variables, the outputs of the bindings for the input are heard one
after another as this list of events and leave those variables. -/
inductive Fires (router : Router) :
    Event → Store → List Binding → List Event → Store → Prop
  /-- No binding brings nothing about. -/
  | done {input : Event} {store : Store} : Fires router input store [] [] store
  /-- The output of the first binding is heard with all it brings about, and the
  others are synthesized after that. -/
  | next {input : Event} {store between after : Store} {binding : Binding}
      {rest : List Binding} {first heard : List Event}
      (one : Trace router store (binding.synthesize input store) first between)
      (others : Fires router input between rest heard after) :
      Fires router input store (binding :: rest) (first ++ heard) after

end

/-- A trace is determined by the event and the variables before it. -/
theorem Trace.unique {router : Router} {store : Store} {event : Event}
    {heard other : List Event} {after later : Store}
    (h : Trace router store event heard after)
    (k : Trace router store event other later) : heard = other ∧ after = later := by
  revert other later
  refine @Trace.rec router
    (fun store event heard after _ => ∀ {other later},
      Trace router store event other later → heard = other ∧ after = later)
    (fun input store bindings heard after _ => ∀ {other later},
      Fires router input store bindings other later → heard = other ∧ after = later)
    ?passed ?controlled ?answered ?unanswered ?done ?next store event heard after h
  case passed =>
    intro store event h other later k
    cases k with
    | passed => exact ⟨rfl, rfl⟩
    | controlled hecho hrole => simp [hecho, hrole] at h
    | answered hecho hrole => simp [hecho, hrole] at h
    | unanswered hecho hrole => simp [hecho, hrole] at h
  case controlled =>
    intro store event hecho hrole other later k
    cases k with
    | passed h => simp [hecho, hrole] at h
    | controlled => exact ⟨rfl, rfl⟩
    | answered _ input => rw [hrole] at input; cases input
    | unanswered _ input => rw [hrole] at input; cases input
  case answered =>
    intro store after event chain heard hecho hrole found fired ih other later k
    cases k with
    | passed h => simp [hecho, hrole] at h
    | controlled _ control => rw [hrole] at control; cases control
    | answered _ _ again refired =>
      rw [found] at again
      cases again
      obtain ⟨rfl, rfl⟩ := ih refired
      exact ⟨rfl, rfl⟩
    | unanswered _ _ missed => exact absurd found (missed _)
  case unanswered =>
    intro store event hecho hrole missed other later k
    cases k with
    | passed h => simp [hecho, hrole] at h
    | controlled _ control => rw [hrole] at control; cases control
    | answered _ _ found => exact absurd found (missed _)
    | unanswered => exact ⟨rfl, rfl⟩
  case done =>
    intro input store other later k
    cases k with
    | done => exact ⟨rfl, rfl⟩
  case next =>
    intro input store between after binding rest first heard one others ihOne ihOthers
      other later k
    cases k with
    | next again refired =>
      obtain ⟨rfl, rfl⟩ := ihOne again
      obtain ⟨rfl, rfl⟩ := ihOthers refired
      exact ⟨rfl, rfl⟩

/-- An echo is heard alone and changes no variable. -/
theorem Trace.eq_of_marked {router : Router} {store after : Store} {event : Event}
    {heard : List Event} (h : Trace router store event.marked heard after) :
    heard = [event.marked] ∧ after = store :=
  h.unique (.passed (.inl rfl))

end CueRouter
