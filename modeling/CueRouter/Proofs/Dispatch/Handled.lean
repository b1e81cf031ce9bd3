import CueRouter.Proofs.Dispatch.Frame

/-!
# The events that a run handles

An event that is dispatched below the limit and is neither an echo nor an action is
handled. A run handles events one after another, those that were sent and those that
bindings and relays answer with. What is true of the events that were sent, of every
output of a binding and of every answer of a relay is true of whatever is handled.
-/

namespace CueRouter

/-- The event that the next step handles, if it handles one. -/
def Moment.handled (m : Moment) : List Event :=
  match m.agenda with
  | .handle event :: _ => [event]
  | _ => []

/-- The event that a listener answers with. -/
def Listener.emit? : Listener → Option Event
  | .recorder _ => none
  | .relay _ emit _ => some emit

/-- What each listener answers with. -/
def State.emits (s : State) : List (Option Event) := s.listeners.map Listener.emit?

/-- Whatever event the task broadcasts, dispatches or handles has the property, and it
announces no interface. -/
def Task.Carries (P : Event → Prop) : Task → Prop
  | .deliver event | .route event | .handle event | .echo event => P event
  | .fire input binding => ∀ store, P (binding.synthesize input store)
  | .announce _ => False
  | .splitLow _ _ | .leave | .hearAll _ | .hear _ _ | .giveBack _ => True

namespace Router

open State

/-- A run from the first moment to the last that handles these events in this order. -/
inductive Handles (router : Router) (m : Moment) : List Event → Moment → Prop
  /-- No step. -/
  | refl : Handles router m [] m
  /-- One more step. -/
  | tail {handled : List Event} {n o : Moment} (run : Handles router m handled n)
      (step : router.next? n = some o) : Handles router m (handled ++ n.handled) o

variable {router : Router} {m n : Moment}

/-- A run that handles events is a run. -/
theorem Handles.passes {handled : List Event} (h : router.Handles m handled n) :
    router.Passes m n := by
  induction h with
  | refl => exact .refl
  | tail _ step ih => exact ih.tail step

/-- Every run handles some events. -/
theorem Passes.exists_handles (h : router.Passes m n) :
    ∃ handled, router.Handles m handled n := by
  induction h with
  | refl => exact ⟨[], .refl⟩
  | tail _ step ih =>
    obtain ⟨handled, run⟩ := ih
    exact ⟨_, run.tail step⟩

/-! ## Answers of listeners -/

/-- A listener that is replaced by one with the same answer changes no answer. -/
theorem emits_set {s : State} {index : Nat} {old new : Listener}
    (h : s.listeners[index]? = some old) (same : new.emit? = old.emit?) :
    emits { s with listeners := s.listeners.set index new } = s.emits := by
  unfold emits
  obtain ⟨inside, rfl⟩ := List.getElem?_eq_some_iff.mp h
  rw [List.map_set, same]
  refine List.ext_getElem? fun i => ?_
  rw [List.getElem?_set]
  split
  · next here => subst here; simp [inside]
  · rfl

/-- Control events leave the answers of listeners alone. -/
theorem controlKept_emits (router : Router) :
    ControlKept router fun s t => t.emits = s.emits where
  refl _ := rfl
  trans _ _ _ h k := k.trans h
  write _ _ _ _ _ := rfl
  debug _ _ := rfl
  note _ _ _ _ := rfl
  publish _ _ := rfl

/-- Carrying out a control event leaves the answers of listeners alone. -/
theorem emits_carry (router : Router) (s : State) (event : Event) :
    (router.carry s event).state.emits = s.emits := by
  unfold carry
  split
  · have high : ((router.splitHigh event).final s).emits = s.emits :=
      (controlKept_emits router).keeps_splitHigh event s
    unfold Handling.final at high
    split <;> next hrun => rw [hrun] at high; exact high
  · exact (controlKept_emits router).control event s fun _ _ => rfl

/-- No step changes what a listener answers with. -/
theorem emits_of_perform {s : State} {task : Task} (h : router.perform s task = some m) :
    m.state.emits = s.emits := by
  have lent {t u : State} (fill : Event → Event) (ht : t.emits = s.emits)
      (hu : u.emits = s.emits) : ((lend? t fill).getD ⟨u, []⟩).state.emits = s.emits := by
    unfold lend?
    cases t.pool.acquire with
    | none => exact hu
    | some loan => exact ht
  cases task with
  | deliver event => cases h; rfl
  | route event =>
    cases h
    unfold enter
    split
    · rfl
    · split <;> rfl
  | handle event =>
    cases h
    have announced : (router.announce s event).emits = s.emits := by
      unfold announce
      split <;> rfl
    unfold act
    dsimp only
    split
    · exact (router.emits_carry _ event).trans announced
    · split
      · exact announced
      · unfold consult
        split <;> exact announced
  | splitLow event n =>
    cases h
    exact rel_settle (F := fun _ => True) s (controlKept_emits router).trans
      ((controlKept_emits router).keeps_splitLow event n) (fun _ _ _ _ => trivial)
      fun _ _ _ => rfl
  | fire input binding => cases h; exact lent _ rfl rfl
  | echo input => cases h; exact lent _ rfl rfl
  | leave => cases h; rfl
  | hearAll event => cases h; rfl
  | hear event index =>
    cases h
    unfold turn
    cases hlistener : s.listeners[index]? with
    | none => rfl
    | some listener =>
      cases listener with
      | recorder heard => exact emits_set hlistener rfl
      | relay on emit dropped =>
        dsimp only
        split
        · rfl
        · exact lent _ rfl (emits_set hlistener rfl)
  | giveBack event => cases h; rfl
  | announce interfaceId =>
    change router.proclaim s interfaceId = some m at h
    unfold proclaim at h
    split at h
    · cases h
      rfl
    · obtain ⟨loan, -, rfl⟩ := Option.map_eq_some_iff.mp h
      rfl

/-! ## What is true of every event -/

/-- The property holds of the echo of an event that has it, and of every output. -/
structure Spreads (router : Router) (P : Event → Prop) : Prop where
  /-- Marking an event as an echo keeps the property. -/
  marked : ∀ event, P event → P event.marked
  /-- Whatever a binding synthesizes has the property. -/
  fired : ∀ binding ∈ router.table.bindings, ∀ input store,
    P (binding.synthesize input store)

section Carries

variable {P : Event → Prop}

/-- Borrowing an event that has the property carries it on. -/
theorem carries_lend?_getD {t u : State} {fill : Event → Event} {event : Event}
    (overwrites : Event.Overwrites fill event) (h : P event) :
    ∀ next ∈ ((lend? t fill).getD ⟨u, []⟩).agenda, Task.Carries P next := by
  intro next hnext
  rcases mem_agenda_lend?_getD overwrites hnext with rfl | rfl
  · exact h
  · trivial

/-- Looking up an event that has the property carries it on. -/
theorem Spreads.consult (spreads : router.Spreads P) {s : State} {input : Event}
    (h : P input) : ∀ next ∈ (router.consult s input).agenda, Task.Carries P next := by
  have echoed : ∀ next ∈ fallback input, Task.Carries P next := by
    intro next hnext
    unfold fallback at hnext
    split at hnext
    · cases hnext
    · rw [List.mem_singleton.mp hnext]
      exact h
  intro next hnext
  unfold Router.consult at hnext
  split at hnext
  · exact echoed next hnext
  · exact echoed next hnext
  · next chain hfind =>
    rcases List.mem_append.mp hnext with output | echo
    · obtain ⟨binding, hbinding, rfl⟩ := List.mem_map.mp output
      exact spreads.fired binding (Table.mem_bindings_of_find hfind binding hbinding) input
    · split at echo
      · rw [List.mem_singleton.mp echo]
        exact h
      · cases echo

/-- A task whose event has the property leads to tasks whose events have it, as long as
every listener answers with an event that has it. -/
theorem Spreads.perform (spreads : router.Spreads P) {s : State} {task : Task}
    (answers : ∀ emit, some emit ∈ s.emits → P emit) (carries : task.Carries P)
    (h : router.perform s task = some m) : ∀ next ∈ m.agenda, Task.Carries P next := by
  intro next hnext
  cases task with
  | deliver event =>
    cases h
    rcases List.mem_cons.mp hnext with rfl | hnext
    · exact carries
    · rw [List.mem_singleton.mp hnext]
      trivial
  | route event =>
    cases h
    unfold enter at hnext
    split at hnext
    · cases hnext
    · split at hnext
      · cases hnext
      · rcases List.mem_cons.mp hnext with rfl | hnext
        · exact carries
        · rw [List.mem_singleton.mp hnext]
          trivial
  | handle event =>
    cases h
    unfold act at hnext
    dsimp only at hnext
    split at hnext
    · unfold carry at hnext
      split at hnext
      · split at hnext
        · rw [List.mem_singleton.mp hnext]
          trivial
        · cases hnext
      · cases hnext
    · split at hnext
      · cases hnext
      · exact spreads.consult carries next hnext
  | splitLow event n => cases h; cases hnext
  | fire input binding =>
    cases h
    exact carries_lend?_getD (binding.overwrites_synthesizeInto _ _) (carries _) next hnext
  | echo input =>
    cases h
    exact carries_lend?_getD input.overwrites_copyFrom_marked (spreads.marked _ carries) next
      hnext
  | leave => cases h; cases hnext
  | hearAll event =>
    cases h
    obtain ⟨index, -, rfl⟩ := List.mem_map.mp hnext
    trivial
  | hear event index =>
    cases h
    unfold turn at hnext
    cases hlistener : s.listeners[index]? with
    | none =>
      rw [hlistener] at hnext
      cases hnext
    | some listener =>
      rw [hlistener] at hnext
      cases listener with
      | recorder heard => cases hnext
      | relay on emit dropped =>
        dsimp only at hnext
        split at hnext
        · cases hnext
        · refine carries_lend?_getD emit.overwrites_copyFrom (answers emit ?_) next hnext
          exact List.mem_map.mpr ⟨_, List.mem_of_getElem? hlistener, rfl⟩
  | giveBack event => cases h; cases hnext
  | announce interfaceId => exact carries.elim

/-- What is true of the events on the agenda, of the answers of the listeners and of the
outputs of the bindings is true of every event on the agenda of a later moment. -/
theorem Spreads.passes (spreads : router.Spreads P) (h : router.Passes m n)
    (answers : ∀ emit, some emit ∈ m.state.emits → P emit)
    (carries : ∀ task ∈ m.agenda, Task.Carries P task) :
    ∀ task ∈ n.agenda, Task.Carries P task := by
  suffices kept : n.state.emits = m.state.emits ∧ ∀ task ∈ n.agenda, Task.Carries P task
    from kept.2
  refine h.keeps (P := fun n => n.state.emits = m.state.emits ∧
    ∀ task ∈ n.agenda, Task.Carries P task) ?_ ⟨rfl, carries⟩
  rintro first second step ⟨same, known⟩
  obtain ⟨task, rest, after, hagenda, hafter, rfl⟩ := next?_eq_some.mp step
  rw [hagenda] at known
  rw [← same] at answers
  refine ⟨(emits_of_perform hafter).trans same, fun next hnext => ?_⟩
  rcases List.mem_append.mp hnext with new | old
  · exact spreads.perform answers (known task List.mem_cons_self) hafter next new
  · exact known next (List.mem_cons_of_mem _ old)

end Carries

end Router

end CueRouter
