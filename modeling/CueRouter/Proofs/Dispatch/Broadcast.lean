import CueRouter.Proofs.Dispatch.Run
import CueRouter.Proofs.Dispatch.Trace

/-!
# A broadcast is heard as its trace

Where all listeners only record, no hook claims an input and nothing is dropped
for lack of room, every listener hears exactly the trace of the event, and the
variables end up as the trace leaves them, whatever the pool, the depth, the
journal and the debug switch are.
-/

namespace CueRouter

/-- The listener after it heard these events, if it only records. -/
def Listener.recording (events : List Event) : Listener → Listener
  | recorder heard => recorder (heard ++ events.toArray)
  | relay on emit dropped => relay on emit dropped

/-- The listener answers no event of the type. -/
def Listener.Ignores (type : EventType) : Listener → Prop
  | recorder _ => True
  | relay on _ _ => type ≠ on

/-- Whether a listener answers events of a type can be read off it. -/
instance (type : EventType) : (listener : Listener) → Decidable (listener.Ignores type)
  | .recorder _ => inferInstanceAs (Decidable True)
  | .relay on _ _ => inferInstanceAs (Decidable (type ≠ on))

/-- What a listener answers does not depend on what it heard. -/
theorem Listener.ignores_recording {type : EventType} {listener : Listener}
    (h : listener.Ignores type) (events : List Event) :
    (listener.recording events).Ignores type := by
  cases listener <;> exact h

/-- Hearing nothing changes nothing. -/
theorem Listener.recording_nil (listener : Listener) :
    listener.recording [] = listener := by
  cases listener with
  | recorder heard => exact congrArg recorder (by simp)
  | relay on emit dropped => rfl

/-- Hearing one list of events after another is hearing both. -/
theorem Listener.recording_recording (listener : Listener) (first second : List Event) :
    (listener.recording first).recording second =
      listener.recording (first ++ second) := by
  cases listener with
  | recorder heard => exact congrArg recorder (by simp)
  | relay on emit dropped => rfl

namespace State

/-- Every listener only records, and no hook claims an input. -/
structure Passive (s : State) : Prop where
  /-- Every listener is a recorder. -/
  recorders : ∀ listener ∈ s.listeners, ∃ heard, listener = .recorder heard
  /-- The hook claims nothing. -/
  unclaimed : ∀ event, s.claims event = false

/-- Nothing was dropped for lack of room between two states. -/
def Roomy (s t : State) : Prop :=
  ∀ fault, fault.isOverrun = true → ¬s.journal.Reports t.journal (.dispatch fault)

/-- Every listener heard these events between two states. -/
def Hears (s t : State) (events : List Event) : Prop :=
  t.listeners = s.listeners.map (Listener.recording events)

/-- Where the listeners stay as they are, nothing is heard. -/
theorem hears_nil {s t : State} (h : t.listeners = s.listeners) : s.Hears t [] := by
  rw [Hears, h, show Listener.recording [] = id from funext Listener.recording_nil,
    List.map_id]

/-- What is heard in two parts of a run is heard in the whole of it. -/
theorem Hears.trans {s t u : State} {first second : List Event} (h : s.Hears t first)
    (k : t.Hears u second) : s.Hears u (first ++ second) := by
  rw [Hears] at h k ⊢
  rw [k, h, List.map_map]
  exact List.map_congr_left fun listener _ => listener.recording_recording first second

/-- Listeners that only record still only record after they heard something. -/
theorem Passive.of_hears {s t : State} (passive : s.Passive) {events : List Event}
    (h : s.Hears t events) (claims : t.claims = s.claims) : t.Passive where
  recorders listener hl := by
    rw [h, List.mem_map] at hl
    obtain ⟨before, hbefore, rfl⟩ := hl
    obtain ⟨heard, rfl⟩ := passive.recorders before hbefore
    exact ⟨_, rfl⟩
  unclaimed event := by
    rw [claims]
    exact passive.unclaimed event

/-- Where a run has room, so has every part of it. -/
theorem Roomy.mono {s t u v : State} (roomy : s.Roomy v)
    (h : s.journal.Extends t.journal) (i : t.journal.Extends u.journal)
    (j : u.journal.Extends v.journal) : t.Roomy u :=
  fun fault overrun reported => roomy fault overrun (reported.mono h i j)

/-- A run that reports an overrun has no room. -/
theorem not_roomy_report {s t : State} {fault : DispatchFault}
    (overrun : fault.isOverrun = true)
    (h : s.journal.Extends t.journal) : ¬s.Roomy (t.report fault) :=
  fun roomy => roomy fault overrun ((Journal.reports_report t.journal _).mono h
    (Journal.extends_report _ _) (.refl _))

/-- Recorders answer nothing. -/
theorem Passive.ignores {s : State} (passive : s.Passive) (type : EventType) :
    ∀ listener ∈ s.listeners, listener.Ignores type := by
  intro listener hl
  obtain ⟨heard, rfl⟩ := passive.recorders listener hl
  trivial

/-- A listener that does not answer an event only records it, if it does. -/
theorem hear_eq {s : State} {index : Nat} {listener : Listener} {event : Event}
    (h : s.listeners[index]? = some listener) (ignores : listener.Ignores event.type)
    (send : State → Event → State) :
    hear send event s index =
      { s with listeners := s.listeners.set index (listener.recording [event]) } := by
  unfold hear
  rw [h]
  cases listener with
  | recorder heard =>
    have recorded : heard.push event = heard ++ [event].toArray := rfl
    dsimp only [Listener.recording]
    rw [recorded]
  | relay on emit dropped =>
    have other : (event.type != on) = true := bne_iff_ne.mpr ignores
    obtain ⟨inside, same⟩ := List.getElem?_eq_some_iff.mp h
    dsimp only [Listener.recording]
    rw [other, Bool.or_true, if_pos rfl, ← same, List.set_getElem_self]

/-- Of listeners that do not answer an event and hear it one after another, the first ones
have heard it and the others are as they were. -/
theorem foldl_hear_range {s : State} {event : Event}
    (ignored : ∀ listener ∈ s.listeners, listener.Ignores event.type)
    (send : State → Event → State) {count : Nat} (hle : count ≤ s.listeners.length) :
    (List.range count).foldl (hear send event) s =
      { s with listeners :=
          (s.listeners.take count).map (Listener.recording [event]) ++
            s.listeners.drop count } := by
  induction count with
  | zero => rfl
  | succ count ih =>
    have hlt : count < s.listeners.length := hle
    have hlength : ((s.listeners.take count).map
        (Listener.recording [event])).length = count := by
      rw [List.length_map, List.length_take]
      omega
    have turn : ((s.listeners.take count).map (Listener.recording [event]) ++
        s.listeners.drop count)[count]? = some s.listeners[count] := by
      rw [List.getElem?_append_right (Nat.le_of_eq hlength), hlength, Nat.sub_self,
        List.getElem?_drop, Nat.add_zero, List.getElem?_eq_getElem hlt]
    rw [List.range_succ, List.foldl_append, ih (Nat.le_of_lt hlt), List.foldl_cons,
      List.foldl_nil, hear_eq turn (ignored _ (List.getElem_mem hlt))]
    dsimp only
    rw [List.set_append_right _ _ (Nat.le_of_eq hlength), hlength, Nat.sub_self,
      List.drop_eq_getElem_cons hlt, List.set_cons_zero,
      List.take_succ_eq_append_getElem hlt, List.map_append, List.append_assoc]
    rfl

/-- Listeners that do not answer an event and hear it one after another have all heard
it. -/
theorem hearAll_eq_of_ignores {s : State} {event : Event}
    (ignored : ∀ listener ∈ s.listeners, listener.Ignores event.type)
    (send : State → Event → State) :
    s.hearAll send event =
      { s with listeners := s.listeners.map (Listener.recording [event]) } := by
  unfold hearAll
  rw [foldl_hear_range ignored send (Nat.le_refl _), List.take_length, List.drop_length,
    List.append_nil]

/-- Recorders that hear an event one after another have all heard it. -/
theorem hearAll_eq {s : State} (passive : s.Passive) (send : State → Event → State)
    (event : Event) :
    s.hearAll send event =
      { s with listeners := s.listeners.map (Listener.recording [event]) } :=
  hearAll_eq_of_ignores (passive.ignores event.type) send

end State

namespace Router

open State

/-- Describing an event only makes the journal grow. -/
theorem announce_eq (router : Router) (s : State) (event : Event) :
    ∃ journal, router.announce s event = { s with journal := journal } ∧
      s.journal.Extends journal := by
  unfold announce
  split
  · exact ⟨_, rfl, Journal.extends_note _ _ _⟩
  · exact ⟨_, rfl, .refl _⟩

/-- Control leaves the listeners as they are. -/
theorem listeners_control (router : Router) (s : State) (event : Event) :
    (router.control s event).listeners = s.listeners := by
  have kept : ControlKept router fun s t => t.listeners = s.listeners :=
    { refl := fun _ => rfl
      trans := fun _ _ _ h k => k.trans h
      write := fun _ _ _ _ _ => rfl
      publish := fun _ _ => rfl
      debug := fun _ _ => rfl
      note := fun _ _ _ _ => rfl }
  exact kept.control event s fun _ _ => rfl

/-- Broadcasts while fewer events than `bound` are idle are heard as their
traces. -/
def TracedBelow (router : Router) (bound : Nat) (send : State → Event → State) : Prop :=
  ∀ s event, s.pool.available < bound → s.Passive → s.Roomy (send s event) →
    ∃ heard, Trace router s.store event heard (send s event).store ∧
      s.Hears (send s event) heard

section Nested

variable {router : Router} {idle : Nat}
  (traced : router.TracedBelow idle (router.sender idle)) {s : State} {event : Event}

include traced

/-- A broadcast on a borrowed event is heard as its trace. -/
theorem exists_trace_circulate {fill : Event → Event} {after : State}
    (overwrites : Event.Overwrites fill event) (hidle : s.pool.available ≤ idle)
    (passive : s.Passive) (h : s.circulate (router.sender idle) fill = some after)
    (roomy : s.Roomy after) :
    ∃ heard, Trace router s.store event heard after.store ∧ s.Hears after heard := by
  unfold circulate at h
  cases hloan : s.pool.acquire with
  | none => rw [hloan] at h; cases h
  | some loan =>
    rw [hloan] at h
    dsimp only at h
    rw [overwrites] at h
    cases h
    have taken := (Pool.available_of_acquire hloan).1
    have below : loan.pool.available < idle := by omega
    exact traced { s with pool := loan.pool } event below
      ⟨passive.recorders, passive.unclaimed⟩ roomy

/-- The output of a binding is heard as its trace. -/
theorem exists_trace_fire (hidle : s.pool.available ≤ idle) (passive : s.Passive)
    (binding : Binding) (roomy : s.Roomy (fire (router.sender idle) event s binding)) :
    ∃ heard, Trace router s.store (binding.synthesize event s.store) heard
        (fire (router.sender idle) event s binding).store ∧
      s.Hears (fire (router.sender idle) event s binding) heard := by
  unfold fire at roomy ⊢
  dsimp only at roomy ⊢
  split at roomy
  · next after hc =>
    have noted := Journal.extends_note s.journal .trace
      (event.type.name ++ " -> " ++ (binding.synthesize event s.store).type.name)
    have grown := ((runKept_follows router).circulate
      ((runKept_follows router).sender idle) hc).journal
    exact exists_trace_circulate traced (s := s.note .trace _)
      (binding.overwrites_synthesizeInto event s.store) hidle
      ⟨passive.recorders, passive.unclaimed⟩ hc (roomy.mono noted grown (.refl _))
  · exact absurd roomy (not_roomy_report rfl (.refl _))

/-- The outputs of bindings are heard as their traces one after another. -/
theorem exists_fires (hidle : s.pool.available ≤ idle) (passive : s.Passive)
    (bindings : List Binding)
    (roomy : s.Roomy (bindings.foldl (fire (router.sender idle) event) s)) :
    ∃ heard, Fires router event s.store bindings heard
        (bindings.foldl (fire (router.sender idle) event) s).store ∧
      s.Hears (bindings.foldl (fire (router.sender idle) event) s) heard := by
  induction bindings generalizing s with
  | nil => exact ⟨[], .done, hears_nil rfl⟩
  | cons binding rest ih =>
    rw [List.foldl_cons] at roomy ⊢
    have fires := (runKept_follows router).fire
      ((runKept_follows router).sender idle) event
    have first := fires s binding
    have others := (runKept_follows router).foldl fires
      (fire (router.sender idle) event s binding) rest
    obtain ⟨heard, hone, hhears⟩ := exists_trace_fire traced hidle passive binding
      (roomy.mono (.refl _) first.journal others.journal)
    obtain ⟨later, hothers, hrest⟩ := ih (Nat.le_trans first.available hidle)
      (passive.of_hears hhears first.claims)
      (roomy.mono first.journal others.journal (.refl _))
    exact ⟨heard ++ later, .next hone hothers, hhears.trans hrest⟩

/-- An echo is heard alone and changes no variable. -/
theorem hears_echo (hidle : s.pool.available ≤ idle) (passive : s.Passive)
    (roomy : s.Roomy (echo (router.sender idle) s event)) :
    (echo (router.sender idle) s event).store = s.store ∧
      s.Hears (echo (router.sender idle) s event) [event.marked] := by
  unfold echo at roomy ⊢
  split at roomy
  · next after hc =>
    obtain ⟨heard, htrace, hhears⟩ := exists_trace_circulate traced
      event.overwrites_copyFrom_marked hidle passive hc roomy
    obtain ⟨rfl, hstore⟩ := htrace.eq_of_marked
    exact ⟨hstore, hhears⟩
  · exact absurd roomy (not_roomy_report rfl (.refl _))

/-- An input that nothing matched is echoed unless it could feed itself. -/
theorem hears_echoUnmatched (hidle : s.pool.available ≤ idle) (passive : s.Passive)
    (roomy : s.Roomy (echoUnmatched (router.sender idle) s event)) :
    (echoUnmatched (router.sender idle) s event).store = s.store ∧
      s.Hears (echoUnmatched (router.sender idle) s event)
        (if event.type.isSelfReferential then [] else [event.marked]) := by
  unfold echoUnmatched at roomy ⊢
  cases hself : event.type.isSelfReferential with
  | true => exact ⟨rfl, hears_nil rfl⟩
  | false =>
    rw [hself] at roomy
    exact hears_echo traced hidle passive roomy

/-- An input that is routed is heard as its trace, but for the input itself. -/
theorem exists_trace_answer (hidle : s.pool.available ≤ idle) (passive : s.Passive)
    (hecho : event.echo = false) (hrole : event.type.role = .input)
    (roomy : s.Roomy (router.answer (router.sender idle) s event)) :
    ∃ heard, Trace router s.store event (heard ++ [event])
        (router.answer (router.sender idle) s event).store ∧
      s.Hears (router.answer (router.sender idle) s event) heard := by
  have follows := runKept_follows router
  unfold answer at roomy ⊢
  cases hfind : router.table.find event s.store with
  | error fault =>
    rw [hfind] at roomy
    dsimp only at roomy ⊢
    have reported := follows.report s (.dispatch fault)
    have echoed := follows.echoUnmatched (follows.sender idle) (s.report fault) event
    obtain ⟨hstore, hhears⟩ := hears_echoUnmatched traced
      (s := s.report fault) hidle ⟨passive.recorders, passive.unclaimed⟩
      (roomy.mono reported.journal echoed.journal (.refl _))
    rw [hstore]
    exact ⟨_, .unanswered hecho hrole (by simp [hfind]), hhears⟩
  | ok found =>
    rw [hfind] at roomy
    cases found with
    | none =>
      dsimp only at roomy ⊢
      obtain ⟨hstore, hhears⟩ := hears_echoUnmatched traced hidle passive roomy
      rw [hstore]
      exact ⟨_, .unanswered hecho hrole (by simp [hfind]), hhears⟩
    | some chain =>
      dsimp only at roomy ⊢
      have fires := follows.foldl (follows.fire (follows.sender idle) event) s
        chain.toList
      cases hask : chain.head.echo with
      | false =>
        rw [hask] at roomy
        obtain ⟨heard, hfires, hhears⟩ := exists_fires traced hidle passive chain.toList
          roomy
        refine ⟨heard, ?_, hhears⟩
        have answered := Trace.answered hecho hrole hfind hfires
        rw [hask, if_neg Bool.false_ne_true, List.append_nil] at answered
        exact answered
      | true =>
        rw [hask] at roomy
        have echoed := follows.echo (follows.sender idle)
          (fireAll (router.sender idle) event s chain) event
        obtain ⟨heard, hfires, hhears⟩ := exists_fires traced hidle passive chain.toList
          (roomy.mono (.refl _) fires.journal echoed.journal)
        obtain ⟨hstore, hecho'⟩ := hears_echo traced
          (Nat.le_trans fires.available hidle) (passive.of_hears hhears fires.claims)
          (roomy.mono fires.journal echoed.journal (.refl _))
        refine ⟨heard ++ [event.marked], ?_, hhears.trans hecho'⟩
        have answered := Trace.answered hecho hrole hfind hfires
        rw [hask, if_pos rfl, ← hstore] at answered
        exact answered

/-- An event that is routed is heard as its trace, but for the event itself. -/
theorem exists_trace_handle (hidle : s.pool.available ≤ idle) (passive : s.Passive)
    (hecho : event.echo = false) (hrole : event.type.role ≠ .action)
    (roomy : s.Roomy (router.handle (router.sender idle) s event)) :
    ∃ heard, Trace router s.store event (heard ++ [event])
        (router.handle (router.sender idle) s event).store ∧
      s.Hears (router.handle (router.sender idle) s event) heard := by
  obtain ⟨journal, hannounce, hgrown⟩ := router.announce_eq s event
  unfold handle at roomy ⊢
  rw [hannounce] at roomy ⊢
  dsimp only at roomy ⊢
  cases hcontrol : event.type.isControl with
  | true =>
    have control : event.type.role = .control := beq_iff_eq.mp hcontrol
    have traced : Trace router s.store event [event]
        (router.controlled s.store event) := .controlled hecho control
    refine ⟨[], ?_, hears_nil (router.listeners_control _ event)⟩
    rw [if_pos rfl, router.store_control]
    exact traced
  | false =>
    have input : event.type.role = .input := by
      cases h : event.type.role with
      | input => rfl
      | control => simp [EventType.isControl, h] at hcontrol
      | action => exact absurd h hrole
    rw [hcontrol, passive.unclaimed, if_neg Bool.false_ne_true,
      if_neg Bool.false_ne_true] at roomy
    rw [passive.unclaimed, if_neg Bool.false_ne_true, if_neg Bool.false_ne_true]
    have follows := runKept_follows router
    have answered := follows.answer (follows.sender idle)
      { s with journal := journal } event
    exact exists_trace_answer traced (s := { s with journal := journal }) hidle
      ⟨passive.recorders, passive.unclaimed⟩ hecho input
      (roomy.mono hgrown answered.journal (.refl _))

/-- An event that is handed to the dispatcher is heard as its trace, but for the
event itself. -/
theorem exists_trace_dispatch (hidle : s.pool.available ≤ idle) (passive : s.Passive)
    (roomy : s.Roomy (router.dispatch (router.sender idle) s event)) :
    ∃ heard, Trace router s.store event (heard ++ [event])
        (router.dispatch (router.sender idle) s event).store ∧
      s.Hears (router.dispatch (router.sender idle) s event) heard := by
  unfold dispatch at roomy ⊢
  by_cases hpass : (event.echo || event.type.role == .action) = true
  · rw [if_pos hpass]
    rw [Bool.or_eq_true, beq_iff_eq] at hpass
    exact ⟨[], .passed hpass, hears_nil rfl⟩
  · rw [if_neg hpass] at roomy ⊢
    rw [Bool.or_eq_true, beq_iff_eq, not_or, Bool.not_eq_true] at hpass
    by_cases hdepth : router.depthLimit ≤ s.depth
    · rw [if_pos hdepth] at roomy
      exact absurd roomy (not_roomy_report rfl (.refl _))
    · rw [if_neg hdepth] at roomy ⊢
      exact exists_trace_handle traced (s := { s with depth := s.depth + 1 }) hidle
        ⟨passive.recorders, passive.unclaimed⟩ hpass.1 hpass.2 roomy

/-- An event that is handed to everyone is heard as its trace. -/
theorem exists_trace_deliver (hidle : s.pool.available ≤ idle) (passive : s.Passive)
    (roomy : s.Roomy (router.deliver (router.sender idle) s event)) :
    ∃ heard, Trace router s.store event heard
        (router.deliver (router.sender idle) s event).store ∧
      s.Hears (router.deliver (router.sender idle) s event) heard := by
  have follows := runKept_follows router
  have dispatched := follows.dispatch (follows.sender idle) s event
  have delivered := follows.foldl (follows.hear (follows.sender idle) event)
    (router.dispatch (router.sender idle) s event)
    (List.range (router.dispatch (router.sender idle) s event).listeners.length)
  obtain ⟨heard, htrace, hhears⟩ := exists_trace_dispatch traced hidle passive
    (roomy.mono (.refl _) dispatched.journal delivered.journal)
  have still := passive.of_hears hhears dispatched.claims
  unfold deliver
  rw [hearAll_eq still]
  exact ⟨heard ++ [event], htrace, hhears.trans rfl⟩

end Nested

/-- However many events are idle, a broadcast is heard as its trace. -/
theorem tracedBelow_sender (router : Router) (idle : Nat) :
    router.TracedBelow idle (router.sender idle) := by
  induction idle with
  | zero => exact fun s event hidle => absurd hidle (Nat.not_lt_zero _)
  | succ idle ih =>
    exact fun s event hidle passive roomy =>
      exists_trace_deliver ih (Nat.le_of_lt_succ hidle) passive roomy

/-- A broadcast is heard as its trace: with listeners that only record and no hook
that claims an input, an event whose routing has room is heard by every listener as
exactly the one list of events that its trace is, and leaves the variables as that
trace does. -/
theorem broadcast_trace (router : Router) (s : State) (event : Event)
    (recorders : ∀ listener ∈ s.listeners, ∃ heard, listener = .recorder heard)
    (unclaimed : ∀ event, s.claims event = false)
    (roomy : ∀ fault, fault.isOverrun = true →
      ¬s.journal.Reports (router.broadcast s event).journal (.dispatch fault)) :
    ∃ heard,
      (∀ other after, Trace router s.store event other after ↔
        other = heard ∧ after = (router.broadcast s event).store) ∧
      (router.broadcast s event).listeners =
        s.listeners.map (Listener.recording heard) := by
  obtain ⟨heard, htrace, hhears⟩ := exists_trace_deliver
    (router.tracedBelow_sender s.pool.available) (Nat.le_refl _) ⟨recorders, unclaimed⟩
    roomy
  refine ⟨heard, fun other after => ?_, hhears⟩
  constructor
  · exact fun h => h.unique htrace
  · rintro ⟨rfl, rfl⟩
    exact htrace

/-- A router with one chain: a key sets the first variable to seven, triggers the
loop of that number and is echoed. -/
def loopRouter : Router where
  catalog := .standard 512
  table :=
    let setSeven : Binding :=
      ⟨⟨.setVariable, [.reference ⟨0⟩, .int 7, .int 0, .int 0], false⟩, true, [], []⟩
    let triggerIt : Binding :=
      ⟨⟨.triggerLoop, [.int 0, .int 0, .int 1], false⟩, false, [],
        [⟨.field 0 .int, ⟨.variableAt ⟨0⟩, []⟩⟩]⟩
    Table.empty.insert ((Catalog.standard 512).schema .key) .wildcard
      [setSeven, triggerIt]
  transpose := ⟨0⟩
  interfaces := []
  depthLimit := 8

/-- Two recorders hear of the key that the variable is set, that the loop of the new
number is triggered, the echo and the key. -/
theorem broadcast_trace_loopRouter :
    let s : State :=
      { store := { entries := [⟨"LOOP", .owned ⟨.int, .int 0⟩⟩] }
        pool := .ofCapacity 1
        journal := {}
        listeners := [.recorder #[], .recorder #[]]
        debug := false }
    let key : Event := ⟨.key, [.int 0, .int 1, .int 32, .int 32], false⟩
    let heard : Array Event :=
      #[⟨.setVariable, [.reference ⟨0⟩, .int 7, .int 0, .int 0], false⟩,
        ⟨.triggerLoop, [.int 7, .int 0, .int 1], false⟩, key.marked, key]
    (∃ heard,
      (∀ other after, Trace loopRouter s.store key other after ↔
        other = heard ∧ after = (loopRouter.broadcast s key).store) ∧
      (loopRouter.broadcast s key).listeners =
        s.listeners.map (Listener.recording heard)) ∧
      (loopRouter.broadcast s key).heard = [heard, heard] := by
  intro s key heard
  have silent : (loopRouter.broadcast s key).journal.diagnostics.toList = [] := by
    decide +kernel
  have roomy : ∀ fault, fault.isOverrun = true →
      ¬s.journal.Reports (loopRouter.broadcast s key).journal (.dispatch fault) := by
    intro fault _ reported
    have member : Diagnostic.dispatch fault ∈
        (loopRouter.broadcast s key).journal.diagnostics.toList.drop 0 := reported
    rw [silent] at member
    cases member
  have recorders : ∀ listener ∈ s.listeners, ∃ heard, listener = .recorder heard := by
    intro listener hl
    simp only [s, List.mem_cons, List.not_mem_nil, or_false, or_self] at hl
    exact ⟨#[], hl⟩
  exact ⟨broadcast_trace loopRouter s key recorders (fun _ => rfl) roomy,
    by decide +kernel⟩

end Router

end CueRouter
