import CueRouter.Proofs.Dispatch.Broadcast
import CueRouter.Proofs.Dispatch.Change
import CueRouter.Proofs.Event.Lending

/-!
# Limits are transparent until they are hit

Two runs of the same events, one of them with a larger pool, a higher depth limit or
another debug switch, go through the same steps as long as the narrower one drops
nothing for lack of room. Their states stay alike: only the number of idle events,
what those events hold, the debug switch and the descriptions in the journal differ.
-/

namespace CueRouter

namespace Journal

/-- The messages that are more than information. -/
def essentials (journal : Journal) : List Message :=
  journal.messages.toList.filter fun message => message.level ≠ .info

/-- The journals say and report the same, up to information. -/
structure Alike (one other : Journal) : Prop where
  /-- Reports go to the same place. -/
  sink : one.sink = other.sink
  /-- The same was reported. -/
  diagnostics : one.diagnostics = other.diagnostics
  /-- The same was said. -/
  essentials : one.essentials = other.essentials

theorem Alike.symm {one other : Journal} (h : one.Alike other) : other.Alike one :=
  ⟨h.sink.symm, h.diagnostics.symm, h.essentials.symm⟩

/-- A message more, which counts unless it is information. -/
theorem essentials_note (journal : Journal) (level : Level) (text : String) :
    (journal.note level text).essentials =
      journal.essentials ++ if level = .info then [] else [⟨level, text⟩] := by
  unfold essentials note
  rw [Array.toList_push, List.filter_append]
  by_cases h : level = .info <;> simp [h]

/-- The same message may be added to both. -/
theorem Alike.note {one other : Journal} (h : one.Alike other) (level : Level)
    (text : String) : (one.note level text).Alike (other.note level text) where
  sink := h.sink
  diagnostics := h.diagnostics
  essentials := by rw [essentials_note, essentials_note, h.essentials]

/-- Information may be added to one of them. -/
theorem Alike.inform {one other : Journal} (h : one.Alike other) (text : String) :
    (one.note .info text).Alike other where
  sink := h.sink
  diagnostics := h.diagnostics
  essentials := by rw [essentials_note, if_pos rfl, List.append_nil, h.essentials]

/-- The same report may be made to both. -/
theorem Alike.report {one other : Journal} (h : one.Alike other)
    (diagnostic : Diagnostic) : (one.report diagnostic).Alike (other.report diagnostic) := by
  unfold Journal.report
  rw [← h.sink]
  cases one.sink with
  | forwarding => exact h.note _ _
  | collecting =>
    have noted := h.note .debug diagnostic.message
    refine ⟨noted.sink, ?_, noted.essentials⟩
    exact congrArg (Array.push · diagnostic) noted.diagnostics

end Journal

namespace State

/-- The states differ at most in the idle events, of which the second one has no
fewer, in the debug switch and in what the journal says as information. -/
structure Alike (s t : State) : Prop where
  /-- The variables are the same. -/
  store : s.store = t.store
  /-- The listeners heard the same. -/
  listeners : s.listeners = t.listeners
  /-- The hook claims the same. -/
  claims : s.claims = t.claims
  /-- Dispatches are nested as deeply. -/
  depth : s.depth = t.depth
  /-- The second one has no fewer idle events. -/
  available : s.pool.available ≤ t.pool.available
  /-- The second one has no smaller pool. -/
  capacity : s.pool.capacity ≤ t.pool.capacity
  /-- The same was reported. -/
  journal : s.journal.Alike t.journal

variable {s t : State}

/-- Journals that stay alike may grow. -/
theorem Alike.withJournal (h : s.Alike t) {one other : Journal} (alike : one.Alike other) :
    Alike { s with journal := one } { t with journal := other } :=
  ⟨h.store, h.listeners, h.claims, h.depth, h.available, h.capacity, alike⟩

/-- The same message may be added to both. -/
theorem Alike.note (h : s.Alike t) (level : Level) (text : String) :
    (s.note level text).Alike (t.note level text) :=
  h.withJournal (h.journal.note level text)

/-- The same fault may be reported in both. -/
theorem Alike.report (h : s.Alike t) (fault : DispatchFault) :
    (s.report fault).Alike (t.report fault) :=
  h.withJournal (h.journal.report _)

/-- Control events may be carried out in both. -/
theorem controlAlike_alike : Router.ControlAlike Alike where
  store_eq _ _ h := h.store
  write _ _ _ h := ⟨rfl, h.listeners, h.claims, h.depth, h.available, h.capacity, h.journal⟩
  debug _ _ _ h :=
    ⟨h.store, h.listeners, h.claims, h.depth, h.available, h.capacity, h.journal⟩
  note _ _ level text h := h.note level text

/-- An event may be given back in both. -/
theorem Alike.release (h : s.Alike t) (event : Event) :
    Alike { s with pool := s.pool.release event } { t with pool := t.pool.release event } := by
  refine ⟨h.store, h.listeners, h.claims, h.depth, ?_, ?_, h.journal⟩
  · have room := h.available
    have size := h.capacity
    unfold Pool.release
    split <;> split <;> simp only [Pool.available, List.length_append, List.length_singleton]
      at * <;> omega
  · dsimp only
    rw [Pool.capacity_release, Pool.capacity_release]
    exact h.capacity

end State

namespace Router

open State Handling

/-- The router with another depth limit. -/
def withLimit (router : Router) (limit : Nat) : Router :=
  { router with depthLimit := limit }

/-- The moments have the same agenda and states that are alike. -/
structure Matches (m n : Moment) : Prop where
  /-- The same has to be done. -/
  agenda : n.agenda = m.agenda
  /-- The states are alike. -/
  state : m.state.Alike n.state

section Steps

variable {router : Router} {limit : Nat} {s t : State}

/-- Describing an event keeps states alike, whether the debug switch is on in none, in
one or in both. -/
theorem alike_announce (alike : s.Alike t) (event : Event) :
    (router.announce s event).Alike ((router.withLimit limit).announce t event) := by
  unfold announce
  split
  · have informed := alike.withJournal (alike.journal.inform
      (event.type.name ++ ": " ++ router.describe s.store event))
    split
    · exact informed.withJournal (informed.journal.symm.inform _).symm
    · exact informed
  · split
    · exact alike.withJournal (alike.journal.symm.inform _).symm
    · exact alike

/-- Where the narrower pool lends an event, so does the larger one, and either is
overwritten alike whatever it was. -/
theorem matches_lend? (alike : s.Alike t) {fill : Event → Event} {event : Event}
    (overwrites : Event.Overwrites fill event) {m : Moment}
    (h : lend? s fill = some m) : ∃ n, lend? t fill = some n ∧ Matches m n := by
  rw [lend?_of_overwrites overwrites] at h ⊢
  cases hs : s.pool.acquire with
  | none => rw [hs] at h; cases h
  | some loan =>
    rw [hs] at h
    cases h
    have taken := Pool.available_of_acquire hs
    have room := alike.available
    have size := alike.capacity
    cases ht : t.pool.acquire with
    | none =>
      have dry := Pool.acquire_eq_none_iff.mp ht
      omega
    | some other =>
      have also := Pool.available_of_acquire ht
      refine ⟨_, rfl, rfl, alike.store, alike.listeners, alike.claims, alike.depth, ?_, ?_,
        alike.journal⟩
      · dsimp only
        omega
      · dsimp only
        omega

/-- An output that is not dropped in the narrower run is broadcast in both. -/
theorem matches_lend?_getD (alike : s.Alike t) {u v w : State} {fill : Event → Event}
    {event : Event} (overwrites : Event.Overwrites fill event) {fault : DispatchFault}
    (overrun : fault.isOverrun = true) (grown : u.journal.Extends v.journal)
    (roomy : u.Roomy ((lend? s fill).getD ⟨v.report fault, []⟩).state) :
    Matches ((lend? s fill).getD ⟨v.report fault, []⟩) ((lend? t fill).getD ⟨w, []⟩) := by
  cases h : lend? s fill with
  | none =>
    rw [h] at roomy
    exact absurd roomy (not_roomy_report overrun grown)
  | some m =>
    obtain ⟨n, hn, same⟩ := matches_lend? alike overwrites h
    rw [hn]
    exact same

/-- Carrying out a control event does the same in both states. -/
theorem matches_carry (alike : s.Alike t) (event : Event) :
    Matches (router.carry s event) ((router.withLimit limit).carry t event) := by
  have report : ∀ s t fault, Alike s t → Alike (s.report fault) (t.report fault) :=
    fun _ _ fault h => h.report fault
  unfold carry
  split
  · have halves : Agree Alike ((router.splitHigh event).run s)
        ((router.splitHigh event).run t) :=
      controlAlike_alike.parallel_splitHigh event s t alike
    rw [show (router.withLimit limit).splitHigh event = router.splitHigh event from rfl]
    cases hs : (router.splitHigh event).run s <;>
      cases ht : (router.splitHigh event).run t <;> rw [hs, ht] at halves
    · obtain ⟨rfl, after⟩ := halves
      exact ⟨rfl, after⟩
    · exact halves.elim
    · exact halves.elim
    · obtain ⟨rfl, after⟩ := halves
      exact ⟨rfl, after.report _⟩
  · rw [control_eq_settle, control_eq_settle]
    have steps : (router.carryOut event).Parallel Alike :=
      controlAlike_alike.parallel_carryOut event
    exact ⟨rfl, parallel_settle steps report alike⟩

/-- An input is looked up with the same outcome in both states. -/
theorem matches_consult (alike : s.Alike t) (input : Event) :
    Matches (router.consult s input) ((router.withLimit limit).consult t input) := by
  unfold consult
  rw [← alike.store]
  rw [show (router.withLimit limit).table = router.table from rfl]
  cases router.table.find input s.store with
  | error fault => exact ⟨rfl, alike.report fault⟩
  | ok found => cases found <;> exact ⟨rfl, alike⟩

/-- Acting on an event does the same in both states. -/
theorem matches_act (alike : s.Alike t) (event : Event) :
    Matches (router.act s event) ((router.withLimit limit).act t event) := by
  have announced : (router.announce s event).Alike
      ((router.withLimit limit).announce t event) := alike_announce alike event
  unfold act
  dsimp only
  rw [← announced.claims]
  split
  · exact matches_carry announced event
  · split
    · exact ⟨rfl, announced.note _ _⟩
    · exact matches_consult announced event

/-- A recorder has the same turn in both states. -/
theorem matches_turn (alike : s.Alike t) (recorders : s.OnlyRecords) (event : Event)
    (index : Nat) : Matches (turn s event index) (turn t event index) := by
  unfold turn
  rw [← alike.listeners]
  cases h : s.listeners[index]? with
  | none => exact ⟨rfl, alike⟩
  | some listener =>
    obtain ⟨heard, rfl⟩ := recorders _ (List.mem_of_getElem? h)
    exact ⟨rfl, alike.store, rfl, alike.claims, alike.depth, alike.available, alike.capacity,
      alike.journal⟩

/-- A dispatch that is not refused in the narrower run is entered in both. -/
theorem matches_enter (alike : s.Alike t) (higher : router.depthLimit ≤ limit)
    (event : Event) (roomy : s.Roomy (router.enter s event).state) :
    Matches (router.enter s event) ((router.withLimit limit).enter t event) := by
  unfold enter at roomy ⊢
  split
  · exact ⟨rfl, alike⟩
  · next routed =>
    rw [if_neg routed] at roomy
    have below : ¬router.depthLimit ≤ s.depth := by
      intro reached
      rw [if_pos reached] at roomy
      exact not_roomy_report rfl (.refl _) roomy
    have alsoBelow : ¬(router.withLimit limit).depthLimit ≤ t.depth := by
      rw [← alike.depth]
      exact fun reached => below (Nat.le_trans higher reached)
    rw [if_neg below, if_neg alsoBelow]
    exact ⟨rfl, alike.store, alike.listeners, alike.claims, congrArg (· + 1) alike.depth,
      alike.available, alike.capacity, alike.journal⟩

/-- An interface that is announced in the narrower run is announced in both. -/
theorem matches_proclaim (alike : s.Alike t) {interfaceId : Int32} {m : Moment}
    (h : router.proclaim s interfaceId = some m) :
    ∃ n, (router.withLimit limit).proclaim t interfaceId = some n ∧ Matches m n := by
  unfold proclaim at h ⊢
  rw [show (router.withLimit limit).catalog = router.catalog from rfl]
  cases hbuild : router.catalog.build .startInterface [(interfaceField, .int interfaceId)] with
  | error fault =>
    rw [hbuild] at h
    cases h
    exact ⟨_, rfl, rfl, alike.withJournal (alike.journal.report _)⟩
  | ok event =>
    rw [hbuild] at h
    exact matches_lend? alike event.overwrites_copyFrom h

/-- A task that drops nothing for lack of room in the narrower run is performed in
the same way in both. -/
theorem matches_perform (alike : s.Alike t) (higher : router.depthLimit ≤ limit)
    (recorders : s.OnlyRecords) {task : Task} {m : Moment}
    (h : router.perform s task = some m) (roomy : s.Roomy m.state) :
    ∃ n, (router.withLimit limit).perform t task = some n ∧ Matches m n := by
  cases task with
  | deliver event =>
    cases h
    exact ⟨_, rfl, rfl, alike⟩
  | route event =>
    cases h
    exact ⟨_, rfl, matches_enter alike higher event roomy⟩
  | handle event =>
    cases h
    exact ⟨_, rfl, matches_act alike event⟩
  | splitLow event n =>
    cases h
    have steps : (router.splitLow event n).Parallel Alike :=
      controlAlike_alike.parallel_splitLow event n
    exact ⟨_, rfl, rfl, parallel_settle steps (fun _ _ fault h => h.report fault) alike⟩
  | fire input binding =>
    cases h
    refine ⟨_, rfl, ?_⟩
    unfold produce at roomy ⊢
    dsimp only at roomy ⊢
    rw [← alike.store]
    exact matches_lend?_getD (alike.note _ _) (binding.overwrites_synthesizeInto _ _) rfl
      (.refl _) roomy
  | echo input =>
    cases h
    exact ⟨_, rfl,
      matches_lend?_getD alike input.overwrites_copyFrom_marked rfl (.refl _) roomy⟩
  | leave =>
    cases h
    exact ⟨_, rfl, rfl, alike.store, alike.listeners, alike.claims,
      congrArg (· - 1) alike.depth, alike.available, alike.capacity, alike.journal⟩
  | hearAll event =>
    cases h
    refine ⟨_, rfl, ?_, alike⟩
    rw [alike.listeners]
  | hear event index =>
    cases h
    exact ⟨_, rfl, matches_turn alike recorders event index⟩
  | giveBack event =>
    cases h
    exact ⟨_, rfl, rfl, alike.release event⟩
  | announce interfaceId => exact matches_proclaim alike h

end Steps

/-- As long as the narrower run drops nothing for lack of room, the other run passes
a matching moment. -/
theorem Passes.matches {router : Router} {limit : Nat} {m n p : Moment}
    (higher : router.depthLimit ≤ limit) (start : Matches m p)
    (recorders : m.state.OnlyRecords) (h : router.Passes m n)
    (roomy : m.state.Roomy n.state) :
    ∃ q, (router.withLimit limit).Passes p q ∧ Matches n q := by
  induction h with
  | refl => exact ⟨p, .refl, start⟩
  | @tail n after passes hstep ih =>
    have early := Passes.extends passes
    have late := extends_of_next? hstep
    obtain ⟨q, reached, same⟩ := ih (roomy.mono (.refl _) early late)
    have still : n.state.OnlyRecords :=
      Passes.keeps (P := fun n => n.state.OnlyRecords)
        (fun _ _ step kept => onlyRecords_of_next? step kept) passes recorders
    obtain ⟨task, rest, between, hagenda, hperform, rfl⟩ := next?_eq_some.mp hstep
    obtain ⟨other, hother, along⟩ := matches_perform same.state higher still hperform
      (roomy.mono early late (.refl _))
    refine ⟨⟨other.state, other.agenda ++ rest⟩, reached.tail ?_, ?_, along.state⟩
    · exact next?_eq_some.mpr ⟨task, rest, other, same.agenda.trans hagenda, hother, rfl⟩
    · exact congrArg (· ++ rest) along.agenda

/-- Limits and the debug switch are transparent: where listeners only record and no
event of the run is dropped for lack of room, the run with a larger pool, whatever its
idle events hold, with a higher depth limit and with the debug switch in any position
is heard the same, leaves the same variables and the same transpose, and reports the
same, after each of the events. -/
theorem broadcast_transparent (router : Router) (s : State) (events : List Event)
    (larger : Pool) (limit : Nat) (debug : Bool)
    (recorders : ∀ listener ∈ s.listeners, ∃ heard, listener = .recorder heard)
    (available : s.pool.available ≤ larger.available)
    (capacity : s.pool.capacity ≤ larger.capacity) (higher : router.depthLimit ≤ limit)
    (roomy : ∀ fault, fault.isOverrun = true →
      ¬s.journal.Reports (events.foldl router.broadcast s).journal (.dispatch fault))
    (count : Nat) :
    let narrow := (events.take count).foldl router.broadcast s
    let wide := (events.take count).foldl (router.withLimit limit).broadcast
      { s with pool := larger, debug := debug }
    wide.listeners = narrow.listeners ∧ wide.store = narrow.store ∧
      (router.withLimit limit).semitones wide = router.semitones narrow ∧
      wide.journal.diagnostics = narrow.journal.diagnostics ∧
      wide.journal.essentials = narrow.journal.essentials := by
  intro narrow wide
  have follows := runKept_follows router
  have early := follows.foldl follows.broadcast s (events.take count)
  have late := follows.foldl follows.broadcast narrow (events.drop count)
  have still : s.Roomy narrow := by
    rw [← List.take_append_drop count events, List.foldl_append] at roomy
    exact Roomy.mono roomy (.refl _) early.journal late.journal
  have start : Matches ⟨s, (events.take count).map .deliver⟩
      ⟨{ s with pool := larger, debug := debug }, (events.take count).map .deliver⟩ :=
    ⟨rfl, rfl, rfl, rfl, rfl, available, capacity, rfl, rfl, rfl⟩
  obtain ⟨⟨after, agenda⟩, reached, same, alike⟩ := Passes.matches higher start recorders
    (router.finishes_broadcasts s (events.take count)) still
  cases same
  have unique : after = wide := Finishes.unique reached
    ((router.withLimit limit).finishes_broadcasts _ (events.take count))
  rw [unique] at alike
  refine ⟨alike.listeners.symm, alike.store.symm, ?_, alike.journal.diagnostics.symm,
    alike.journal.essentials.symm⟩
  unfold semitones
  rw [← alike.store]
  rfl

/-- Two keys are routed alike with one event in the pool and with five of them, a
higher limit and the debug switch on, which only adds descriptions. -/
theorem broadcast_transparent_loopRouter :
    let s : State :=
      { store := { entries := [⟨"LOOP", .owned ⟨.int, .int 0⟩⟩] }
        pool := .ofCapacity 1
        journal := {}
        listeners := [.recorder #[]]
        debug := false }
    let key : Event := ⟨.key, [.int 0, .int 1, .int 32, .int 32], false⟩
    let narrow (count : Nat) := ([key, key].take count).foldl loopRouter.broadcast s
    let wide (count : Nat) := ([key, key].take count).foldl
      (loopRouter.withLimit 20).broadcast { s with pool := .ofCapacity 5, debug := true }
    (∀ count, (wide count).listeners = (narrow count).listeners ∧
      (wide count).store = (narrow count).store ∧
      (loopRouter.withLimit 20).semitones (wide count) =
        loopRouter.semitones (narrow count) ∧
      (wide count).journal.diagnostics = (narrow count).journal.diagnostics ∧
      (wide count).journal.essentials = (narrow count).journal.essentials) ∧
    (narrow 2).journal.messages.size < (wide 2).journal.messages.size := by
  intro s key narrow wide
  have recorders : ∀ listener ∈ s.listeners, ∃ heard, listener = .recorder heard :=
    fun listener hl => ⟨#[], List.mem_singleton.mp hl⟩
  have silent : ([key, key].foldl loopRouter.broadcast s).journal.diagnostics.toList = [] := by
    decide +kernel
  have roomy : ∀ fault, fault.isOverrun = true → ¬s.journal.Reports
      ([key, key].foldl loopRouter.broadcast s).journal (.dispatch fault) := by
    intro fault _ reported
    have member : Diagnostic.dispatch fault ∈ ([key, key].foldl loopRouter.broadcast
        s).journal.diagnostics.toList.drop 0 := reported
    rw [silent] at member
    cases member
  refine ⟨fun count => ?_, by decide +kernel⟩
  exact broadcast_transparent loopRouter s [key, key] (.ofCapacity 5) 20 true
    recorders (by decide) (by decide) (by decide) roomy count

end Router

end CueRouter
