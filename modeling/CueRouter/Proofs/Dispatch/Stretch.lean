import CueRouter.Proofs.Dispatch.Broadcast
import CueRouter.Proofs.Dispatch.Course
import CueRouter.Proofs.Event.Lending

/-!
# Stretches of a run

A run is put together from stretches, each of which does some tasks: it delivers events on
the way and leaves nothing behind but what the listeners heard and what was reported. One
stretch goes on after another, and the tasks of routing an event enclose those of the events
that it brings about: dispatches nest, events are borrowed and given back, and after all that
the listeners hear the event itself.
-/

namespace CueRouter

/-- The event that the next step delivers, if it delivers one. -/
def Moment.delivered (m : Moment) : List Event :=
  match m.agenda with
  | .deliver event :: _ => [event]
  | _ => []

namespace State

/-- What is left of a stretch of a run between two states is only that the listeners heard
these events and that these diagnostics were reported. -/
structure Trail (s t : State) (heard : List Event) (reported : List Diagnostic) : Prop where
  /-- The listeners heard the events. -/
  hears : s.Hears t heard
  /-- The diagnostics were reported. -/
  gains : s.journal.Gains t.journal reported
  /-- The variables are as they were. -/
  store : t.store = s.store
  /-- As many dispatches are under way. -/
  depth : t.depth = s.depth
  /-- As many events are idle. -/
  available : t.pool.available = s.pool.available
  /-- The pool has its size. -/
  capacity : t.pool.capacity = s.pool.capacity
  /-- The hook is the same. -/
  claims : t.claims = s.claims

/-- The outputs of calls of the type can be broadcast, `room` of them within each other, and
nobody but the bindings answers them. -/
structure Ready (s : State) (type : EventType) (room : Nat) : Prop where
  /-- No listener answers. -/
  ignored : ∀ listener ∈ s.listeners, listener.Ignores type
  /-- No hook claims an input. -/
  unclaimed : ∀ event, s.claims event = false
  /-- Enough events are idle. -/
  room : room ≤ s.pool.available
  /-- The events that are idle are events of the pool. -/
  bounded : s.pool.available ≤ s.pool.capacity

variable {s t u : State} {heard later : List Event} {reported others : List Diagnostic}

/-- Of no stretch nothing is left. -/
theorem Trail.refl (s : State) : s.Trail s [] [] :=
  ⟨hears_nil rfl, .refl _, rfl, rfl, rfl, rfl, rfl⟩

/-- What is left of two stretches is left one after the other. -/
theorem Trail.trans (h : s.Trail t heard reported) (k : t.Trail u later others) :
    s.Trail u (heard ++ later) (reported ++ others) where
  hears := h.hears.trans k.hears
  gains := h.gains.trans k.gains
  store := k.store.trans h.store
  depth := k.depth.trans h.depth
  available := k.available.trans h.available
  capacity := k.capacity.trans h.capacity
  claims := k.claims.trans h.claims

/-- What was said before a stretch is not left of it. -/
theorem Trail.of_journal {journal : Journal} (quiet : s.journal.Gains journal [])
    (h : Trail { s with journal := journal } t heard reported) : s.Trail t heard reported where
  hears := h.hears
  gains := quiet.trans h.gains
  store := h.store
  depth := h.depth
  available := h.available
  capacity := h.capacity
  claims := h.claims

/-- A dispatch that is ended after a stretch was entered before it. -/
theorem Trail.of_nested (h : Trail { s with depth := s.depth + 1 } t heard reported) :
    s.Trail { t with depth := t.depth - 1 } heard reported where
  hears := h.hears
  gains := h.gains
  store := h.store
  depth := by
    dsimp only
    rw [h.depth]
    rfl
  available := h.available
  capacity := h.capacity
  claims := h.claims

/-- An event that is given back after a stretch was borrowed before it. -/
theorem Trail.of_lent {loan : Pool.Loan} (borrowed : s.pool.acquire = some loan)
    (bounded : s.pool.available ≤ s.pool.capacity)
    (h : Trail { s with pool := loan.pool } t heard reported) (event : Event) :
    s.Trail { t with pool := t.pool.release event } heard reported := by
  obtain ⟨taken, size⟩ := Pool.available_of_acquire borrowed
  have idle : t.pool.available = loan.pool.available := h.available
  have whole : t.pool.capacity = s.pool.capacity := h.capacity.trans size
  have vacant : t.pool.available < t.pool.capacity := by omega
  have given := Pool.available_release event vacant
  exact
    { hears := h.hears
      gains := h.gains
      store := h.store
      depth := h.depth
      available := by dsimp only; omega
      capacity := (Pool.capacity_release _ _).trans whole
      claims := h.claims }

/-- Listeners that ignore events of a type before a stretch ignore them after it. -/
theorem Trail.ignores {type : EventType} (h : s.Trail t heard reported)
    (ignored : ∀ listener ∈ s.listeners, listener.Ignores type) :
    ∀ listener ∈ t.listeners, listener.Ignores type := by
  intro listener hl
  rw [h.hears, List.mem_map] at hl
  obtain ⟨before, hbefore, rfl⟩ := hl
  exact Listener.ignores_recording (ignored before hbefore) heard

/-- What is ready before a stretch is ready after it. -/
theorem Ready.of_trail {type : EventType} {room : Nat} (ready : s.Ready type room)
    (h : s.Trail t heard reported) : t.Ready type room where
  ignored := h.ignores ready.ignored
  unclaimed event := by
    rw [h.claims]
    exact ready.unclaimed event
  room := by
    rw [h.available]
    exact ready.room
  bounded := by
    rw [h.available, h.capacity]
    exact ready.bounded

/-- Where an event more than needed is idle, one can be borrowed, and the others are
enough. -/
theorem Ready.exists_loan {type : EventType} {room : Nat} (ready : s.Ready type (room + 1)) :
    ∃ loan, s.pool.acquire = some loan ∧ Ready { s with pool := loan.pool } type room := by
  have enough := ready.room
  have bounded := ready.bounded
  cases hloan : s.pool.acquire with
  | none =>
    have dry := Pool.acquire_eq_none_iff.mp hloan
    omega
  | some loan =>
    obtain ⟨taken, size⟩ := Pool.available_of_acquire hloan
    refine ⟨loan, rfl, ready.ignored, ready.unclaimed, ?_, ?_⟩
    · dsimp only
      omega
    · dsimp only
      omega

end State

namespace Router

open State

/-! ## What a run delivers -/

/-- A run from the first moment to the last that delivers these events in this order. -/
inductive Delivers (router : Router) : Moment → List Event → Moment → Prop
  /-- No step. -/
  | refl (m : Moment) : Delivers router m [] m
  /-- One step before the others. -/
  | head {m n o : Moment} {events : List Event} (step : router.next? m = some n)
      (run : Delivers router n events o) : Delivers router m (m.delivered ++ events) o

variable {router : Router} {s t u : State} {m n o : Moment} {events more : List Event}
  {task : Task} {tasks rest : List Task}

/-- A run that delivers events is a run. -/
theorem Delivers.passes (h : router.Delivers m events n) : router.Passes m n := by
  induction h with
  | refl => exact .refl
  | head step _ ih => exact .head step ih

/-- What two runs deliver, the one that goes on after the other delivers in all. -/
theorem Delivers.trans (h : router.Delivers m events n) (k : router.Delivers n more o) :
    router.Delivers m (events ++ more) o := by
  induction h with
  | refl => exact k
  | head step _ ih =>
    rw [List.append_assoc]
    exact .head step (ih k)

/-- Other tasks behind the agenda deliver nothing until their turn comes. -/
theorem Delivers.behind (h : router.Delivers m events n) (rest : List Task) :
    router.Delivers ⟨m.state, m.agenda ++ rest⟩ events ⟨n.state, n.agenda ++ rest⟩ := by
  induction h with
  | refl => exact .refl _
  | @head m n o events step run ih =>
    obtain ⟨task, others, after, hagenda, hafter, rfl⟩ := next?_eq_some.mp step
    have same : m.delivered = Moment.delivered ⟨m.state, m.agenda ++ rest⟩ := by
      unfold Moment.delivered
      rw [hagenda]
      cases task <;> rfl
    rw [same]
    refine .head (next?_eq_some.mpr ⟨task, others ++ rest, after, ?_, hafter, ?_⟩) ih
    · rw [hagenda, List.cons_append]
    · rw [List.append_assoc]

/-- Tasks in front of others are done before them. -/
theorem Delivers.append (h : router.Delivers ⟨s, tasks⟩ events ⟨t, []⟩)
    (k : router.Delivers ⟨t, rest⟩ more m) :
    router.Delivers ⟨s, tasks ++ rest⟩ (events ++ more) m :=
  (h.behind rest).trans k

/-- A task delivers its event, if it is to deliver one, and what the tasks do that it puts
on the agenda. -/
theorem Delivers.perform (h : router.perform s task = some m)
    (k : router.Delivers m events n) :
    router.Delivers ⟨s, [task]⟩ (Moment.delivered ⟨s, [task]⟩ ++ events) n := by
  refine .head (next?_eq_some.mpr ⟨task, [], m, rfl, h, ?_⟩) k
  rw [List.append_nil]

/-- A listener that does not answer an event has its turn in one step. -/
theorem turn_eq_hear {event : Event}
    (ignored : ∀ listener ∈ s.listeners, listener.Ignores event.type)
    (send : State → Event → State) (index : Nat) :
    turn s event index = ⟨hear send event s index, []⟩ := by
  unfold turn hear
  cases hl : s.listeners[index]? with
  | none => rfl
  | some listener =>
    cases listener with
    | recorder heard => rfl
    | relay on emit dropped =>
      have other : (event.type != on) = true :=
        bne_iff_ne.mpr (ignored _ (List.mem_of_getElem? hl))
      dsimp only
      rw [other, Bool.or_true, if_pos rfl, if_pos rfl]

/-- Listeners that do not answer an event have their turns without delivering
anything. -/
theorem delivers_hears {event : Event}
    (ignored : ∀ listener ∈ s.listeners, listener.Ignores event.type)
    (send : State → Event → State) (indices : List Nat) :
    router.Delivers ⟨s, indices.map (.hear event)⟩ []
      ⟨indices.foldl (hear send event) s, []⟩ := by
  induction indices generalizing s with
  | nil => exact .refl _
  | cons index rest ih =>
    have first : router.perform s (.hear event index) =
        some ⟨hear send event s index, []⟩ :=
      congrArg some (turn_eq_hear ignored send index)
    have still : ∀ listener ∈ (hear send event s index).listeners,
        listener.Ignores event.type := by
      intro listener hl
      cases hindex : s.listeners[index]? with
      | none =>
        unfold hear at hl
        rw [hindex] at hl
        exact ignored listener hl
      | some before =>
        have member := List.mem_of_getElem? hindex
        rw [hear_eq hindex (ignored before member)] at hl
        rcases List.mem_or_eq_of_mem_set hl with old | rfl
        · exact ignored listener old
        · exact Listener.ignores_recording (ignored before member) [event]
    exact (Delivers.perform first (.refl _)).append (ih still)

/-! ## Stretches of a run -/

/-- The tasks are done, deliver the first events, and leave nothing behind but what is
heard and reported. -/
def Stretch (router : Router) (s : State) (tasks : List Task)
    (delivered heard : List Event) (reported : List Diagnostic) : Prop :=
  ∃ t, router.Delivers ⟨s, tasks⟩ delivered ⟨t, []⟩ ∧ s.Trail t heard reported

/-- One stretch after another is a stretch. -/
theorem Stretch.append {heard later : List Event} {reported others : List Diagnostic}
    (h : router.Stretch s tasks events heard reported)
    (k : ∀ t, s.Trail t heard reported → router.Stretch t rest more later others) :
    router.Stretch s (tasks ++ rest) (events ++ more) (heard ++ later)
      (reported ++ others) := by
  obtain ⟨t, delivers, trail⟩ := h
  obtain ⟨u, onward, onwardTrail⟩ := k t trail
  exact ⟨u, delivers.append onward, trail.trans onwardTrail⟩

/-- Letting listeners that do not answer hear an event is a stretch. -/
theorem stretch_hearAll {event : Event}
    (ignored : ∀ listener ∈ s.listeners, listener.Ignores event.type) :
    router.Stretch s [.hearAll event] [] [event] [] := by
  have run := @delivers_hears router s event ignored (fun t _ => t)
    (List.range s.listeners.length)
  have heard := hearAll_eq_of_ignores ignored (fun t _ => t)
  unfold hearAll at heard
  rw [heard] at run
  exact ⟨_, .perform rfl run, rfl, .refl _, rfl, rfl, rfl, rfl, rfl⟩

/-- Describing an event only adds to the journal, and reports nothing. -/
theorem exists_announce_eq (router : Router) (s : State) (event : Event) :
    ∃ journal, router.announce s event = { s with journal := journal } ∧
      s.journal.Gains journal [] := by
  unfold announce
  split
  · exact ⟨_, rfl, Journal.gains_note _ (by decide) _⟩
  · exact ⟨_, rfl, .refl _⟩

/-! ## Tasks that enclose others -/

section Enclosing

variable {event output : Event} {loan : Pool.Loan} {heard : List Event}
  {reported : List Diagnostic}

/-- Delivering a borrowed event and giving it back leaves what delivering it leaves. -/
theorem exists_delivers_lent (borrowed : s.pool.acquire = some loan)
    (bounded : s.pool.available ≤ s.pool.capacity)
    (sent : router.Stretch { s with pool := loan.pool } [.deliver output] events heard
      reported) :
    ∃ t, router.Delivers ⟨{ s with pool := loan.pool }, [.deliver output, .giveBack output]⟩
        events ⟨t, []⟩ ∧ s.Trail t heard reported := by
  obtain ⟨t, delivers, trail⟩ := sent
  have back : router.Delivers ⟨t, [.giveBack output]⟩ []
      ⟨{ t with pool := t.pool.release output }, []⟩ := .perform rfl (.refl _)
  have run := delivers.append back
  rw [List.append_nil] at run
  exact ⟨_, run, .of_lent borrowed bounded trail output⟩

/-- The output of a binding is delivered on an event that is borrowed for it. -/
theorem Stretch.fire {binding : Binding} (borrowed : s.pool.acquire = some loan)
    (bounded : s.pool.available ≤ s.pool.capacity)
    (synthesizes : binding.synthesize event s.store = output)
    (sent : ∀ journal, router.Stretch { s with journal := journal, pool := loan.pool }
      [.deliver output] events heard reported) :
    router.Stretch s [.fire event binding] events heard reported := by
  have quiet := Journal.gains_note s.journal (by decide : Level.trace ≠ .warn)
    (event.type.name ++ " -> " ++ output.type.name)
  have performed : router.perform s (.fire event binding) =
      some ⟨{ s with
          journal := s.journal.note .trace (event.type.name ++ " -> " ++ output.type.name)
          pool := loan.pool },
        [.deliver output, .giveBack output]⟩ := by
    have acquired (level : Level) (text : String) :
        (s.note level text).pool.acquire = some loan := borrowed
    refine congrArg some ?_
    unfold produce
    dsimp only
    rw [lend?_of_overwrites (binding.overwrites_synthesizeInto event s.store), synthesizes,
      acquired]
    rfl
  obtain ⟨t, delivers, trail⟩ := exists_delivers_lent (s := s.note .trace _) borrowed bounded
    (sent _)
  exact ⟨t, .perform performed delivers, .of_journal quiet trail⟩

/-- The echo of an input is delivered on an event that is borrowed for it. -/
theorem Stretch.echo (borrowed : s.pool.acquire = some loan)
    (bounded : s.pool.available ≤ s.pool.capacity)
    (sent : router.Stretch { s with pool := loan.pool } [.deliver event.marked] events heard
      reported) :
    router.Stretch s [.echo event] events heard reported := by
  have performed : router.perform s (.echo event) = some ⟨{ s with pool := loan.pool },
      [.deliver event.marked, .giveBack event.marked]⟩ := by
    refine congrArg some ?_
    unfold reflect
    rw [lend?_of_overwrites event.overwrites_copyFrom_marked, borrowed]
    rfl
  obtain ⟨t, delivers, trail⟩ := exists_delivers_lent borrowed bounded sent
  exact ⟨t, .perform performed delivers, trail⟩

/-- An input that no hook claims is handled by the outputs of the chain that answers it. -/
theorem Stretch.handle {chain : Chain} (input : event.type.role = .input)
    (unclaimed : s.claims event = false)
    (found : router.table.find event s.store = .ok (some chain))
    (answered : ∀ journal, router.Stretch { s with journal := journal } (outputs event chain)
      events heard reported) :
    router.Stretch s [.handle event] events heard reported := by
  obtain ⟨journal, announced, quiet⟩ := router.exists_announce_eq s event
  have performed : router.perform s (.handle event) =
      some ⟨{ s with journal := journal }, outputs event chain⟩ := by
    have plain : event.type.isControl = false := by simp [EventType.isControl, input]
    refine congrArg some ?_
    unfold act consult
    rw [announced]
    simp [plain, unclaimed, found]
  obtain ⟨t, delivers, trail⟩ := answered journal
  exact ⟨t, .perform performed delivers, trail.of_journal quiet⟩

/-- An input that is no echo is routed by handling it one level deeper. -/
theorem Stretch.route (plain : event.echo = false) (input : event.type.role = .input)
    (level : s.depth < router.depthLimit)
    (handled : router.Stretch { s with depth := s.depth + 1 } [.handle event] events heard
      reported) :
    router.Stretch s [.route event] events heard reported := by
  have performed : router.perform s (.route event) =
      some ⟨{ s with depth := s.depth + 1 }, [.handle event, .leave]⟩ := by
    refine congrArg some ?_
    unfold enter
    rw [plain, input, if_neg (by decide), if_neg (by omega)]
  obtain ⟨t, delivers, trail⟩ := handled
  have left : router.Delivers ⟨t, [.leave]⟩ [] ⟨{ t with depth := t.depth - 1 }, []⟩ :=
    .perform rfl (.refl _)
  have run := Delivers.perform performed (delivers.append left)
  rw [List.append_nil] at run
  exact ⟨_, run, trail.of_nested⟩

/-- An event that no listener answers is delivered by routing it, and heard after that. -/
theorem Stretch.deliver
    (ignored : ∀ listener ∈ s.listeners, listener.Ignores event.type)
    (routed : router.Stretch s [.route event] events heard reported) :
    router.Stretch s [.deliver event] (event :: events) (heard ++ [event]) reported := by
  have run := routed.append fun t trail => stretch_hearAll (trail.ignores ignored)
  obtain ⟨t, delivers, trail⟩ := run
  rw [List.append_nil] at delivers trail
  exact ⟨t, .perform rfl delivers, trail⟩

/-- An echo or an action that no listener answers is delivered alone. -/
theorem stretch_passed (passes : event.echo = true ∨ event.type.role = .action)
    (ignored : ∀ listener ∈ s.listeners, listener.Ignores event.type) :
    router.Stretch s [.deliver event] [event] [event] [] := by
  have performed : router.perform s (.route event) = some ⟨s, []⟩ := by
    refine congrArg some ?_
    unfold enter
    rcases passes with echo | action
    · simp [echo]
    · simp [action]
  exact .deliver ignored ⟨s, .perform performed (.refl _), .refl s⟩

/-- The echo that a chain asks for. -/
def echoes (chain : Chain) (event : Event) : List Event :=
  if chain.head.echo then [event.marked] else []

/-- A single binding whose output is an action delivers it, and after it the echo if it asks
for one. -/
theorem stretch_outputs {chain : Chain} (single : chain.tail = [])
    (synthesizes : chain.head.synthesize event s.store = output)
    (action : output.type.role = .action) (ready : s.Ready event.type 1)
    (ignored : ∀ listener ∈ s.listeners, listener.Ignores output.type) :
    router.Stretch s (outputs event chain) (output :: echoes chain event)
      (output :: echoes chain event) [] := by
  have tasks : outputs event chain =
      [.fire event chain.head] ++ if chain.head.echo then [.echo event] else [] := by
    simp [outputs, Chain.toList, single]
  obtain ⟨loan, borrowed, -⟩ := ready.exists_loan
  have fired : router.Stretch s [.fire event chain.head] [output] [output] [] :=
    .fire borrowed ready.bounded synthesizes fun _ => stretch_passed (.inr action) ignored
  rw [tasks]
  refine fired.append fun t trail => ?_
  split
  · have again := ready.of_trail trail
    obtain ⟨next, lent, -⟩ := again.exists_loan
    exact .echo lent again.bounded (stretch_passed (.inl rfl) again.ignored)
  · exact ⟨t, .refl _, .refl t⟩

/-- An input that a single binding answers by an action is heard after the action, and after
its echo if the binding asks for one. -/
theorem stretch_single {chain : Chain} (plain : event.echo = false)
    (input : event.type.role = .input)
    (found : router.table.find event s.store = .ok (some chain)) (single : chain.tail = [])
    (synthesizes : chain.head.synthesize event s.store = output)
    (action : output.type.role = .action) (level : s.depth < router.depthLimit)
    (ready : s.Ready event.type 1)
    (ignored : ∀ listener ∈ s.listeners, listener.Ignores output.type) :
    router.Stretch s [.deliver event] (event :: output :: echoes chain event)
      (output :: echoes chain event ++ [event]) [] := by
  refine .deliver ready.ignored (.route plain input level
    (.handle input (ready.unclaimed event) found fun journal => ?_))
  exact stretch_outputs single synthesizes action
    ⟨ready.ignored, ready.unclaimed, ready.room, ready.bounded⟩ ignored

/-- What a stretch that delivers an event leaves, its broadcast leaves. -/
theorem Stretch.broadcast (h : router.Stretch s [.deliver event] events heard reported) :
    router.Delivers ⟨s, [.deliver event]⟩ events ⟨router.broadcast s event, []⟩ ∧
      s.Trail (router.broadcast s event) heard reported := by
  obtain ⟨t, delivers, trail⟩ := h
  have same : t = router.broadcast s event :=
    Finishes.unique delivers.passes (router.finishes_broadcast s event)
  rw [← same]
  exact ⟨delivers, trail⟩

end Enclosing

end Router

end CueRouter
