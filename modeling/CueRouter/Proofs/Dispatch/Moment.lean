import Mathlib.Logic.Relation
import CueRouter.Dispatch.Route
import CueRouter.Proofs.Dispatch.Handling

/-!
# The moments of a run

Routing nests: an output is broadcast in the middle of the dispatch of its input.
Cut into single steps, a run passes through moments. A moment is a state together
with its agenda, which is what has still to be done from there, the next task first.
Entering and ending a dispatch, borrowing an event and giving it back, each write of
a split and each listener's turn are steps of their own. What every step keeps holds
at every moment of a run.
-/

namespace CueRouter

/-- Something that a run has still to do. -/
inductive Task where
  /-- Hand an event to the dispatcher and then to every listener. -/
  | deliver (event : Event)
  /-- Let the dispatcher route an event. -/
  | route (event : Event)
  /-- Act on the event of the dispatch under way. -/
  | handle (event : Event)
  /-- Write the lower byte of a number that is being split. -/
  | splitLow (event : Event) (n : Int64)
  /-- Broadcast the output of a binding. -/
  | fire (input : Event) (binding : Binding)
  /-- Broadcast the echo of an input. -/
  | echo (input : Event)
  /-- End the dispatch under way. -/
  | leave
  /-- Let every listener hear an event. -/
  | hearAll (event : Event)
  /-- Let one listener hear an event. -/
  | hear (event : Event) (index : Nat)
  /-- Give an event back to the pool. -/
  | giveBack (event : Event)
  /-- Announce an interface. -/
  | announce (interfaceId : Int32)

/-- A point that a run passes. -/
structure Moment where
  /-- The state at that point. -/
  state : State
  /-- What has still to be done, the next task first. -/
  agenda : List Task

namespace Router

/-! ## Performing a task

A task leads to a state and to the tasks that it puts in front of the others. -/

/-- Borrow an idle event and fill it, to be broadcast and given back. -/
def lend? (s : State) (fill : Event → Event) : Option Moment :=
  s.pool.acquire.map fun loan =>
    let event := fill loan.event
    ⟨{ s with pool := loan.pool }, [.deliver event, .giveBack event]⟩

/-- What was in the borrowed event does not matter where it is overwritten. -/
theorem lend?_of_overwrites {fill : Event → Event} {event : Event}
    (overwrites : Event.Overwrites fill event) (s : State) :
    lend? s fill = s.pool.acquire.map fun loan =>
      ⟨{ s with pool := loan.pool }, [.deliver event, .giveBack event]⟩ := by
  unfold lend?
  simp only [overwrites _]

/-- Enter the dispatch of an event, unless there is nothing to do or the limit is
reached. -/
def enter (router : Router) (s : State) (event : Event) : Moment :=
  if event.echo || event.type.role == .action then ⟨s, []⟩
  else if router.depthLimit ≤ s.depth then
    ⟨s.report (.recursionLimit router.depthLimit event.type), []⟩
  else ⟨{ s with depth := s.depth + 1 }, [.handle event, .leave]⟩

/-- Carry out a control event. A split pauses between its two writes. -/
def carry (router : Router) (s : State) (event : Event) : Moment :=
  if event.type = .splitVariableMsbLsb then
    match (router.splitHigh event).run s with
    | .ok n after => ⟨after, [.splitLow event n]⟩
    | .error fault after => ⟨after.report fault, []⟩
  else ⟨router.control s event, []⟩

/-- The outputs of a chain, and the echo if the chain asks for it. -/
def outputs (input : Event) (chain : Chain) : List Task :=
  chain.toList.map (.fire input) ++ if chain.head.echo then [.echo input] else []

/-- The echo of an input that nothing matched, unless it could feed itself. -/
def fallback (input : Event) : List Task :=
  if input.type.isSelfReferential then [] else [.echo input]

/-- Look an input up in the binding table. -/
def consult (router : Router) (s : State) (input : Event) : Moment :=
  match router.table.find input s.store with
  | .error fault => ⟨s.report fault, fallback input⟩
  | .ok none => ⟨s, fallback input⟩
  | .ok (some chain) => ⟨s, outputs input chain⟩

/-- Act on the event of a dispatch. -/
def act (router : Router) (s : State) (event : Event) : Moment :=
  let s := router.announce s event
  if event.type.isControl then router.carry s event
  else if s.claims event then
    ⟨s.note .trace (event.type.name ++ " claimed by modal hook"), []⟩
  else router.consult s event

/-- Let one listener hear an event. -/
def turn (s : State) (event : Event) (index : Nat) : Moment :=
  match s.listeners[index]? with
  | none => ⟨s, []⟩
  | some (.recorder heard) =>
    ⟨{ s with listeners := s.listeners.set index (.recorder (heard.push event)) }, []⟩
  | some (.relay on emit dropped) =>
    if event.echo || event.type != on then ⟨s, []⟩
    else (lend? s fun old => old.copyFrom emit).getD
      ⟨{ s with listeners := s.listeners.set index (.relay on emit (dropped + 1)) }, []⟩

/-- Synthesize the output of a binding and borrow an event for it. -/
def produce (s : State) (input : Event) (binding : Binding) : Moment :=
  let output := binding.synthesize input s.store
  let noted := s.note .trace (input.type.name ++ " -> " ++ output.type.name)
  (lend? noted (binding.synthesizeInto input s.store)).getD
    ⟨s.report (.poolExhausted binding.prototype.type), []⟩

/-- Borrow an event for the echo of an input. -/
def reflect (s : State) (input : Event) : Moment :=
  (lend? s fun old => (old.copyFrom input).marked).getD
    ⟨s.report (.poolExhausted input.type), []⟩

/-- Borrow an event for the announcement of an interface, once one is idle. -/
def proclaim (router : Router) (s : State) (interfaceId : Int32) : Option Moment :=
  match router.catalog.build .startInterface [(interfaceField, .int interfaceId)] with
  | .error fault =>
    some ⟨{ s with journal := s.journal.report (.config fault none) }, []⟩
  | .ok event => lend? s fun old => old.copyFrom event

/-- Perform a task. Only an announcement may have to wait. -/
def perform (router : Router) (s : State) : Task → Option Moment
  | .deliver event => some ⟨s, [.route event, .hearAll event]⟩
  | .route event => some (router.enter s event)
  | .handle event => some (router.act s event)
  | .splitLow event n => some ⟨settle (router.splitLow event n) s, []⟩
  | .fire input binding => some (produce s input binding)
  | .echo input => some (reflect s input)
  | .leave => some ⟨{ s with depth := s.depth - 1 }, []⟩
  | .hearAll event => some ⟨s, (List.range s.listeners.length).map (.hear event)⟩
  | .hear event index => some (turn s event index)
  | .giveBack event => some ⟨{ s with pool := s.pool.release event }, []⟩
  | .announce interfaceId => router.proclaim s interfaceId

/-- A borrowed event is delivered and given back, and nothing else is to be done. -/
theorem mem_agenda_lend?_getD {fill : Event → Event} {event : Event}
    (overwrites : Event.Overwrites fill event) {t u : State} {next : Task}
    (h : next ∈ ((lend? t fill).getD ⟨u, []⟩).agenda) :
    next = .deliver event ∨ next = .giveBack event := by
  rw [lend?_of_overwrites overwrites] at h
  cases hloan : t.pool.acquire with
  | none =>
    rw [hloan] at h
    cases h
  | some loan =>
    rw [hloan] at h
    exact (List.mem_cons.mp h).imp_right List.mem_singleton.mp

/-! ## Steps -/

/-- The next moment of a run: the first task of the agenda is performed. -/
def next? (router : Router) : Moment → Option Moment
  | ⟨_, []⟩ => none
  | ⟨s, task :: rest⟩ =>
    (router.perform s task).map fun m => ⟨m.state, m.agenda ++ rest⟩

/-- A run from the first moment passes the second one. -/
def Passes (router : Router) : Moment → Moment → Prop :=
  Relation.ReflTransGen fun m n => router.next? m = some n

variable {router : Router}

/-- A step is the first task of the agenda, performed before the rest. -/
theorem next?_eq_some {m n : Moment} :
    router.next? m = some n ↔ ∃ task rest after, m.agenda = task :: rest ∧
      router.perform m.state task = some after ∧
      n = ⟨after.state, after.agenda ++ rest⟩ := by
  obtain ⟨s, agenda⟩ := m
  cases agenda with
  | nil => simp [next?]
  | cons task rest =>
    simp only [next?, Option.map_eq_some_iff]
    constructor
    · rintro ⟨after, hafter, rfl⟩
      exact ⟨task, rest, after, rfl, hafter, rfl⟩
    · rintro ⟨other, others, after, hsame, hafter, rfl⟩
      cases hsame
      exact ⟨after, hafter, rfl⟩

/-- Other tasks behind the agenda change nothing until their turn comes. -/
theorem Passes.append {m n : Moment} (h : router.Passes m n) (rest : List Task) :
    router.Passes ⟨m.state, m.agenda ++ rest⟩ ⟨n.state, n.agenda ++ rest⟩ := by
  induction h with
  | refl => exact .refl
  | tail _ hstep ih =>
    obtain ⟨task, others, after, hagenda, hafter, rfl⟩ := next?_eq_some.mp hstep
    refine ih.tail (next?_eq_some.mpr ⟨task, others ++ rest, after, ?_, hafter, ?_⟩)
    · rw [hagenda, List.cons_append]
    · rw [List.append_assoc]

/-- What every step keeps, a run keeps. -/
theorem Passes.keeps {P : Moment → Prop}
    (step : ∀ m n, router.next? m = some n → P m → P n) {m n : Moment}
    (h : router.Passes m n) (start : P m) : P n := by
  induction h with
  | refl => exact start
  | tail _ hstep ih => exact step _ _ hstep ih

/-! ## Finished runs -/

/-- A run from the moment finishes in the state. -/
def Finishes (router : Router) (m : Moment) (t : State) : Prop :=
  router.Passes m ⟨t, []⟩

/-- With nothing to do, a run has finished. -/
theorem finishes_nil (s : State) : router.Finishes ⟨s, []⟩ s := .refl

/-- A task is done when what it puts on the agenda is done. -/
theorem Finishes.perform {s t : State} {task : Task} {m : Moment}
    (h : router.perform s task = some m) (k : router.Finishes m t) :
    router.Finishes ⟨s, [task]⟩ t := by
  refine .head (next?_eq_some.mpr ⟨task, [], m, rfl, h, ?_⟩) k
  rw [List.append_nil]

/-- Tasks in front of others are done before them. -/
theorem Finishes.append {s t u : State} {tasks others : List Task}
    (h : router.Finishes ⟨s, tasks⟩ t) (k : router.Finishes ⟨t, others⟩ u) :
    router.Finishes ⟨s, tasks ++ others⟩ u :=
  (Passes.append h others).trans k

/-- A task is done before those behind it. -/
theorem Finishes.cons {s t u : State} {task : Task} {rest : List Task}
    (h : router.Finishes ⟨s, [task]⟩ t) (k : router.Finishes ⟨t, rest⟩ u) :
    router.Finishes ⟨s, task :: rest⟩ u :=
  h.append k

/-- Every moment that a run passes is on the way to where it finishes. -/
theorem Finishes.of_passes {m n : Moment} {s : State} (k : router.Finishes m s)
    (h : router.Passes m n) : router.Finishes n s := by
  have functional : Relator.RightUnique fun m n => router.next? m = some n := by
    intro a b c hb hc
    exact Option.some.inj (hb.symm.trans hc)
  rcases Relation.ReflTransGen.total_of_right_unique functional h k with onward | back
  · exact onward
  · rcases Relation.ReflTransGen.cases_head back with rfl | ⟨between, hstep, -⟩
    · exact .refl
    · cases hstep

/-- A run finishes in one state only. -/
theorem Finishes.unique {m : Moment} {s t : State} (h : router.Finishes m s)
    (k : router.Finishes m t) : s = t := by
  rcases Relation.ReflTransGen.cases_head (k.of_passes h) with same | ⟨_, hstep, -⟩
  · exact congrArg Moment.state same
  · cases hstep

end Router

end CueRouter
