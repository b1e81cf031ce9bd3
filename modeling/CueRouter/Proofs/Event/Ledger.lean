import CueRouter.Proofs.Event.Lending

/-!
# The ledger of a pool

Whoever uses a pool borrows events, changes them at will and gives them back, in any
order. A ledger keeps the events on loan next to the pool, and writes down every event
that was ever lent, every one that was given back and how often none was there. What each
move does to it is said once, by the queue of idle events alone. From this the two sides
of the ledger balance after any moves: no event is lost or there twice, and the events
that were lent, followed by the idle ones, are the first events of the pool followed by
those given back, without their marks.
-/

namespace CueRouter.Pool

/-! ## The queue of idle events -/

/-- Borrowing takes the first idle event. -/
theorem idle_of_acquire {pool : Pool} {loan : Loan} (h : pool.acquire = some loan) :
    pool.idle = loan.event :: loan.pool.idle := by
  unfold acquire at h
  split at h
  · cases h
  · next event rest same =>
    cases h
    exact same

/-- Where there is room, what is given back is the last idle event. -/
theorem idle_release {pool : Pool} (room : pool.available < pool.capacity) (event : Event) :
    (pool.release event).idle = pool.idle ++ [event.unmarked] := by
  unfold release
  rw [if_pos room]

/-! ## Moves -/

/-- What the users of a pool do. -/
inductive Move where
  /-- Borrow an event if one is idle, and go without one otherwise. -/
  | acquire
  /-- Borrow an event as soon as one is idle. Until then nothing happens. -/
  | await
  /-- Change an event on loan into any other. -/
  | change (index : Nat) (event : Event)
  /-- Give back an event on loan. -/
  | giveBack (index : Nat)

/-- A pool and its users. -/
structure Ledger where
  /-- The pool. -/
  pool : Pool
  /-- The events on loan as they are now, the one borrowed first in front. -/
  held : List Event := []
  /-- Every event that was lent, as it was then, in order. -/
  lent : List Event := []
  /-- Every event that was given back, as it was then, in order. -/
  returned : List Event := []
  /-- How often a user went without an event. -/
  refused : Nat := 0

namespace Ledger

/-- The ledger of a new pool. -/
def ofCapacity (requested : Nat) : Ledger := { pool := .ofCapacity requested }

/-- The ledger after an event was lent. -/
def lend (ledger : Ledger) (loan : Loan) : Ledger :=
  { ledger with
    pool := loan.pool
    held := ledger.held ++ [loan.event]
    lent := ledger.lent ++ [loan.event] }

/-- The ledger after an event on loan was given back. -/
def giveBack (ledger : Ledger) (index : Nat) : Ledger :=
  match ledger.held[index]? with
  | some event =>
    { ledger with
      pool := ledger.pool.release event
      held := ledger.held.eraseIdx index
      returned := ledger.returned ++ [event] }
  | none => ledger

/-- The ledger after a move. -/
def after (ledger : Ledger) : Move → Ledger
  | .acquire =>
    match ledger.pool.acquire with
    | some loan => ledger.lend loan
    | none => { ledger with refused := ledger.refused + 1 }
  | .await =>
    match ledger.pool.acquire with
    | some loan => ledger.lend loan
    | none => ledger
  | .change index event => { ledger with held := ledger.held.set index event }
  | .giveBack index => ledger.giveBack index

/-- The ledger after moves one after another. -/
def afterAll (ledger : Ledger) (moves : List Move) : Ledger := moves.foldl after ledger

/-! ## What each move does -/

/-- The first idle event goes from one ledger to its users in the other. -/
structure Lends (ledger next : Ledger) : Prop where
  /-- The event in front of the queue is lent last and held last. -/
  queue : ∃ event, ledger.pool.idle = event :: next.pool.idle ∧
    next.held = ledger.held ++ [event] ∧ next.lent = ledger.lent ++ [event]
  /-- The pool keeps its size. -/
  capacity : next.pool.capacity = ledger.pool.capacity
  /-- Nothing is given back. -/
  returned : next.returned = ledger.returned
  /-- Nobody goes without. -/
  refused : next.refused = ledger.refused

/-- An event on loan in one ledger goes back to the pool in the other. -/
structure Returns (ledger next : Ledger) (index : Nat) (event : Event) : Prop where
  /-- The event was on loan and is not any more. -/
  held : ledger.held[index]? = some event ∧ next.held = ledger.held.eraseIdx index
  /-- It stands behind the others in the queue, without its mark. -/
  queue : next.pool.idle = ledger.pool.idle ++ [event.unmarked]
  /-- The pool keeps its size. -/
  capacity : next.pool.capacity = ledger.pool.capacity
  /-- It is the last that was given back. -/
  returned : next.returned = ledger.returned ++ [event]
  /-- Nothing is lent, and nobody goes without. -/
  others : next.lent = ledger.lent ∧ next.refused = ledger.refused

/-- What a move does. -/
inductive Moves (ledger : Ledger) : Move → Ledger → Prop where
  /-- The first idle event is lent. -/
  | acquired {next : Ledger} (h : ledger.Lends next) : Moves ledger .acquire next
  /-- Nothing is idle, so the user goes without. -/
  | refused (h : ledger.pool.idle = []) :
      Moves ledger .acquire { ledger with refused := ledger.refused + 1 }
  /-- The first idle event is lent to the user who waited for it. -/
  | awaited {next : Ledger} (h : ledger.Lends next) : Moves ledger .await next
  /-- Nothing is idle, so the user waits on. -/
  | waiting (h : ledger.pool.idle = []) : Moves ledger .await ledger
  /-- An event on loan is changed, and nothing else. -/
  | changed (index : Nat) (event : Event) :
      Moves ledger (.change index event) { ledger with held := ledger.held.set index event }
  /-- An event on loan is given back. -/
  | returned {next : Ledger} {index : Nat} {event : Event}
      (h : ledger.Returns next index event) : Moves ledger (.giveBack index) next
  /-- What is not on loan cannot be given back. -/
  | unheld {index : Nat} (h : ledger.held[index]? = none) :
      Moves ledger (.giveBack index) ledger

variable {first : Pool} {ledger next : Ledger} {move : Move}

/-- Lending takes the first idle event. -/
theorem lends_lend {loan : Loan} (h : ledger.pool.acquire = some loan) :
    ledger.Lends (ledger.lend loan) where
  queue := ⟨loan.event, idle_of_acquire h, rfl, rfl⟩
  capacity := (available_of_acquire h).2
  returned := rfl
  refused := rfl

/-- Nothing is idle where nothing can be borrowed. -/
theorem idle_eq_nil (h : ledger.pool.acquire = none) : ledger.pool.idle = [] :=
  List.length_eq_zero_iff.mp (acquire_eq_none_iff.mp h)

/-! ## Balance -/

/-- The sides of a ledger balance. -/
structure Balanced (first : Pool) (ledger : Ledger) : Prop where
  /-- The pool has as many events as at first. -/
  capacity : ledger.pool.capacity = first.capacity
  /-- Every event of the pool is idle or on loan. -/
  conserved : ledger.pool.available + ledger.held.length = ledger.pool.capacity
  /-- What was lent and what is idle are the first events and those given back. -/
  queue : ledger.lent ++ ledger.pool.idle =
    first.idle ++ ledger.returned.map Event.unmarked

/-- The ledger of a new pool balances. -/
theorem balanced_ofCapacity (requested : Nat) :
    (ofCapacity requested).Balanced (.ofCapacity requested) where
  capacity := rfl
  conserved := available_ofCapacity requested
  queue := (List.append_nil _).symm

/-- Where an event is on loan, the pool has room for it. -/
theorem Balanced.room (balanced : ledger.Balanced first) {index : Nat} {event : Event}
    (h : ledger.held[index]? = some event) :
    ledger.pool.available < ledger.pool.capacity := by
  have inside := (List.getElem?_eq_some_iff.mp h).1
  have conserved := balanced.conserved
  omega

/-- On a ledger that balances, a move does what it is said to do. -/
theorem Balanced.moves_after (balanced : ledger.Balanced first) (move : Move) :
    ledger.Moves move (ledger.after move) := by
  cases move with
  | acquire =>
    unfold Ledger.after
    cases hloan : ledger.pool.acquire with
    | none => exact .refused (idle_eq_nil hloan)
    | some loan => exact .acquired (lends_lend hloan)
  | await =>
    unfold Ledger.after
    cases hloan : ledger.pool.acquire with
    | none => exact .waiting (idle_eq_nil hloan)
    | some loan => exact .awaited (lends_lend hloan)
  | change index event => exact .changed index event
  | giveBack index =>
    change ledger.Moves (.giveBack index) (ledger.giveBack index)
    unfold Ledger.giveBack
    cases hheld : ledger.held[index]? with
    | none => exact .unheld hheld
    | some event =>
      exact .returned ⟨⟨hheld, rfl⟩, idle_release (balanced.room hheld) event,
        capacity_release _ _, rfl, rfl, rfl⟩

/-- Lending keeps the balance. -/
theorem Balanced.lends (balanced : ledger.Balanced first) (h : ledger.Lends next) :
    next.Balanced first := by
  obtain ⟨event, idle, held, lent⟩ := h.queue
  have conserved := balanced.conserved
  have queue := balanced.queue
  unfold Pool.available at conserved
  rw [idle] at conserved queue
  rw [List.length_cons] at conserved
  refine ⟨h.capacity.trans balanced.capacity, ?_, ?_⟩
  · unfold Pool.available
    rw [held, h.capacity, List.length_append, List.length_singleton]
    omega
  · rw [lent, h.returned, List.append_assoc]
    exact queue

/-- Giving back keeps the balance. -/
theorem Balanced.returns (balanced : ledger.Balanced first) {index : Nat} {event : Event}
    (h : ledger.Returns next index event) : next.Balanced first := by
  have inside := (List.getElem?_eq_some_iff.mp h.held.1).1
  have conserved := balanced.conserved
  unfold Pool.available at conserved
  refine ⟨h.capacity.trans balanced.capacity, ?_, ?_⟩
  · unfold Pool.available
    rw [h.queue, h.held.2, h.capacity, List.length_append, List.length_singleton,
      List.length_eraseIdx_of_lt inside]
    omega
  · rw [h.others.1, h.queue, h.returned, List.map_append, ← List.append_assoc,
      balanced.queue, List.append_assoc]
    rfl

/-- Every move keeps the balance. -/
theorem Balanced.moves (balanced : ledger.Balanced first) (h : ledger.Moves move next) :
    next.Balanced first := by
  cases h with
  | acquired h => exact balanced.lends h
  | refused h => exact ⟨balanced.capacity, balanced.conserved, balanced.queue⟩
  | awaited h => exact balanced.lends h
  | waiting h => exact balanced
  | changed index event =>
    refine ⟨balanced.capacity, ?_, balanced.queue⟩
    rw [List.length_set]
    exact balanced.conserved
  | returned h => exact balanced.returns h
  | unheld h => exact balanced

/-- Any moves keep the balance. -/
theorem Balanced.afterAll (balanced : ledger.Balanced first) (moves : List Move) :
    (ledger.afterAll moves).Balanced first := by
  induction moves generalizing ledger with
  | nil => exact balanced
  | cons move moves ih => exact ih (balanced.moves (balanced.moves_after move))

/-- A pool never loses an event and never has one twice. After any moves on a new pool all
its events are idle or on loan, nothing can be borrowed exactly when all are on loan, and
each on loan finds room behind the idle ones. Events are lent in the order in which they
came back, as they were then but for the mark, and the next move does what it is said to. -/
theorem conserved_afterAll (requested : Nat) (moves : List Move) :
    let ledger := (ofCapacity requested).afterAll moves
    ledger.pool.available + ledger.held.length = max 1 requested ∧
    (ledger.pool.acquire = none ↔ ledger.held.length = max 1 requested) ∧
    (∀ (index : Nat) event, ledger.held[index]? = some event →
      ledger.pool.available < ledger.pool.capacity ∧
      (ledger.pool.release event).idle = ledger.pool.idle ++ [event.unmarked]) ∧
    (∀ loan, ledger.pool.acquire = some loan →
      ledger.pool.idle = loan.event :: loan.pool.idle ∧ loan.event.echo = false) ∧
    ledger.lent ++ ledger.pool.idle =
      List.replicate (max 1 requested) .blank ++ ledger.returned.map Event.unmarked ∧
    ∀ move, ledger.Moves move (ledger.after move) := by
  intro ledger
  have balanced : ledger.Balanced (.ofCapacity requested) :=
    (balanced_ofCapacity requested).afterAll moves
  have size : max requested 1 = max 1 requested := Nat.max_comm requested 1
  have conserved : ledger.pool.available + ledger.held.length = max 1 requested := by
    rw [balanced.conserved, balanced.capacity, ← size]
    rfl
  have queue : ledger.lent ++ ledger.pool.idle =
      List.replicate (max 1 requested) .blank ++ ledger.returned.map Event.unmarked := by
    rw [balanced.queue, ← size]
    rfl
  refine ⟨conserved, ?_, fun index event hheld => ?_, fun loan hloan => ?_, queue,
    balanced.moves_after⟩
  · rw [acquire_eq_none_iff]
    omega
  · have room := balanced.room hheld
    exact ⟨room, idle_release room event⟩
  · have idle := idle_of_acquire hloan
    refine ⟨idle, ?_⟩
    have member : loan.event ∈ ledger.lent ++ ledger.pool.idle := by
      rw [idle]
      exact List.mem_append_right _ List.mem_cons_self
    rw [queue] at member
    rcases List.mem_append.mp member with fresh | given
    · rw [List.eq_of_mem_replicate fresh]
      rfl
    · obtain ⟨event, -, same⟩ := List.mem_map.mp given
      rw [← same]
      rfl

/-- A run of moves that gives an event back marked and lends it again. -/
def recycling : List Move :=
  [.acquire, .change 0 ⟨.goSub, [.int 1], true⟩, .giveBack 0, .await, .acquire, .acquire,
    .await]

/-- Of two events, the one that was given back is lent again once the other is on loan too,
and then nothing is left for the last two users, of whom one waits. -/
theorem conserved_afterAll_recycling :
    let ledger := (ofCapacity 2).afterAll recycling
    ledger.held = [.blank, ⟨.goSub, [.int 1], false⟩] ∧ ledger.pool.acquire = none ∧
      ledger.lent = [.blank, .blank, ⟨.goSub, [.int 1], false⟩] ∧
      ledger.returned = [⟨.goSub, [.int 1], true⟩] ∧ ledger.refused = 1 := by
  intro ledger
  obtain ⟨-, dry, -⟩ := conserved_afterAll 2 recycling
  exact ⟨by decide, dry.mpr (by decide), by decide, by decide, by decide⟩

end Ledger

end CueRouter.Pool
