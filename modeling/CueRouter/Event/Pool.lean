import CueRouter.Event.Basic

/-!
# The event pool

A pool holds a fixed number of events. Whoever broadcasts an event borrows an
idle one, fills it and gives it back. Idle events are lent in the order they
came back, each with the type and fields it had when it was given back but
without its echo mark. A pool has room for at least one event.
-/

namespace CueRouter

/-- A fixed set of events, some of them on loan. -/
structure Pool where
  /-- The number of events that belong to the pool. -/
  capacity : Nat
  /-- The idle events, the next to be lent first. -/
  idle : List Event

namespace Pool

/-- A pool with all its events idle. -/
def ofCapacity (requested : Nat) : Pool :=
  let capacity := max requested 1
  ⟨capacity, List.replicate capacity .blank⟩

/-- The number of idle events. -/
def available (pool : Pool) : Nat := pool.idle.length

/-- An event on loan and the pool without it. -/
structure Loan where
  /-- The event as it was given back last. -/
  event : Event
  /-- The pool with the event on loan. -/
  pool : Pool

/-- Borrow an idle event. -/
def acquire (pool : Pool) : Option Loan :=
  match pool.idle with
  | [] => none
  | event :: rest => some ⟨event, { pool with idle := rest }⟩

/-- Give an event back. An event that the pool has no room for is dropped. -/
def release (pool : Pool) (event : Event) : Pool :=
  if pool.available < pool.capacity then
    { pool with idle := pool.idle ++ [event.unmarked] }
  else pool

theorem available_ofCapacity (requested : Nat) :
    (ofCapacity requested).available = max requested 1 := by
  simp [ofCapacity, available]

/-- Nothing can be borrowed exactly when no event is idle. -/
theorem acquire_eq_none_iff {pool : Pool} :
    pool.acquire = none ↔ pool.available = 0 := by
  unfold acquire available
  split <;> simp_all

/-- A loan takes one idle event away. -/
theorem available_of_acquire {pool : Pool} {loan : Loan}
    (h : pool.acquire = some loan) :
    loan.pool.available + 1 = pool.available ∧
      loan.pool.capacity = pool.capacity := by
  unfold acquire at h
  split at h
  · cases h
  · next event rest same =>
    cases h
    simp [available, same]

/-- Giving back adds one idle event where there is room. -/
theorem available_release {pool : Pool} (event : Event)
    (h : pool.available < pool.capacity) :
    (pool.release event).available = pool.available + 1 := by
  simp only [release, h, if_true]
  simp [available]

end Pool

end CueRouter
