import CueRouter.Event.Pool

/-!
# Events on loan

A pool starts with all its events idle and changes by lending and taking back only.
No such pool has more idle events than it was made with, and no idle event is marked
as an echo.
-/

namespace CueRouter.Pool

/-- The pools there are: fresh ones, and those after an event was lent or given
back. -/
inductive Built : Pool → Prop where
  /-- A pool with all its events idle. -/
  | fresh (requested : Nat) : Built (ofCapacity requested)
  /-- A pool after an event was borrowed. -/
  | borrowed {pool : Pool} {loan : Loan} (built : Built pool)
      (h : pool.acquire = some loan) : Built loan.pool
  /-- A pool after an event was given back. -/
  | returned {pool : Pool} (built : Built pool) (event : Event) :
      Built (pool.release event)

/-- The number of events on loan. -/
def lent (pool : Pool) : Nat := pool.capacity - pool.available

/-- What is idle after a loan was idle before. -/
theorem mem_idle_of_acquire {pool : Pool} {loan : Loan} (h : pool.acquire = some loan)
    {event : Event} (hevent : event ∈ loan.pool.idle) : event ∈ pool.idle := by
  unfold acquire at h
  split at h
  · cases h
  · next first rest same =>
    cases h
    rw [same]
    exact List.mem_cons_of_mem _ hevent

/-- What is idle after an event was given back was idle before, or is that event
without its mark. -/
theorem mem_idle_release {pool : Pool} {returned event : Event}
    (h : event ∈ (pool.release returned).idle) :
    event ∈ pool.idle ∨ event = returned.unmarked := by
  unfold release at h
  split at h
  · exact (List.mem_append.mp h).imp_right List.mem_singleton.mp
  · exact .inl h

/-- Giving back keeps the number of events that belong to the pool. -/
theorem capacity_release (pool : Pool) (event : Event) :
    (pool.release event).capacity = pool.capacity := by
  unfold release
  split <;> rfl

/-- No more events are idle than belong to the pool. -/
theorem Built.available_le {pool : Pool} (built : pool.Built) :
    pool.available ≤ pool.capacity := by
  induction built with
  | fresh requested =>
    rw [available_ofCapacity]
    exact Nat.le_refl _
  | borrowed _ h ih =>
    have taken := available_of_acquire h
    omega
  | @returned pool _ event ih =>
    rw [capacity_release]
    by_cases room : pool.available < pool.capacity
    · rw [available_release event room]
      exact room
    · unfold release
      rw [if_neg room]
      exact ih

/-- No idle event is marked as an echo. -/
theorem Built.unmarked {pool : Pool} (built : pool.Built) :
    ∀ event ∈ pool.idle, event.echo = false := by
  induction built with
  | fresh requested =>
    intro event h
    rw [List.eq_of_mem_replicate h]
    rfl
  | borrowed _ h ih => exact fun event hevent => ih event (mem_idle_of_acquire h hevent)
  | returned _ returned ih =>
    intro event h
    rcases mem_idle_release h with before | rfl
    · exact ih event before
    · rfl

end CueRouter.Pool
