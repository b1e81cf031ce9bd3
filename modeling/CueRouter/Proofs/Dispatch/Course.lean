import CueRouter.Proofs.Dispatch.Moment
import CueRouter.Proofs.Dispatch.Run

/-!
# The course of a broadcast

Step by step, the task of delivering an event finishes in the state that the
broadcast of the event yields, and so do all that it nests. A broadcast therefore
passes exactly the moments that lie on the way to its result.
-/

namespace CueRouter.Router

open State

/-- Broadcasts while fewer events than `bound` are idle can be run step by step. -/
def StepwiseBelow (router : Router) (bound : Nat) (send : State → Event → State) :
    Prop :=
  ∀ s event, s.pool.available < bound → router.Finishes ⟨s, [.deliver event]⟩ (send s event)

/-- An event is lent where a broadcast can be circulated. -/
theorem lend?_eq_none_iff {s : State} {send : State → Event → State}
    {fill : Event → Event} : lend? s fill = none ↔ s.circulate send fill = none := by
  unfold lend? circulate
  cases s.pool.acquire <;> simp

section Nested

variable {router : Router} {idle : Nat}
  (stepwise : router.StepwiseBelow idle (router.sender idle)) {s : State}

include stepwise

/-- A broadcast on a borrowed event is run by borrowing, delivering and giving
back. -/
theorem finishes_circulate {fill : Event → Event} {after : State}
    (hidle : s.pool.available ≤ idle)
    (h : s.circulate (router.sender idle) fill = some after) :
    ∃ m, lend? s fill = some m ∧ router.Finishes m after := by
  unfold circulate at h
  cases hloan : s.pool.acquire with
  | none => rw [hloan] at h; cases h
  | some loan =>
    rw [hloan] at h
    cases h
    have taken := (Pool.available_of_acquire hloan).1
    have delivered := stepwise { s with pool := loan.pool } (fill loan.event)
      (by dsimp only; omega)
    refine ⟨_, by unfold lend?; rw [hloan]; rfl, ?_⟩
    exact delivered.cons (.perform rfl (finishes_nil _))

/-- What is borrowed for, or done instead where no event is idle, is run. -/
theorem finishes_lend?_getD {fill : Event → Event} (hidle : s.pool.available ≤ idle)
    (instead : State) :
    router.Finishes ((lend? s fill).getD ⟨instead, []⟩)
      (match s.circulate (router.sender idle) fill with
        | some after => after
        | none => instead) := by
  cases hc : s.circulate (router.sender idle) fill with
  | none =>
    rw [lend?_eq_none_iff.mpr hc]
    exact finishes_nil instead
  | some after =>
    obtain ⟨m, hm, hfinishes⟩ := finishes_circulate stepwise hidle hc
    rw [hm]
    exact hfinishes

/-- The output of a binding is broadcast step by step. -/
theorem finishes_fire (hidle : s.pool.available ≤ idle) (input : Event)
    (binding : Binding) :
    router.Finishes ⟨s, [.fire input binding]⟩
      (fire (router.sender idle) input s binding) :=
  .perform rfl (finishes_lend?_getD stepwise (s := s.note .trace _) hidle _)

/-- The echo of an input is broadcast step by step. -/
theorem finishes_echo (hidle : s.pool.available ≤ idle) (input : Event) :
    router.Finishes ⟨s, [.echo input]⟩ (echo (router.sender idle) s input) :=
  .perform rfl (finishes_lend?_getD stepwise hidle _)

/-- The outputs of bindings are broadcast one after another. -/
theorem finishes_fires (hidle : s.pool.available ≤ idle) (input : Event)
    (bindings : List Binding) :
    router.Finishes ⟨s, bindings.map (.fire input)⟩
      (bindings.foldl (fire (router.sender idle) input) s) := by
  induction bindings generalizing s with
  | nil => exact finishes_nil s
  | cons binding rest ih =>
    have follows := runKept_follows router
    have fired := follows.fire (follows.sender idle) input s binding
    exact (finishes_fire stepwise hidle input binding).cons
      (ih (Nat.le_trans fired.available hidle))

/-- The outputs of a chain are broadcast, and the echo that it asks for. -/
theorem finishes_outputs (hidle : s.pool.available ≤ idle) (input : Event)
    (chain : Chain) :
    router.Finishes ⟨s, outputs input chain⟩
      (if chain.head.echo then
        echo (router.sender idle) (fireAll (router.sender idle) input s chain) input
      else fireAll (router.sender idle) input s chain) := by
  have follows := runKept_follows router
  have fired := follows.foldl (follows.fire (follows.sender idle) input) s chain.toList
  refine (finishes_fires stepwise hidle input chain.toList).append ?_
  split
  · exact finishes_echo stepwise (Nat.le_trans fired.available hidle) input
  · exact finishes_nil _

/-- An input that nothing matched is echoed step by step. -/
theorem finishes_fallback (hidle : s.pool.available ≤ idle) (input : Event) :
    router.Finishes ⟨s, fallback input⟩
      (echoUnmatched (router.sender idle) s input) := by
  unfold fallback echoUnmatched
  split
  · exact finishes_nil s
  · exact finishes_echo stepwise hidle input

/-- An input is answered step by step. -/
theorem finishes_consult (hidle : s.pool.available ≤ idle) (input : Event) :
    router.Finishes (router.consult s input)
      (router.answer (router.sender idle) s input) := by
  unfold consult answer
  cases router.table.find input s.store with
  | error fault => exact finishes_fallback stepwise (s := s.report fault) hidle input
  | ok found =>
    cases found with
    | none => exact finishes_fallback stepwise hidle input
    | some chain => exact finishes_outputs stepwise hidle input chain

omit stepwise in
/-- A control event is carried out step by step. -/
theorem finishes_carry (s : State) (event : Event) :
    router.Finishes (router.carry s event) (router.control s event) := by
  unfold carry
  split
  · next hsplit =>
    have halves : (router.carryOut event).run s =
        (router.splitHigh event >>= router.splitLow event).run s := by
      unfold carryOut
      rw [hsplit, ← splitVariable_eq]
    rw [control_eq_settle, settle, halves, Handling.run_bind]
    cases (router.splitHigh event).run s with
    | error fault after => exact finishes_nil _
    | ok n after => exact .perform rfl (finishes_nil _)
  · exact finishes_nil _

/-- The event of a dispatch is handled step by step. -/
theorem finishes_handle (hidle : s.pool.available ≤ idle) (event : Event) :
    router.Finishes ⟨s, [.handle event]⟩
      (router.handle (router.sender idle) s event) := by
  refine .perform rfl ?_
  have announced := (runKept_follows router).announce s event
  unfold act handle
  dsimp only
  split
  · exact finishes_carry _ event
  · split
    · exact finishes_nil _
    · exact finishes_consult stepwise (Nat.le_trans announced.available hidle) event

/-- An event is dispatched step by step. -/
theorem finishes_dispatch (hidle : s.pool.available ≤ idle) (event : Event) :
    router.Finishes ⟨s, [.route event]⟩
      (router.dispatch (router.sender idle) s event) := by
  refine .perform rfl ?_
  unfold enter dispatch
  split
  · exact finishes_nil s
  · split
    · exact finishes_nil _
    · exact (finishes_handle stepwise (s := { s with depth := s.depth + 1 }) hidle
        event).cons (.perform rfl (finishes_nil _))

/-- A listener has its turn step by step. -/
theorem finishes_hear (hidle : s.pool.available ≤ idle) (event : Event) (index : Nat) :
    router.Finishes ⟨s, [.hear event index]⟩
      (hear (router.sender idle) event s index) := by
  refine .perform rfl ?_
  unfold turn hear
  cases s.listeners[index]? with
  | none => exact finishes_nil s
  | some listener =>
    cases listener with
    | recorder heard => exact finishes_nil _
    | relay on emit dropped =>
      dsimp only
      split
      · exact finishes_nil s
      · exact finishes_lend?_getD stepwise hidle _

/-- Listeners have their turns one after another. -/
theorem finishes_hears (hidle : s.pool.available ≤ idle) (event : Event)
    (indices : List Nat) :
    router.Finishes ⟨s, indices.map (.hear event)⟩
      (indices.foldl (hear (router.sender idle) event) s) := by
  induction indices generalizing s with
  | nil => exact finishes_nil s
  | cons index rest ih =>
    have follows := runKept_follows router
    have heard := follows.hear (follows.sender idle) event s index
    exact (finishes_hear stepwise hidle event index).cons
      (ih (Nat.le_trans heard.available hidle))

/-- An event is delivered step by step. -/
theorem finishes_deliver (hidle : s.pool.available ≤ idle) (event : Event) :
    router.Finishes ⟨s, [.deliver event]⟩
      (router.deliver (router.sender idle) s event) := by
  have follows := runKept_follows router
  have dispatched := follows.dispatch (follows.sender idle) s event
  refine .perform rfl ((finishes_dispatch stepwise hidle event).cons (.perform rfl ?_))
  exact finishes_hears stepwise (Nat.le_trans dispatched.available hidle) event _

end Nested

/-- However many events are idle, a broadcast can be run step by step. -/
theorem stepwiseBelow_sender (router : Router) (idle : Nat) :
    router.StepwiseBelow idle (router.sender idle) := by
  induction idle with
  | zero => exact fun s event hidle => absurd hidle (Nat.not_lt_zero _)
  | succ idle ih =>
    exact fun s event hidle => finishes_deliver ih (Nat.le_of_lt_succ hidle) event

/-- Delivering an event finishes in the state that its broadcast yields. -/
theorem finishes_broadcast (router : Router) (s : State) (event : Event) :
    router.Finishes ⟨s, [.deliver event]⟩ (router.broadcast s event) :=
  finishes_deliver (router.stepwiseBelow_sender s.pool.available) (Nat.le_refl _) event

/-- Delivering events one after another finishes in the state that their broadcasts
yield. -/
theorem finishes_broadcasts (router : Router) (s : State) (events : List Event) :
    router.Finishes ⟨s, events.map .deliver⟩ (events.foldl router.broadcast s) := by
  induction events generalizing s with
  | nil => exact finishes_nil s
  | cons event rest ih =>
    exact (router.finishes_broadcast s event).cons (ih _)

/-- Announcing an interface finishes in the state that it yields, where an event is
idle. -/
theorem finishes_startInterface (router : Router) (s : State) (interfaceId : Int32)
    (hidle : 0 < s.pool.available) :
    router.Finishes ⟨s, [.announce interfaceId]⟩
      (router.startInterface s interfaceId) := by
  suffices run : ∃ m, router.proclaim s interfaceId = some m ∧
      router.Finishes m (router.startInterface s interfaceId) by
    obtain ⟨m, hm, hfinishes⟩ := run
    exact .perform hm hfinishes
  unfold startInterface proclaim
  cases router.catalog.build .startInterface [(interfaceField, .int interfaceId)] with
  | error fault => exact ⟨_, rfl, finishes_nil _⟩
  | ok event =>
    dsimp only
    cases hc : s.circulate (router.sender s.pool.available)
        fun old => old.copyFrom event with
    | none =>
      unfold circulate at hc
      cases hloan : s.pool.acquire with
      | none =>
        have dry := Pool.acquire_eq_none_iff.mp hloan
        omega
      | some loan => rw [hloan] at hc; cases hc
    | some after =>
      exact finishes_circulate (router.stepwiseBelow_sender s.pool.available)
        (Nat.le_refl _) hc

end CueRouter.Router
