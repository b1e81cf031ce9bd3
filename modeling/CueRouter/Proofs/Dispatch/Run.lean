import CueRouter.Dispatch.Route
import CueRouter.Proofs.Dispatch.Handling

/-!
# What a whole run keeps

Routing an event nests: an output is broadcast while its input is still being
routed, on an event borrowed from the pool. A relation between states that every
single change keeps, and that a loan and a nested dispatch hand on from their
inside to their outside, relates the beginning of every broadcast to its end.
-/

namespace CueRouter.Router

/-- A relation between states that everything in a run keeps. -/
structure RunKept (router : Router) (R : State → State → Prop) : Prop
    extends ControlKept router R where
  /-- It allows reports. -/
  report : ∀ s diagnostic, R s { s with journal := s.journal.report diagnostic }
  /-- It holds around a dispatch if it holds inside, one level deeper. -/
  nested : ∀ s t, R { s with depth := s.depth + 1 } t →
    R s { t with depth := t.depth - 1 }
  /-- It holds around a loan if it holds while the event is borrowed. -/
  lent : ∀ s loan event t, s.pool.acquire = some loan →
    R { s with pool := loan.pool } t → R s { t with pool := t.pool.release event }
  /-- It allows a listener to change. -/
  listener : ∀ s index listener,
    R s { s with listeners := s.listeners.set index listener }

namespace RunKept

variable {router : Router} {R : State → State → Prop} {send : State → Event → State}

/-- Changes one after another are allowed if each of them is. -/
theorem foldl (kept : router.RunKept R) {α : Type} {change : State → α → State}
    (h : ∀ s x, R s (change s x)) (s : State) (xs : List α) :
    R s (xs.foldl change s) := by
  induction xs generalizing s with
  | nil => exact kept.refl s
  | cons x xs ih => exact kept.trans _ _ _ (h s x) (ih (change s x))

/-- A broadcast on a borrowed event is allowed if the broadcast is. -/
theorem circulate (kept : router.RunKept R) (sends : ∀ s event, R s (send s event))
    {s after : State} {fill : Event → Event} (h : s.circulate send fill = some after) :
    R s after := by
  unfold State.circulate at h
  cases hloan : s.pool.acquire with
  | none => rw [hloan] at h; cases h
  | some loan =>
    rw [hloan] at h
    cases h
    exact kept.lent s loan _ _ hloan (sends _ _)

theorem hear (kept : router.RunKept R) (sends : ∀ s event, R s (send s event))
    (event : Event) (s : State) (index : Nat) : R s (State.hear send event s index) := by
  unfold State.hear
  cases s.listeners[index]? with
  | none => exact kept.refl s
  | some listener =>
    cases listener with
    | recorder heard => exact kept.listener s index _
    | relay on emit dropped =>
      dsimp only
      by_cases hskip : (event.echo || event.type != on) = true
      · rw [if_pos hskip]
        exact kept.refl s
      · rw [if_neg hskip]
        cases hc : s.circulate send fun old => old.copyFrom emit with
        | none => exact kept.listener s index _
        | some after => exact kept.circulate sends hc

theorem fire (kept : router.RunKept R) (sends : ∀ s event, R s (send s event))
    (input : Event) (s : State) (binding : Binding) :
    R s (Router.fire send input s binding) := by
  unfold Router.fire
  dsimp only
  split
  · next after hc => exact kept.trans _ _ _ (kept.note s _ _ (by decide)) (kept.circulate sends hc)
  · exact kept.report s _

theorem echo (kept : router.RunKept R) (sends : ∀ s event, R s (send s event))
    (s : State) (input : Event) : R s (Router.echo send s input) := by
  unfold Router.echo
  cases hc : s.circulate send fun old => (old.copyFrom input).marked with
  | none => exact kept.report s _
  | some after => exact kept.circulate sends hc

theorem echoUnmatched (kept : router.RunKept R)
    (sends : ∀ s event, R s (send s event)) (s : State) (input : Event) :
    R s (Router.echoUnmatched send s input) := by
  unfold Router.echoUnmatched
  split
  · exact kept.refl s
  · exact kept.echo sends s input

theorem answer (kept : router.RunKept R) (sends : ∀ s event, R s (send s event))
    (s : State) (input : Event) : R s (router.answer send s input) := by
  unfold Router.answer
  cases router.table.find input s.store with
  | error fault =>
    exact kept.trans _ _ _ (kept.report s _) (kept.echoUnmatched sends _ input)
  | ok found =>
    cases found with
    | none => exact kept.echoUnmatched sends s input
    | some chain =>
      have fired : R s (fireAll send input s chain) :=
        kept.foldl (kept.fire sends input) s chain.toList
      dsimp only
      split
      · exact kept.trans _ _ _ fired (kept.echo sends _ input)
      · exact fired

theorem announce (kept : router.RunKept R) (s : State) (event : Event) :
    R s (router.announce s event) := by
  unfold Router.announce
  split
  · exact kept.note s _ _ (by decide)
  · exact kept.refl s

theorem handle (kept : router.RunKept R) (sends : ∀ s event, R s (send s event))
    (s : State) (event : Event) : R s (router.handle send s event) := by
  refine kept.trans _ _ _ (kept.announce s event) ?_
  unfold Router.handle
  dsimp only
  split
  · exact kept.toControlKept.control event _ fun s fault => kept.report s _
  · split
    · exact kept.note _ _ _ (by decide)
    · exact kept.answer sends _ event

theorem dispatch (kept : router.RunKept R) (sends : ∀ s event, R s (send s event))
    (s : State) (event : Event) : R s (router.dispatch send s event) := by
  unfold Router.dispatch
  split
  · exact kept.refl s
  · split
    · exact kept.report s _
    · exact kept.nested s _ (kept.handle sends _ event)

theorem deliver (kept : router.RunKept R) (sends : ∀ s event, R s (send s event))
    (s : State) (event : Event) : R s (router.deliver send s event) := by
  refine kept.trans _ _ _ (kept.dispatch sends s event) ?_
  exact kept.foldl (kept.hear sends event) _ _

/-- Every broadcast on a borrowed event keeps the relation. -/
theorem sender (kept : router.RunKept R) (idle : Nat) :
    ∀ s event, R s (router.sender idle s event) := by
  induction idle with
  | zero => exact fun s _ => kept.refl s
  | succ idle ih => exact kept.deliver ih

/-- Every broadcast from an input source keeps the relation. -/
theorem broadcast (kept : router.RunKept R) (s : State) (event : Event) :
    R s (router.broadcast s event) :=
  kept.deliver (kept.sender _) s event

end RunKept

/-! ## What every run keeps -/

/-- What can be said of any run: the journal grows, no more events are idle than
before, and the modal hook stays. -/
structure Follows (s t : State) : Prop where
  /-- The journal grows. -/
  journal : s.journal.Extends t.journal
  /-- No idle event is gained. -/
  available : t.pool.available ≤ s.pool.available
  /-- The hook claims what it claimed. -/
  claims : t.claims = s.claims

/-- What stays the same follows, if the journal grows. -/
theorem follows_of_eq {s t : State} (journal : s.journal.Extends t.journal)
    (pool : t.pool = s.pool) (claims : t.claims = s.claims) : Follows s t where
  journal := journal
  available := Nat.le_of_eq (congrArg Pool.available pool)
  claims := claims

/-- Giving back adds at most one idle event. -/
theorem available_release_le (pool : Pool) (event : Event) :
    (pool.release event).available ≤ pool.available + 1 := by
  unfold Pool.release
  split
  · simp [Pool.available]
  · exact Nat.le_succ _

/-- Every run grows the journal, gains no idle event and keeps the hook. -/
theorem runKept_follows (router : Router) : router.RunKept Follows where
  refl s := follows_of_eq (.refl _) rfl rfl
  trans s t u h k :=
    ⟨h.journal.trans k.journal, Nat.le_trans k.available h.available,
      k.claims.trans h.claims⟩
  write s _ _ _ _ := follows_of_eq (.refl _) rfl rfl
  publish s _ := follows_of_eq (.refl _) rfl rfl
  debug s _ := follows_of_eq (.refl _) rfl rfl
  note s _ _ _ := follows_of_eq (Journal.extends_note _ _ _) rfl rfl
  report s _ := follows_of_eq (Journal.extends_report _ _) rfl rfl
  nested s t h := ⟨h.journal, h.available, h.claims⟩
  lent s loan event t hloan h := by
    have taken := (Pool.available_of_acquire hloan).1
    have inside := h.available
    have given := available_release_le t.pool event
    dsimp only at inside
    exact ⟨h.journal, by dsimp only; omega, h.claims⟩
  listener s _ _ := follows_of_eq (.refl _) rfl rfl

end CueRouter.Router
