import CueRouter.Proofs.Dispatch.Change
import CueRouter.Proofs.Variable.Whole

/-!
# Dispatching a control event

Below the limit, a control event that is no echo is described while the debug switch is
on and then carried out. Where its steps succeed, nothing is reported, and the variables
that they do not write are what they were.
-/

namespace CueRouter

namespace Journal

/-- The second journal is the first with more said and nothing reported. -/
structure Silent (before after : Journal) : Prop where
  /-- The journal grows. -/
  grows : before.Extends after
  /-- Nothing is reported. -/
  silent : ∀ diagnostic, ¬before.Reports after diagnostic

theorem Silent.refl (journal : Journal) : journal.Silent journal :=
  ⟨.refl journal, not_reports_self journal⟩

theorem Silent.trans {first second third : Journal} (h : first.Silent second)
    (k : second.Silent third) : first.Silent third where
  grows := h.grows.trans k.grows
  silent diagnostic reported :=
    (reported.split h.grows k.grows).elim (h.silent diagnostic) (k.silent diagnostic)

/-- A message that is no warning reports nothing. -/
theorem silent_note (journal : Journal) {level : Level} (h : level ≠ .warn)
    (text : String) : journal.Silent (journal.note level text) :=
  ⟨extends_note journal level text, not_reports_note journal h text⟩

end Journal

namespace State

/-- Between two states nothing is reported, and no variable changes that is spared. -/
structure Spares (spared : Handle → Prop) (s t : State) : Prop where
  /-- The variables that are spared are what they were. -/
  others : ∀ other, spared other → t.store.get? other = s.store.get? other
  /-- The shared cells are what they were. -/
  shared : t.store.shared = s.store.shared
  /-- As many dispatches are under way. -/
  depth : t.depth = s.depth
  /-- Nothing is reported. -/
  journal : s.journal.Silent t.journal

/-- Between two states nothing changes but one variable, and nothing is reported. -/
abbrev Touches (handle : Handle) (s t : State) : Prop := s.Spares (· ≠ handle) t

variable {spared : Handle → Prop} {handle : Handle} {s t u : State}

theorem Touches.refl (handle : Handle) (s : State) : s.Touches handle s :=
  ⟨fun _ _ => rfl, rfl, rfl, .refl _⟩

theorem Spares.trans (h : s.Spares spared t) (k : t.Spares spared u) :
    s.Spares spared u where
  others other apart := (k.others other apart).trans (h.others other apart)
  shared := k.shared.trans h.shared
  depth := k.depth.trans h.depth
  journal := h.journal.trans k.journal

/-- The variables that are spared have the values that they had. -/
theorem Spares.value (h : s.Spares spared t) {other : Handle} (apart : spared other) :
    t.store.value other = s.store.value other := by
  have reads : ∀ v, t.store.valueOf v = s.store.valueOf v := by
    intro v
    unfold Store.valueOf Store.sharedValue Store.cell?
    rw [h.shared]
  unfold Store.value
  rw [h.others other apart, show t.store.valueOf = s.store.valueOf from funext reads]

/-- Between two states nothing is reported, and the variables that are spared are what
they were and have the values that they had. -/
structure Undisturbed (spared : Handle → Prop) (s t : State) : Prop where
  /-- Nothing is reported. -/
  silent : ∀ diagnostic, ¬s.journal.Reports t.journal diagnostic
  /-- The variables that are spared are what they were and have the values they had. -/
  others : ∀ other, spared other →
    t.store.get? other = s.store.get? other ∧ t.store.value other = s.store.value other

theorem Spares.undisturbed (h : s.Spares spared t) : s.Undisturbed spared t :=
  ⟨h.journal.silent, fun other apart => ⟨h.others other apart, h.value apart⟩⟩

/-- Recorders that have a turn change nothing but what they heard, and stay recorders. -/
theorem foldl_hear_of_onlyRecords (recorders : s.OnlyRecords)
    (send : State → Event → State) (event : Event) (indices : List Nat) :
    ∃ listeners, indices.foldl (hear send event) s = { s with listeners := listeners } ∧
      OnlyRecords { s with listeners := listeners } := by
  induction indices generalizing s with
  | nil => exact ⟨s.listeners, rfl, recorders⟩
  | cons index rest ih =>
    rw [List.foldl_cons]
    cases hlistener : s.listeners[index]? with
    | none =>
      have same : hear send event s index = s := by
        unfold hear
        rw [hlistener]
      rw [same]
      exact ih recorders
    | some listener =>
      obtain ⟨before, rfl⟩ := recorders _ (List.mem_of_getElem? hlistener)
      have heard : hear send event s index =
          { s with listeners := s.listeners.set index (.recorder (before.push event)) } := by
        unfold hear
        rw [hlistener]
      have still := (s.quiet_recorder index (before.push event)).recorders recorders
      obtain ⟨listeners, same, last⟩ := ih still
      rw [heard, same]
      exact ⟨listeners, rfl, last⟩

end State

namespace Router

open State Handling

variable {router : Router} {s : State} {event : Event}

/-- Describing an event changes the journal only, and reports nothing. -/
theorem announce_eq_silent (router : Router) (s : State) (event : Event) :
    ∃ journal, router.announce s event = { s with journal := journal } ∧
      s.journal.Silent journal := by
  unfold announce
  split
  · exact ⟨_, rfl, Journal.silent_note _ (by decide) _⟩
  · exact ⟨_, rfl, .refl _⟩

/-- A control event is carried out, one dispatch deeper, whoever would broadcast. -/
theorem dispatch_of_isControl (control : event.type.isControl = true)
    (plain : event.echo = false) (below : s.depth < router.depthLimit)
    (send : State → Event → State) :
    router.dispatch send s event =
      let after := router.control (router.announce { s with depth := s.depth + 1 } event) event
      { after with depth := after.depth - 1 } := by
  have acts : (event.type.role == .action) = false := by
    revert control
    cases event.type <;> decide
  unfold dispatch handle
  rw [plain, acts, if_neg (by decide), if_neg (Nat.not_le.mpr below)]
  dsimp only
  rw [if_pos control]

/-- Dispatching an event that is an echo or too deep changes no variable. -/
theorem store_dispatch_of_not
    (h : ¬(event.echo = false ∧ s.depth < router.depthLimit))
    (send : State → Event → State) : (router.dispatch send s event).store = s.store := by
  unfold dispatch
  split
  · rfl
  · next acts =>
    rw [Bool.or_eq_true, not_or, Bool.not_eq_true] at acts
    split
    · rfl
    · next below => exact absurd ⟨acts.1, Nat.lt_of_not_le below⟩ h

/-- Where the steps of a control event spare variables, dispatching the event spares them
too. -/
theorem touches_dispatch {spared : Handle → Prop} {store : Store}
    (control : event.type.isControl = true) (plain : event.echo = false)
    (below : s.depth < router.depthLimit)
    (steps : ∀ t : State, t.store = s.store →
      (router.carryOut event).run t = .ok () { t with store := store })
    (others : ∀ other, spared other → store.get? other = s.store.get? other)
    (shared : store.shared = s.store.shared) (send : State → Event → State) :
    (router.dispatch send s event).store = store ∧
      s.Spares spared (router.dispatch send s event) ∧
      (router.dispatch send s event).listeners = s.listeners := by
  obtain ⟨journal, announced, silent⟩ :=
    router.announce_eq_silent { s with depth := s.depth + 1 } event
  rw [dispatch_of_isControl control plain below, announced]
  unfold Router.control
  rw [steps { s with depth := s.depth + 1, journal := journal } rfl]
  exact ⟨rfl, ⟨others, shared, rfl, silent⟩, rfl⟩

/-- What dispatching an event spares, delivering it to recorders spares. -/
theorem touches_deliver {spared : Handle → Prop} {send : State → Event → State}
    (recorders : s.OnlyRecords) (touches : s.Spares spared (router.dispatch send s event))
    (listeners : (router.dispatch send s event).listeners = s.listeners) :
    (router.deliver send s event).store = (router.dispatch send s event).store ∧
      s.Spares spared (router.deliver send s event) ∧
      (router.deliver send s event).OnlyRecords := by
  have before : (router.dispatch send s event).OnlyRecords := by
    unfold OnlyRecords
    rw [listeners]
    exact recorders
  obtain ⟨heard, same, after⟩ := foldl_hear_of_onlyRecords before send event
    (List.range (router.dispatch send s event).listeners.length)
  unfold deliver hearAll
  rw [same]
  exact ⟨rfl, ⟨touches.others, touches.shared, touches.depth, touches.journal⟩, after⟩

end Router

end CueRouter
