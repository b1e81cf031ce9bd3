import CueRouter.Dispatch.Control
import CueRouter.Proofs.Journal.Growth

/-!
# The steps of control events

A control event is carried out by reads, at most two writes of variables, and
messages. Each kind of step has one equation for what it does to a state; from
these follow what a whole control event may change, which faults it may end in,
and that it does the same to states that only differ in what it never reads.
-/

namespace CueRouter

/-- Whether the fault drops something for lack of room. -/
def DispatchFault.isOverrun : DispatchFault → Bool
  | poolExhausted _ | recursionLimit _ _ => true
  | indexNotScalar _ | systemVariable _ | missingReference _ _ | invalidValue _ => false

namespace Handling

variable {α β : Type}

/-- The state in which steps end, whether in a fault or not. -/
def final (steps : Handling α) (s : State) : State :=
  match steps.run s with
  | .ok _ after => after
  | .error _ after => after

/-- Every end of the steps is related to their beginning. -/
def Keeps (R : State → State → Prop) (steps : Handling α) : Prop :=
  ∀ s, R s (steps.final s)

/-- The steps leave the state alone, whether they fail or not. -/
def ReadOnly (steps : Handling α) : Prop := ∀ s, steps.final s = s

/-- Steps one after another run the later ones from where the earlier ones end,
unless those fail. -/
theorem run_bind (steps : Handling α) (next : α → Handling β) (s : State) :
    (steps >>= next).run s = match steps.run s with
      | .ok value after => (next value).run after
      | .error fault after => .error fault after := by
  change EStateM.bind steps next s = _
  unfold EStateM.bind EStateM.run
  cases steps s <;> rfl

/-- Steps without effect keep every reflexive relation. -/
theorem ReadOnly.keeps {R : State → State → Prop} (refl : ∀ s, R s s)
    {steps : Handling α} (h : steps.ReadOnly) : steps.Keeps R := by
  intro s
  rw [h s]
  exact refl s

/-- Steps one after another keep a transitive relation that each of them keeps. -/
theorem Keeps.bind {R : State → State → Prop}
    (trans : ∀ s t u, R s t → R t u → R s u) {steps : Handling α}
    {next : α → Handling β} (h : steps.Keeps R) (k : ∀ value, (next value).Keeps R) :
    (steps >>= next).Keeps R := by
  intro s
  have first := h s
  unfold final at first ⊢
  rw [run_bind]
  cases hs : steps.run s with
  | error fault after =>
    rw [hs] at first
    exact first
  | ok value after =>
    rw [hs] at first
    exact trans _ _ _ first (k value after)

/-- Reading the state leaves it alone. -/
theorem readOnly_get : ReadOnly (get : Handling State) := fun _ => rfl

/-- Every fault that the steps end in has the property. -/
def FailsWith (F : DispatchFault → Prop) (steps : Handling α) : Prop :=
  ∀ s fault after, steps.run s = .error fault after → F fault

/-- Steps one after another fail where one of them does. -/
theorem bind_eq_error {steps : Handling α} {next : α → Handling β} {s after : State}
    {fault : DispatchFault} (h : (steps >>= next).run s = .error fault after) :
    steps.run s = .error fault after ∨
      ∃ value between, steps.run s = .ok value between ∧
        (next value).run between = .error fault after := by
  rw [run_bind] at h
  cases hs : steps.run s with
  | error reason other =>
    rw [hs] at h
    cases h
    exact .inl rfl
  | ok value between =>
    rw [hs] at h
    exact .inr ⟨value, between, rfl, h⟩

/-- Steps one after another fail with the faults of each of them. -/
theorem FailsWith.bind {F : DispatchFault → Prop} {steps : Handling α}
    {next : α → Handling β} (h : steps.FailsWith F)
    (k : ∀ value, (next value).FailsWith F) : (steps >>= next).FailsWith F := by
  intro s fault after failed
  rcases bind_eq_error failed with early | ⟨value, between, -, late⟩
  · exact h s fault after early
  · exact k value between fault after late

/-- The two ends of steps agree: both with the same result or the same fault, and in
related states. -/
def Agree (R : State → State → Prop) :
    (one other : EStateM.Result DispatchFault State α) → Prop
  | .ok value s, .ok result t => value = result ∧ R s t
  | .error fault s, .error reason t => fault = reason ∧ R s t
  | _, _ => False

/-- From related states, the steps yield the same and end in related states. -/
def Parallel (R : State → State → Prop) (steps : Handling α) : Prop :=
  ∀ s t, R s t → Agree R (steps.run s) (steps.run t)

/-- Steps one after another are parallel if each of them is. -/
theorem Parallel.bind {R : State → State → Prop} {steps : Handling α}
    {next : α → Handling β} (h : steps.Parallel R)
    (k : ∀ value, (next value).Parallel R) : (steps >>= next).Parallel R := by
  intro s t hst
  have first := h s t hst
  rw [run_bind, run_bind]
  cases hs : steps.run s with
  | ok value after =>
    cases ht : steps.run t with
    | ok result other =>
      rw [hs, ht] at first
      obtain ⟨rfl, related⟩ := first
      exact k value after other related
    | error fault other =>
      rw [hs, ht] at first
      exact first.elim
  | error fault after =>
    cases ht : steps.run t with
    | ok result other =>
      rw [hs, ht] at first
      exact first.elim
    | error reason other =>
      rw [hs, ht] at first
      exact first

/-- Parallel steps end in related states. -/
theorem Parallel.final {R : State → State → Prop} {steps : Handling α}
    (h : steps.Parallel R) {s t : State} (hst : R s t) :
    R (steps.final s) (steps.final t) := by
  have agree := h s t hst
  unfold Handling.final
  cases hs : steps.run s <;> cases ht : steps.run t <;> rw [hs, ht] at agree
  · exact agree.2
  · exact agree.elim
  · exact agree.elim
  · exact agree.2

end Handling

namespace Router

open Handling

variable (router : Router) (event : Event) (handle : Handle) (field : String)
  (value : Value) (s : State)

/-! ## What each step does -/

theorem run_referenceIn : (router.referenceIn event field).run s =
    match (router.catalog.read event field).toHandle? with
    | some handle => .ok handle s
    | none => .error (.missingReference event.type field) s := by
  unfold referenceIn
  cases (router.catalog.read event field).toHandle? <;> rfl

theorem run_numberAt : (numberAt handle field).run s =
    match (s.store.value handle).toWhole? with
    | some n => .ok n s
    | none => .error (.invalidValue field) s := by
  unfold numberAt
  rw [run_bind]
  dsimp only [EStateM.run, get, getThe, MonadStateOf.get, EStateM.get]
  cases (s.store.value handle).toWhole? <;> rfl

theorem run_realAt : (realAt handle field).run s =
    match (s.store.value handle).toReal? with
    | some x => .ok x s
    | none => .error (.invalidValue field) s := by
  unfold realAt
  rw [run_bind]
  dsimp only [EStateM.run, get, getThe, MonadStateOf.get, EStateM.get]
  cases (s.store.value handle).toReal? <;> rfl

theorem run_scaleOf : (router.scaleOf event).run s =
    match ((router.catalog.read event "scale").toReal?).filter fun x => !x.isZero with
    | some scale => .ok scale s
    | none => .error (.invalidValue "scale") s := by
  unfold scaleOf
  cases ((router.catalog.read event "scale").toReal?).filter fun x => !x.isZero <;> rfl

theorem run_writeAt : (writeAt handle value).run s =
    match s.store.set handle value with
    | .ok written => .ok () { s with store := written.store }
    | .error fault => .error fault s := by
  unfold writeAt
  rw [run_bind]
  dsimp only [EStateM.run, get, getThe, MonadStateOf.get, EStateM.get]
  cases s.store.set handle value <;> rfl

theorem run_adjustTranspose : (router.adjustTranspose event).run s =
    .ok () (s.publish router.transpose (.long
      ((s.store.sharedValue router.transpose).toWhole +
        router.wholeIn event "adjust"))) := rfl

/-! ## The halves of a split -/

/-- The higher half of a split. It yields the number that is split. -/
def splitHigh : Handling Int64 := do
  let handle ← router.referenceIn event referenceField
  let n ← numberAt handle referenceField
  writeAt (← router.referenceIn event "msb") (.int ((n >>> 8) &&& 0xFF).toInt32)
  return n

/-- The lower half of a split. -/
def splitLow (n : Int64) : Handling Unit := do
  writeAt (← router.referenceIn event "lsb") (.int (n &&& 0xFF).toInt32)

/-- A split is its higher half and then its lower half. -/
theorem splitVariable_eq :
    router.splitVariable event = router.splitHigh event >>= router.splitLow event := by
  unfold splitVariable splitHigh splitLow
  simp only [bind_assoc, pure_bind]

/-! ## What reads leave alone -/

theorem readOnly_referenceIn : (router.referenceIn event field).ReadOnly := by
  intro s
  unfold final
  rw [run_referenceIn]
  cases (router.catalog.read event field).toHandle? <;> rfl

theorem readOnly_numberAt : (numberAt handle field).ReadOnly := by
  intro s
  unfold final
  rw [run_numberAt]
  cases (s.store.value handle).toWhole? <;> rfl

theorem readOnly_realAt : (realAt handle field).ReadOnly := by
  intro s
  unfold final
  rw [run_realAt]
  cases (s.store.value handle).toReal? <;> rfl

theorem readOnly_scaleOf : (router.scaleOf event).ReadOnly := by
  intro s
  unfold final
  rw [run_scaleOf]
  cases ((router.catalog.read event "scale").toReal?).filter fun x => !x.isZero <;> rfl

/-! ## What a control event may change -/

/-- A relation between states that writes to variables and messages keep. -/
structure WriteKept (R : State → State → Prop) : Prop where
  /-- It allows no change. -/
  refl : ∀ s, R s s
  /-- It allows changes one after another. -/
  trans : ∀ s t u, R s t → R t u → R s u
  /-- It allows variables to be written. -/
  write : ∀ s handle value written, s.store.set handle value = .ok written →
    R s { s with store := written.store }
  /-- It allows the debug switch to move. -/
  debug : ∀ s on, R s { s with debug := on }
  /-- It allows messages that are no warnings. -/
  note : ∀ s level text, level ≠ .warn → R s (s.note level text)

/-- A relation between states that all steps of control events keep. -/
structure ControlKept (router : Router) (R : State → State → Prop) : Prop
    extends WriteKept R where
  /-- It allows the transpose to move. -/
  publish : ∀ s value, R s (s.publish router.transpose value)

variable {router} {R : State → State → Prop}

/-- Steps that begin with a read keep what the steps after it keep. -/
theorem WriteKept.bind_read (kept : WriteKept R) {α β : Type}
    {read : Handling α} {next : α → Handling β} (h : read.ReadOnly)
    (k : ∀ value, (next value).Keeps R) : (read >>= next).Keeps R :=
  .bind kept.trans (h.keeps kept.refl) k

theorem WriteKept.keeps_writeAt (kept : WriteKept R) : (writeAt handle value).Keeps R := by
  intro s
  unfold final
  rw [run_writeAt]
  cases h : s.store.set handle value with
  | ok written => exact kept.write s handle value written h
  | error fault => exact kept.refl s

theorem WriteKept.keeps_setVariable (kept : WriteKept R) :
    (router.setVariable event).Keeps R := by
  unfold setVariable
  refine kept.bind_read (router.readOnly_referenceIn event _) fun handle => ?_
  intro s
  unfold final
  rw [run_bind]
  dsimp only [EStateM.run, get, getThe, MonadStateOf.get, EStateM.get]
  cases router.refusedJump? s.store event handle with
  | some jump => exact kept.note s _ _ (by decide)
  | none => exact kept.keeps_writeAt handle _ s

theorem WriteKept.keeps_toggleVariable (kept : WriteKept R) :
    (router.toggleVariable event).Keeps R := by
  unfold toggleVariable
  refine kept.bind_read (router.readOnly_referenceIn event _) fun handle => ?_
  refine kept.bind_read (readOnly_numberAt handle _) fun n => ?_
  exact kept.keeps_writeAt handle _

theorem WriteKept.keeps_splitHigh (kept : WriteKept R) :
    (router.splitHigh event).Keeps R := by
  unfold splitHigh
  refine kept.bind_read (router.readOnly_referenceIn event _) fun handle => ?_
  refine kept.bind_read (readOnly_numberAt handle _) fun n => ?_
  refine kept.bind_read (router.readOnly_referenceIn event _) fun msb => ?_
  exact .bind kept.trans (kept.keeps_writeAt msb _) fun _ => kept.refl

theorem WriteKept.keeps_splitLow (kept : WriteKept R) (n : Int64) :
    (router.splitLow event n).Keeps R := by
  unfold splitLow
  refine kept.bind_read (router.readOnly_referenceIn event _) fun lsb => ?_
  exact kept.keeps_writeAt lsb _

theorem WriteKept.keeps_convertFader (kept : WriteKept R) :
    (router.convertFader event).Keeps R := by
  unfold convertFader
  refine kept.bind_read (router.readOnly_referenceIn event _) fun handle => ?_
  refine kept.bind_read (router.readOnly_scaleOf event) fun scale => ?_
  refine kept.bind_read (router.readOnly_referenceIn event _) fun source => ?_
  refine kept.bind_read (readOnly_realAt source _) fun fader => ?_
  exact kept.keeps_writeAt handle _

/-- A relation that writes and messages keep is kept by every control event that does
not move the transpose. -/
theorem WriteKept.keeps_carryOut (kept : WriteKept R)
    (h : event.type ≠ .adjustMidiTranspose) : (router.carryOut event).Keeps R := by
  unfold carryOut
  split
  · exact kept.keeps_setVariable event
  · exact kept.keeps_toggleVariable event
  · rw [splitVariable_eq]
    exact .bind kept.trans (kept.keeps_splitHigh event) (kept.keeps_splitLow event)
  · exact kept.keeps_convertFader event
  · intro s
    exact kept.trans _ _ _ (kept.debug s _) (kept.note _ _ _ (by decide))
  · next adjusts => exact absurd adjusts h
  · exact kept.refl

/-- A relation that the steps keep is kept by every control event. -/
theorem ControlKept.keeps_carryOut (kept : ControlKept router R) :
    (router.carryOut event).Keeps R := by
  by_cases adjusts : event.type = .adjustMidiTranspose
  · unfold carryOut
    rw [adjusts]
    intro s
    exact kept.publish s _
  · exact kept.toWriteKept.keeps_carryOut event adjusts

/-- The state that steps end in, their fault reported if they ended in one. -/
def settle (steps : Handling Unit) (s : State) : State :=
  match steps.run s with
  | .ok _ after => after
  | .error fault after => after.report fault

/-- Control settles the steps of the event. -/
theorem control_eq_settle : router.control s event = settle (router.carryOut event) s := by
  unfold control settle
  cases (router.carryOut event).run s <;> rfl

/-- A relation that steps and reports of their faults keep is kept where they are
settled. -/
theorem rel_settle {F : DispatchFault → Prop} (trans : ∀ s t u, R s t → R t u → R s u)
    {steps : Handling Unit} (keeps : steps.Keeps R) (fails : steps.FailsWith F)
    (report : ∀ s fault, F fault → R s (s.report fault)) : R s (settle steps s) := by
  have kept := keeps s
  unfold final at kept
  unfold settle
  cases h : steps.run s with
  | ok value after =>
    rw [h] at kept
    exact kept
  | error fault after =>
    rw [h] at kept
    exact trans _ _ _ kept (report after fault (fails s fault after h))

/-- A relation that the steps and reports keep is kept by control. -/
theorem ControlKept.control (kept : ControlKept router R)
    (report : ∀ s fault, R s (s.report fault)) : R s (router.control s event) := by
  rw [control_eq_settle]
  exact rel_settle s (F := fun _ => True) kept.trans (kept.keeps_carryOut event)
    (fun _ _ _ _ => trivial) fun s fault _ => report s fault

variable (router)

/-! ## The faults of a control event -/

theorem failsWith_referenceIn :
    (router.referenceIn event field).FailsWith fun fault => fault.isOverrun = false := by
  intro s fault after failed
  rw [run_referenceIn] at failed
  cases h : (router.catalog.read event field).toHandle? <;> rw [h] at failed <;>
    cases failed
  rfl

theorem failsWith_numberAt :
    (numberAt handle field).FailsWith fun fault => fault.isOverrun = false := by
  intro s fault after failed
  rw [run_numberAt] at failed
  cases h : (s.store.value handle).toWhole? <;> rw [h] at failed <;> cases failed
  rfl

theorem failsWith_realAt :
    (realAt handle field).FailsWith fun fault => fault.isOverrun = false := by
  intro s fault after failed
  rw [run_realAt] at failed
  cases h : (s.store.value handle).toReal? <;> rw [h] at failed <;> cases failed
  rfl

theorem failsWith_scaleOf :
    (router.scaleOf event).FailsWith fun fault => fault.isOverrun = false := by
  intro s fault after failed
  rw [run_scaleOf] at failed
  cases h : ((router.catalog.read event "scale").toReal?).filter fun x => !x.isZero <;>
    rw [h] at failed <;> cases failed
  rfl

/-- A refused write is no overrun. -/
theorem isOverrun_of_set_eq_error {store : Store} {handle : Handle} {value : Value}
    {fault : DispatchFault} (h : store.set handle value = .error fault) :
    fault.isOverrun = false := by
  unfold Store.set at h
  split at h
  · cases h
    rfl
  · dsimp only at h
    split at h
    · cases h
      rfl
    · split at h <;> cases h
      rfl

theorem failsWith_writeAt :
    (writeAt handle value).FailsWith fun fault => fault.isOverrun = false := by
  intro s fault after failed
  rw [run_writeAt] at failed
  cases h : s.store.set handle value with
  | ok written => rw [h] at failed; cases failed
  | error reason =>
    rw [h] at failed
    cases failed
    exact isOverrun_of_set_eq_error h

theorem failsWith_setVariable :
    (router.setVariable event).FailsWith fun fault => fault.isOverrun = false := by
  unfold setVariable
  refine (router.failsWith_referenceIn event _).bind fun handle => ?_
  intro s fault after failed
  rw [run_bind] at failed
  dsimp only [EStateM.run, get, getThe, MonadStateOf.get, EStateM.get] at failed
  cases h : router.refusedJump? s.store event handle with
  | some jump => rw [h] at failed; cases failed
  | none =>
    rw [h] at failed
    exact failsWith_writeAt handle _ s fault after failed

theorem failsWith_splitHigh :
    (router.splitHigh event).FailsWith fun fault => fault.isOverrun = false := by
  unfold splitHigh
  refine (router.failsWith_referenceIn event _).bind fun handle => ?_
  refine (failsWith_numberAt handle _).bind fun n => ?_
  refine (router.failsWith_referenceIn event _).bind fun msb => ?_
  refine (failsWith_writeAt msb _).bind fun _ => ?_
  intro s fault after failed
  cases failed

theorem failsWith_splitLow (n : Int64) :
    (router.splitLow event n).FailsWith fun fault => fault.isOverrun = false := by
  unfold splitLow
  refine (router.failsWith_referenceIn event _).bind fun lsb => ?_
  exact failsWith_writeAt lsb _

/-- A control event never fails for lack of room. -/
theorem failsWith_carryOut :
    (router.carryOut event).FailsWith fun fault => fault.isOverrun = false := by
  unfold carryOut
  split
  · exact router.failsWith_setVariable event
  · refine (router.failsWith_referenceIn event _).bind fun handle => ?_
    refine (failsWith_numberAt handle _).bind fun n => ?_
    exact failsWith_writeAt handle _
  · rw [splitVariable_eq]
    exact (router.failsWith_splitHigh event).bind (router.failsWith_splitLow event)
  · refine (router.failsWith_referenceIn event _).bind fun handle => ?_
    refine (router.failsWith_scaleOf event).bind fun scale => ?_
    refine (router.failsWith_referenceIn event _).bind fun source => ?_
    refine (failsWith_realAt source _).bind fun fader => ?_
    exact failsWith_writeAt handle _
  · intro s fault after failed
    cases failed
  · intro s fault after failed
    cases failed
  · intro s fault after failed
    cases failed

/-! ## Control in two states at once -/

/-- A relation between states with the same variables that control events keep where
they are carried out in both. -/
structure ControlAlike (R : State → State → Prop) : Prop where
  /-- Related states have the same variables. -/
  store_eq : ∀ s t, R s t → s.store = t.store
  /-- The variables may become others in both. -/
  write : ∀ s t store, R s t → R { s with store := store } { t with store := store }
  /-- The debug switch may move in both. -/
  debug : ∀ s t on, R s t → R { s with debug := on } { t with debug := on }
  /-- A message may be added in both. -/
  note : ∀ s t level text, R s t → R (s.note level text) (t.note level text)

theorem parallel_referenceIn : (router.referenceIn event field).Parallel R := by
  intro s t hst
  rw [run_referenceIn, run_referenceIn]
  cases (router.catalog.read event field).toHandle? with
  | some handle => exact ⟨rfl, hst⟩
  | none => exact ⟨rfl, hst⟩

theorem parallel_scaleOf : (router.scaleOf event).Parallel R := by
  intro s t hst
  rw [run_scaleOf, run_scaleOf]
  cases ((router.catalog.read event "scale").toReal?).filter fun x => !x.isZero with
  | some scale => exact ⟨rfl, hst⟩
  | none => exact ⟨rfl, hst⟩

/-- Steps that are parallel leave related states where they are settled. -/
theorem parallel_settle {steps : Handling Unit} (parallel : steps.Parallel R)
    (report : ∀ s t fault, R s t → R (s.report fault) (t.report fault)) {s t : State}
    (hst : R s t) : R (settle steps s) (settle steps t) := by
  have agree := parallel s t hst
  unfold settle
  cases hs : steps.run s <;> cases ht : steps.run t <;> rw [hs, ht] at agree
  · exact agree.2
  · exact agree.elim
  · exact agree.elim
  · obtain ⟨rfl, related⟩ := agree
    exact report _ _ _ related

variable {router} (alike : ControlAlike R)

include alike

theorem ControlAlike.parallel_numberAt : (numberAt handle field).Parallel R := by
  intro s t hst
  rw [run_numberAt, run_numberAt, alike.store_eq s t hst]
  cases (t.store.value handle).toWhole? with
  | some n => exact ⟨rfl, hst⟩
  | none => exact ⟨rfl, hst⟩

theorem ControlAlike.parallel_realAt : (realAt handle field).Parallel R := by
  intro s t hst
  rw [run_realAt, run_realAt, alike.store_eq s t hst]
  cases (t.store.value handle).toReal? with
  | some x => exact ⟨rfl, hst⟩
  | none => exact ⟨rfl, hst⟩

theorem ControlAlike.parallel_writeAt : (writeAt handle value).Parallel R := by
  intro s t hst
  rw [run_writeAt, run_writeAt, alike.store_eq s t hst]
  cases t.store.set handle value with
  | ok written => exact ⟨rfl, alike.write s t _ hst⟩
  | error fault => exact ⟨rfl, hst⟩

theorem ControlAlike.parallel_setVariable : (router.setVariable event).Parallel R := by
  unfold setVariable
  refine (router.parallel_referenceIn event _).bind fun handle => ?_
  intro s t hst
  rw [run_bind, run_bind]
  dsimp only [EStateM.run, get, getThe, MonadStateOf.get, EStateM.get]
  rw [alike.store_eq s t hst]
  cases router.refusedJump? t.store event handle with
  | some jump => exact ⟨rfl, alike.note s t _ _ hst⟩
  | none => exact alike.parallel_writeAt handle _ s t hst

theorem ControlAlike.parallel_splitHigh : (router.splitHigh event).Parallel R := by
  unfold splitHigh
  refine (router.parallel_referenceIn event _).bind fun handle => ?_
  refine (alike.parallel_numberAt handle _).bind fun n => ?_
  refine (router.parallel_referenceIn event _).bind fun msb => ?_
  refine (alike.parallel_writeAt msb _).bind fun _ => ?_
  exact fun s t hst => ⟨rfl, hst⟩

theorem ControlAlike.parallel_splitLow (n : Int64) :
    (router.splitLow event n).Parallel R := by
  unfold splitLow
  refine (router.parallel_referenceIn event _).bind fun lsb => ?_
  exact alike.parallel_writeAt lsb _

/-- A control event does the same in both states. -/
theorem ControlAlike.parallel_carryOut : (router.carryOut event).Parallel R := by
  unfold carryOut
  split
  · exact alike.parallel_setVariable event
  · refine (router.parallel_referenceIn event _).bind fun handle => ?_
    refine (alike.parallel_numberAt handle _).bind fun n => ?_
    exact alike.parallel_writeAt handle _
  · rw [splitVariable_eq]
    exact (alike.parallel_splitHigh event).bind (alike.parallel_splitLow event)
  · refine (router.parallel_referenceIn event _).bind fun handle => ?_
    refine (router.parallel_scaleOf event).bind fun scale => ?_
    refine (router.parallel_referenceIn event _).bind fun source => ?_
    refine (alike.parallel_realAt source _).bind fun fader => ?_
    exact alike.parallel_writeAt handle _
  · intro s t hst
    exact ⟨rfl, alike.note _ _ _ _ (alike.debug s t _ hst)⟩
  · intro s t hst
    rw [run_adjustTranspose, run_adjustTranspose, alike.store_eq s t hst]
    refine ⟨rfl, ?_⟩
    have published := alike.write s t (t.store.publish router.transpose (.long
      ((t.store.sharedValue router.transpose).toWhole + router.wholeIn event "adjust")))
      hst
    unfold State.publish
    rw [alike.store_eq s t hst]
    exact published
  · intro s t hst
    exact ⟨rfl, hst⟩

omit alike

/-- Having the same variables is kept where control events are carried out in both
states. -/
theorem controlAlike_store : ControlAlike fun s t => s.store = t.store where
  store_eq _ _ hst := hst
  write _ _ _ _ := rfl
  debug _ _ _ hst := hst
  note _ _ _ _ hst := hst

/-- The variables after a control event. -/
def controlled (router : Router) (store : Store) (event : Event) : Store :=
  ((router.carryOut event).final
    { store := store, pool := .ofCapacity 0, journal := {}, listeners := []
      debug := false }).store

/-- Control leaves the variables as the steps of the event do. -/
theorem store_control : (router.control s event).store =
    router.controlled s.store event := by
  have same : (router.control s event).store =
      ((router.carryOut event).final s).store := by
    unfold Router.control final
    cases (router.carryOut event).run s <;> rfl
  rw [same]
  exact (controlAlike_store.parallel_carryOut event).final rfl

end Router

end CueRouter
