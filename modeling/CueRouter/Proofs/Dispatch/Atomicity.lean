import CueRouter.Proofs.Dispatch.Handling
import CueRouter.Proofs.Variable.Write

/-!
# Control events that fail

Every control event reads before it writes, so one that fails has written
nothing, with one exception: splitting a variable writes the higher byte before
it knows that the lower one can be written. A failed control event leaves the
variables, the debug switch and the transpose as they were exactly when it is no
such half of a split.
-/

namespace CueRouter

namespace Handling

variable {α β : Type}

/-- Steps that fail leave the state as it was. -/
def Atomic (steps : Handling α) : Prop :=
  ∀ s fault after, steps.run s = .error fault after → after = s

/-- Steps that leave the state alone do so when they fail. -/
theorem ReadOnly.atomic {steps : Handling α} (h : steps.ReadOnly) : steps.Atomic := by
  intro s fault after failed
  have same := h s
  unfold final at same
  rw [failed] at same
  exact same

/-- A read that succeeds ends in the state it began in. -/
theorem ReadOnly.eq_of_ok {steps : Handling α} (h : steps.ReadOnly) {s after : State}
    {value : α} (done : steps.run s = .ok value after) : after = s := by
  have same := h s
  unfold final at same
  rw [done] at same
  exact same

/-- Atomic steps behind a read are atomic with it. -/
theorem Atomic.bind_read {read : Handling α} {next : α → Handling β}
    (h : read.ReadOnly) (k : ∀ value, (next value).Atomic) :
    (read >>= next).Atomic := by
  intro s fault after failed
  rcases bind_eq_error failed with early | ⟨value, between, done, late⟩
  · exact h.atomic s fault after early
  · have same := h.eq_of_ok done
    subst same
    exact k value between fault after late

end Handling

namespace Router

open Handling

variable (router : Router) (event : Event)

/-- A single write is atomic. -/
theorem atomic_writeAt (handle : Handle) (value : Value) :
    (writeAt handle value).Atomic := by
  intro s fault after failed
  rw [run_writeAt] at failed
  cases h : s.store.set handle value with
  | ok written => rw [h] at failed; cases failed
  | error reason => rw [h] at failed; cases failed; rfl

theorem atomic_setVariable : (router.setVariable event).Atomic := by
  unfold setVariable
  refine .bind_read (router.readOnly_referenceIn event _) fun handle => ?_
  refine .bind_read readOnly_get fun s => ?_
  cases router.refusedJump? s.store event handle with
  | some jump =>
    intro _ fault after failed
    cases failed
  | none => exact atomic_writeAt handle _

theorem atomic_toggleVariable : (router.toggleVariable event).Atomic := by
  unfold toggleVariable
  refine .bind_read (router.readOnly_referenceIn event _) fun handle => ?_
  refine .bind_read (readOnly_numberAt handle _) fun n => ?_
  exact atomic_writeAt handle _

theorem atomic_convertFader : (router.convertFader event).Atomic := by
  unfold convertFader
  refine .bind_read (router.readOnly_referenceIn event _) fun handle => ?_
  refine .bind_read (router.readOnly_scaleOf event) fun scale => ?_
  refine .bind_read (router.readOnly_referenceIn event _) fun source => ?_
  refine .bind_read (readOnly_realAt source _) fun fader => ?_
  exact atomic_writeAt handle _

/-- Every control event but a split is atomic. -/
theorem atomic_carryOut (h : event.type ≠ .splitVariableMsbLsb) :
    (router.carryOut event).Atomic := by
  unfold carryOut
  split
  · exact router.atomic_setVariable event
  · exact router.atomic_toggleVariable event
  · next hsplit => exact absurd hsplit h
  · exact router.atomic_convertFader event
  · intro s fault after failed
    cases failed
  · intro s fault after failed
    cases failed
  · intro s fault after failed
    cases failed

/-! ## Steps that succeed -/

variable {router event}

/-- A reference is found exactly where the field holds one. -/
theorem referenceIn_eq_ok {field : String} {s after : State} {handle : Handle} :
    (router.referenceIn event field).run s = .ok handle after ↔
      (router.catalog.read event field).toHandle? = some handle ∧ s = after := by
  rw [run_referenceIn]
  cases (router.catalog.read event field).toHandle? <;> simp

/-- A number is found exactly where the variable has a whole reading. -/
theorem numberAt_eq_ok {handle : Handle} {field : String} {s after : State} {n : Int64} :
    (numberAt handle field).run s = .ok n after ↔
      (s.store.value handle).toWhole? = some n ∧ s = after := by
  rw [run_numberAt]
  cases (s.store.value handle).toWhole? <;> simp

/-- A write succeeds exactly where the store lets it through. -/
theorem writeAt_eq_ok {handle : Handle} {value : Value} {s after : State} {done : Unit} :
    (writeAt handle value).run s = .ok done after ↔
      ∃ written, s.store.set handle value = .ok written ∧
        { s with store := written.store } = after := by
  rw [run_writeAt]
  cases s.store.set handle value <;> simp

variable (router event)

/-! ## Half of a split -/

theorem atomic_splitLow (n : Int64) : (router.splitLow event n).Atomic := by
  unfold splitLow
  refine .bind_read (router.readOnly_referenceIn event _) fun lsb => ?_
  exact atomic_writeAt lsb _

/-- The higher byte that a split writes. -/
def highByte (n : Int64) : Value := .int ((n >>> 8) &&& 0xFF).toInt32

/-- A split whose higher byte goes through: what it splits is a whole number, and
the variable for the higher byte has a cell of its own. -/
structure WritesHigh (store : Store) (n : Int64) (high : Handle) (cell : Cell) :
    Prop where
  /-- The event splits a variable. -/
  splits : event.type = .splitVariableMsbLsb
  /-- The variable that is split reads as the number. -/
  number : ∃ source, (router.catalog.read event referenceField).toHandle? = some source ∧
    (store.value source).toWhole? = some n
  /-- The event refers to the variable for the higher byte. -/
  refers : (router.catalog.read event "msb").toHandle? = some high
  /-- That variable has the cell. -/
  owned : ∃ name, store.get? high = some ⟨name, .owned cell⟩
  /-- The cell accepts the byte. -/
  accepts : (cell.accepts (highByte n)).isValid = true

/-- Whether a split would change the variable for the higher byte before it is
known whether the lower one can be written. -/
def HalfSplit (store : Store) : Prop :=
  ∃ n high cell, router.WritesHigh event store n high cell ∧
    (cell.write (highByte n)).content ≠ cell.content

variable {router event}

/-- There is at most one higher byte for a split to write. -/
theorem WritesHigh.unique {store : Store} {n m : Int64} {high other : Handle}
    {cell found : Cell} (h : router.WritesHigh event store n high cell)
    (k : router.WritesHigh event store m other found) :
    n = m ∧ high = other ∧ cell = found := by
  obtain ⟨source, hsource, hn⟩ := h.number
  obtain ⟨again, hagain, hm⟩ := k.number
  rw [hsource] at hagain
  cases hagain
  rw [hn] at hm
  cases hm
  have hhigh := h.refers
  rw [k.refers] at hhigh
  cases hhigh
  obtain ⟨name, howned⟩ := h.owned
  obtain ⟨same, hfound⟩ := k.owned
  rw [howned] at hfound
  cases hfound
  exact ⟨rfl, rfl, rfl⟩

/-- A split whose higher byte goes through goes on with the lower one from there. -/
theorem run_carryOut_of_writesHigh {s : State} {n : Int64}
    {high : Handle} {cell : Cell} (h : router.WritesHigh event s.store n high cell) :
    (router.carryOut event).run s = (router.splitLow event n).run
      { s with
        store := s.store.withStorage high (.owned (cell.write (highByte n))) } := by
  obtain ⟨source, hsource, hn⟩ := h.number
  obtain ⟨name, howned⟩ := h.owned
  have hset := Store.set_eq_ok.mpr ⟨name, cell, howned, h.accepts, rfl⟩
  unfold carryOut
  rw [h.splits]
  dsimp only
  unfold splitVariable
  rw [run_bind, run_referenceIn, hsource]
  dsimp only
  rw [run_bind, run_numberAt, hn]
  dsimp only
  rw [run_bind, run_referenceIn, h.refers]
  dsimp only
  rw [run_bind, run_writeAt]
  unfold highByte at hset ⊢
  rw [hset]
  rfl

/-- A split that fails without having written a higher byte leaves the state as it
was. -/
theorem eq_of_error_splitVariable {s after : State} {fault : DispatchFault}
    (hsplit : event.type = .splitVariableMsbLsb)
    (failed : (router.splitVariable event).run s = .error fault after)
    (h : ∀ n high cell, ¬router.WritesHigh event s.store n high cell) :
    after = s := by
  unfold splitVariable at failed
  rcases bind_eq_error failed with early | ⟨source, first, found, later⟩
  · exact (router.readOnly_referenceIn event _).atomic _ _ _ early
  obtain ⟨hsource, rfl⟩ := referenceIn_eq_ok.mp found
  rcases bind_eq_error later with early | ⟨n, second, found, last⟩
  · exact (readOnly_numberAt source _).atomic _ _ _ early
  obtain ⟨hn, rfl⟩ := numberAt_eq_ok.mp found
  rcases bind_eq_error last with early | ⟨high, third, found, writing⟩
  · exact (router.readOnly_referenceIn event _).atomic _ _ _ early
  obtain ⟨hhigh, rfl⟩ := referenceIn_eq_ok.mp found
  rcases bind_eq_error writing with early | ⟨_, fourth, wrote, -⟩
  · exact atomic_writeAt high _ _ _ _ early
  obtain ⟨written, hset, -⟩ := writeAt_eq_ok.mp wrote
  obtain ⟨name, cell, howned, haccepts, -⟩ := Store.set_eq_ok.mp hset
  exact absurd ⟨hsplit, ⟨source, hsource, hn⟩, hhigh, ⟨name, howned⟩, haccepts⟩
    (h n high cell)

/-- A control event that fails without having written a higher byte leaves the state
as it was. -/
theorem eq_of_error {s after : State} {fault : DispatchFault}
    (failed : (router.carryOut event).run s = .error fault after)
    (h : ∀ n high cell, ¬router.WritesHigh event s.store n high cell) :
    after = s := by
  by_cases hsplit : event.type = .splitVariableMsbLsb
  · unfold carryOut at failed
    rw [hsplit] at failed
    exact eq_of_error_splitVariable hsplit failed h
  · exact router.atomic_carryOut event hsplit s fault after failed

/-! ## When a failed control event changes nothing -/

/-- The debug switch, the transpose and the value of every variable are the same. -/
structure SameSettings (router : Router) (s t : State) : Prop where
  /-- The debug switch is where it was. -/
  debug : t.debug = s.debug
  /-- The transpose is what it was. -/
  transpose : t.store.sharedValue router.transpose =
    s.store.sharedValue router.transpose
  /-- Every variable has the value it had. -/
  value : ∀ handle, t.store.value handle = s.store.value handle

/-- Other storage behind one variable changes no setting but its value. -/
theorem sameSettings_withStorage_iff (router : Router) {s : State} {name : String}
    {cell other : Cell} {handle : Handle} (h : s.store.get? handle = some ⟨name, .owned cell⟩) :
    router.SameSettings s
        { s with store := s.store.withStorage handle (.owned other) } ↔
      other.content = cell.content := by
  have hself : (s.store.withStorage handle (.owned other)).value handle =
      other.content := Store.value_of_owned (Store.get?_withStorage_self h _)
  constructor
  · intro same
    have hvalue := same.value handle
    dsimp only at hvalue
    rw [hself, Store.value_of_owned h] at hvalue
    exact hvalue
  · intro hcontent
    refine ⟨rfl, rfl, fun which => ?_⟩
    dsimp only
    by_cases hw : which = handle
    · rw [hw, hself, Store.value_of_owned h, hcontent]
    · exact Store.value_withStorage_of_ne _ hw _

/-- A split that fails after its higher byte went through leaves every variable as it
was just where that write changed nothing. -/
theorem sameSettings_report_iff {router : Router} {event : Event} {s after : State}
    {fault : DispatchFault} {n : Int64} {high : Handle} {cell : Cell}
    (writes : router.WritesHigh event s.store n high cell)
    (failed : (router.carryOut event).run s = .error fault after) :
    router.SameSettings s (after.report fault) ↔
      (cell.write (highByte n)).content = cell.content := by
  rw [run_carryOut_of_writesHigh writes] at failed
  have hafter := router.atomic_splitLow event n _ _ _ failed
  obtain ⟨name, howned⟩ := writes.owned
  rw [hafter, ← sameSettings_withStorage_iff router howned]
  exact ⟨fun h => ⟨h.debug, h.transpose, h.value⟩,
    fun h => ⟨h.debug, h.transpose, h.value⟩⟩

/-- A control event that fails leaves the debug switch, the transpose and every
variable as they were, unless it is half of a split that changed the variable for
the higher byte. -/
theorem control_sameSettings_iff (router : Router) (event : Event) (s after : State)
    (fault : DispatchFault)
    (failed : (router.carryOut event).run s = .error fault after) :
    router.SameSettings s (router.control s event) ↔
      ¬router.HalfSplit event s.store := by
  have hcontrol : router.control s event = after.report fault := by
    unfold control
    rw [failed]
  rw [hcontrol]
  by_cases hwrites : ∃ n high cell, router.WritesHigh event s.store n high cell
  · obtain ⟨n, high, cell, writes⟩ := hwrites
    rw [sameSettings_report_iff writes failed]
    constructor
    · rintro hcontent ⟨m, other, found, others, hchanged⟩
      obtain ⟨rfl, rfl, rfl⟩ := writes.unique others
      exact hchanged hcontent
    · intro hhalf
      by_cases hcontent : (cell.write (highByte n)).content = cell.content
      · exact hcontent
      · exact absurd ⟨n, high, cell, writes, hcontent⟩ hhalf
  · have hafter := eq_of_error failed fun n high cell writes =>
      hwrites ⟨n, high, cell, writes⟩
    subst hafter
    constructor
    · rintro - ⟨n, high, cell, writes, -⟩
      exact hwrites ⟨n, high, cell, writes⟩
    · exact fun _ => ⟨rfl, rfl, fun _ => rfl⟩

/-- A router over the stock catalog without bindings. -/
def bareRouter : Router where
  catalog := .standard 512
  table := .empty
  transpose := ⟨0⟩
  interfaces := []
  depthLimit := 8

/-- Three variables: one to split, and one for each of its bytes. -/
def splitState : State where
  store :=
    { entries := [⟨"BIG", .owned ⟨.int, .int 4660⟩⟩, ⟨"HI", .owned ⟨.int, .int 0⟩⟩,
        ⟨"LO", .owned ⟨.int, .int 0⟩⟩] }
  pool := .ofCapacity 4
  journal := {}
  listeners := []
  debug := false

/-- A split that refers to no variable for the lower byte. -/
def splitWithoutLow : Event :=
  ⟨.splitVariableMsbLsb, [.reference ⟨0⟩, .reference ⟨1⟩, .invalid], false⟩

/-- The split without a lower byte fails, and it is half of a split: it does not
leave every variable as it was. -/
theorem control_sameSettings_iff_splitWithoutLow :
    (bareRouter.carryOut splitWithoutLow).run splitState =
        .error (.missingReference .splitVariableMsbLsb "lsb")
          ((bareRouter.carryOut splitWithoutLow).final splitState) ∧
      ¬bareRouter.SameSettings splitState
        (bareRouter.control splitState splitWithoutLow) := by
  have failed : (bareRouter.carryOut splitWithoutLow).run splitState =
      .error (.missingReference .splitVariableMsbLsb "lsb")
        ((bareRouter.carryOut splitWithoutLow).final splitState) := by
    rfl
  have writes : bareRouter.WritesHigh splitWithoutLow splitState.store 4660 ⟨1⟩
      ⟨.int, .int 0⟩ :=
    ⟨rfl, ⟨⟨0⟩, by decide +kernel, by decide +kernel⟩, by decide +kernel,
      ⟨"HI", by decide +kernel⟩, by decide +kernel⟩
  have half : bareRouter.HalfSplit splitWithoutLow splitState.store :=
    ⟨4660, ⟨1⟩, _, writes, by decide +kernel⟩
  refine ⟨failed, fun same => ?_⟩
  exact (control_sameSettings_iff bareRouter splitWithoutLow splitState _ _ failed).mp
    same half

/-- Not every control event that fails leaves every variable as it was. -/
theorem not_control_sameSettings :
    ¬∀ (router : Router) (event : Event) (s after : State) (fault : DispatchFault),
      event.type.isControl = true →
      (router.carryOut event).run s = .error fault after →
      router.SameSettings s (router.control s event) := by
  intro all
  have same := all bareRouter splitWithoutLow splitState _
    (.missingReference .splitVariableMsbLsb "lsb") rfl rfl
  have unchanged := same.value ⟨1⟩
  have changed : (bareRouter.control splitState splitWithoutLow).store.value ⟨1⟩ ≠
      splitState.store.value ⟨1⟩ := by
    decide +kernel
  exact changed unchanged

end Router

end CueRouter
