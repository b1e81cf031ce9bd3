import CueRouter.Proofs.Dispatch.Atomicity
import CueRouter.Proofs.Dispatch.Controlled

/-!
# Toggling around a closed range

A toggle steps a variable to the next number of a closed range, and from its end back to
its beginning. Any number of toggles with the same bounds go around the range as a
remainder does, up to the greatest int and for a byte up to 255: no step overflows, none
is refused, and nothing but the variable changes.
-/

namespace CueRouter.Router

/-! ## Around a range -/

/-- The number that is so many places after another in a closed range, around again at
its end. -/
def cycled (least greatest n : Int) (count : Nat) : Int :=
  least + (n - least + count) % (greatest - least + 1)

section Cycled

variable {least greatest n : Int}

/-- No place after a number of the range is the number. -/
theorem cycled_zero (above : least ≤ n) (below : n ≤ greatest) :
    cycled least greatest n 0 = n := by
  have inside : (n - least + (0 : Nat)) % (greatest - least + 1) = n - least + (0 : Nat) :=
    Int.emod_eq_of_lt (by omega) (by omega)
  unfold cycled
  rw [inside]
  omega

/-- Every place is in the range. -/
theorem cycled_mem (nonempty : least ≤ greatest) (n : Int) (count : Nat) :
    least ≤ cycled least greatest n count ∧ cycled least greatest n count ≤ greatest := by
  have low := Int.emod_nonneg (n - least + count)
    (show greatest - least + 1 ≠ 0 by omega)
  have high := Int.emod_lt_of_pos (n - least + count)
    (show 0 < greatest - least + 1 by omega)
  unfold cycled
  omega

/-- Places after places add up. -/
theorem cycled_cycled (first second : Nat) :
    cycled least greatest (cycled least greatest n first) second =
      cycled least greatest n (first + second) := by
  unfold cycled
  have cancel : ∀ rest : Int, least + rest - least + second = rest + second := by
    intro rest
    omega
  rw [cancel, Int.emod_add_emod, Int.natCast_add, Int.add_assoc]

/-- The successor in the range is the next place. It does not overflow, even where the
range ends with the greatest number there is. -/
theorem toInt_toggled {n least greatest : Int64} (above : least.toInt ≤ n.toInt)
    (below : n.toInt ≤ greatest.toInt) :
    (toggled n least greatest).toInt = cycled least.toInt greatest.toInt n.toInt 1 := by
  have largest : Int64.maxValue.toInt = 2 ^ 63 - 1 := by decide
  have bound := greatest.toInt_lt
  by_cases last : n.toInt = greatest.toInt
  · have stops : ¬(n ≠ Int64.maxValue ∧ n + 1 ≤ greatest) := by
      rintro ⟨inside, next⟩
      have apart : n.toInt ≠ Int64.maxValue.toInt := fun same => inside (Int64.toInt_inj.mp same)
      have least' := n.le_toInt
      rw [Int64.le_iff_toInt_le, Int64.toInt_add, show (1 : Int64).toInt = 1 from rfl,
        Int.bmod_eq_of_le (by omega) (by omega)] at next
      omega
    have whole : n.toInt - least.toInt + (1 : Nat) = greatest.toInt - least.toInt + 1 := by
      omega
    unfold toggled cycled
    rw [if_neg stops, whole, Int.emod_self, Int.add_zero]
  · have least' := n.le_toInt
    have sum : (n + 1).toInt = n.toInt + 1 := by
      rw [Int64.toInt_add, show (1 : Int64).toInt = 1 from rfl]
      exact Int.bmod_eq_of_le (by omega) (by omega)
    have goes : n ≠ Int64.maxValue ∧ n + 1 ≤ greatest := by
      refine ⟨?_, ?_⟩
      · rintro rfl
        omega
      · rw [Int64.le_iff_toInt_le, sum]
        omega
    have inside : (n.toInt - least.toInt + (1 : Nat)) % (greatest.toInt - least.toInt + 1) =
        n.toInt - least.toInt + (1 : Nat) :=
      Int.emod_eq_of_lt (by omega) (by omega)
    unfold toggled cycled
    rw [if_pos goes, sum, inside]
    omega

end Cycled

/-! ## Toggles -/

/-- The event toggles the variable through the closed range. -/
structure Toggles (router : Router) (handle : Handle) (least greatest : Int32)
    (event : Event) : Prop where
  /-- The event is a toggle. -/
  type_eq : event.type = .toggleVariable
  /-- The event is no echo. -/
  plain : event.echo = false
  /-- The event refers to the variable. -/
  refers : router.catalog.read event referenceField = .reference handle
  /-- The range begins here. -/
  least_eq : router.catalog.read event "minvalue" = .int least
  /-- The range ends here. -/
  greatest_eq : router.catalog.read event "maxvalue" = .int greatest

variable {router : Router} {handle : Handle} {kind : Kind} {least greatest : Int32}
  {event : Event} {v : Int}

/-- The kind has room for the range: it holds ints or more, or the range is one of
bytes. -/
def Rooms (kind : Kind) (least greatest : Int32) : Prop :=
  kind = .int ∨ kind = .long ∨ kind = .byte ∧ 0 ≤ least.toInt ∧ greatest.toInt ≤ 255

theorem Rooms.isInteger (rooms : Rooms kind least greatest) : kind.isInteger = true := by
  rcases rooms with rfl | rfl | ⟨rfl, -⟩ <;> rfl

/-- A number of the range fits the kind. -/
theorem Rooms.fits (rooms : Rooms kind least greatest) (above : least.toInt ≤ v)
    (below : v ≤ greatest.toInt) : kind.Fits v := by
  rcases rooms with rfl | rfl | ⟨rfl, low, high⟩
  · exact ⟨Int.le_trans least.le_toInt above, Int.lt_of_le_of_lt below greatest.toInt_lt⟩
  · trivial
  · exact ⟨Int.le_trans low above, Int.le_trans below high⟩

/-- The steps of a toggle write the next number of the range into the variable. -/
theorem Toggles.run_carryOut (toggles : router.Toggles handle least greatest event)
    (rooms : Rooms kind least greatest) {store : Store} (holds : store.Holds handle kind v)
    (above : least.toInt ≤ v) (below : v ≤ greatest.toInt) :
    ∃ written : Store, (∀ t : State, t.store = store →
        (router.carryOut event).run t = .ok () { t with store := written }) ∧
      written.Holds handle kind (cycled least.toInt greatest.toInt v 1) ∧
      (∀ other, other ≠ handle → written.get? other = store.get? other) ∧
      written.shared = store.shared := by
  obtain ⟨n, hread, rfl⟩ := Option.map_eq_some_iff.mp holds.whole?_value
  let next := toggled n least.toInt64 greatest.toInt64
  have value : (Value.long next).whole? =
      some (cycled least.toInt greatest.toInt n.toInt 1) := by
    rw [Value.whole?_long, toInt_toggled, Int32.toInt_toInt64, Int32.toInt_toInt64]
    · rwa [Int32.toInt_toInt64]
    · rwa [Int32.toInt_toInt64]
  obtain ⟨written, hset, after, others, shared⟩ := holds.set rooms.isInteger value
  have range := cycled_mem (Int.le_trans above below) n.toInt 1
  rw [Kind.wrapped_of_fits (rooms.fits range.1 range.2)] at after
  refine ⟨written.store, fun t same => ?_, after, others, shared⟩
  have bounds : router.wholeIn event "minvalue" = least.toInt64 ∧
      router.wholeIn event "maxvalue" = greatest.toInt64 := by
    unfold wholeIn
    rw [toggles.least_eq, toggles.greatest_eq]
    exact ⟨rfl, rfl⟩
  have target : (router.catalog.read event referenceField).toHandle? = some handle := by
    rw [toggles.refers]
    rfl
  unfold carryOut
  rw [toggles.type_eq]
  dsimp only
  unfold toggleVariable
  rw [Handling.run_bind, run_referenceIn, target]
  dsimp only
  rw [Handling.run_bind, run_numberAt, same, hread]
  dsimp only
  rw [run_writeAt, same, bounds.1, bounds.2, hset]

/-- Dispatching a toggle steps the variable and touches nothing else. -/
theorem Toggles.dispatch (toggles : router.Toggles handle least greatest event)
    (rooms : Rooms kind least greatest) {s : State} (holds : s.store.Holds handle kind v)
    (above : least.toInt ≤ v) (below : v ≤ greatest.toInt)
    (shallow : s.depth < router.depthLimit) (send : State → Event → State) :
    (router.dispatch send s event).store.Holds handle kind
        (cycled least.toInt greatest.toInt v 1) ∧
      s.Touches handle (router.dispatch send s event) ∧
      (router.dispatch send s event).listeners = s.listeners := by
  obtain ⟨written, steps, after, others, shared⟩ :=
    toggles.run_carryOut rooms holds above below
  have control : event.type.isControl = true := by
    rw [toggles.type_eq]
    rfl
  obtain ⟨same, touches⟩ :=
    touches_dispatch control toggles.plain shallow steps others shared send
  rw [same]
  exact ⟨after, touches⟩

/-- Steps of a state that each step the variable once go around the range with it, one
place for each event. -/
theorem holds_foldl (Fine : State → Prop) {step : State → Event → State}
    (each : ∀ s event v, Fine s → router.Toggles handle least greatest event →
      s.store.Holds handle kind v → least.toInt ≤ v → v ≤ greatest.toInt →
      Fine (step s event) ∧
        (step s event).store.Holds handle kind (cycled least.toInt greatest.toInt v 1) ∧
        s.Touches handle (step s event))
    {s : State} (fine : Fine s) {events : List Event}
    (toggles : ∀ event ∈ events, router.Toggles handle least greatest event)
    (holds : s.store.Holds handle kind v) (above : least.toInt ≤ v)
    (below : v ≤ greatest.toInt) :
    (events.foldl step s).store.Holds handle kind
        (cycled least.toInt greatest.toInt v events.length) ∧
      s.Touches handle (events.foldl step s) := by
  induction events generalizing s v with
  | nil =>
    rw [List.length_nil, cycled_zero above below]
    exact ⟨holds, .refl handle s⟩
  | cons event rest ih =>
    obtain ⟨still, once, touches⟩ :=
      each s event v fine (toggles event List.mem_cons_self) holds above below
    have range := cycled_mem (Int.le_trans above below) v 1
    obtain ⟨last, others⟩ :=
      ih still (fun other member => toggles other (List.mem_cons_of_mem _ member)) once
        range.1 range.2
    rw [cycled_cycled, Nat.add_comm] at last
    exact ⟨last, touches.trans others⟩

/-- Between two states nothing changes but one variable, nothing is reported, and in the
second one the variable holds a number in its own kind. -/
structure LeavesAt (s : State) (handle : Handle) (kind : Kind) (place : Int)
    (after : State) : Prop extends s.Undisturbed (· ≠ handle) after where
  /-- The variable holds the number. -/
  holds : after.store.Holds handle kind place

/-- Toggles go around. Let a variable of an integer kind with room for the range hold a
number of it. Then any number of toggles through the range leaves it, in its own kind, at
the number that is as many places further around, whatever would broadcast. So do toggles
that are broadcast, if listeners only record. -/
theorem holds_after_toggles (router : Router) (s : State) (handle : Handle) (kind : Kind)
    (least greatest : Int32) (v : Int) (events : List Event)
    (rooms : kind = .int ∨ kind = .long ∨
      kind = .byte ∧ 0 ≤ least.toInt ∧ greatest.toInt ≤ 255)
    (holds : s.store.Holds handle kind v) (above : least.toInt ≤ v)
    (below : v ≤ greatest.toInt) (shallow : s.depth < router.depthLimit)
    (toggles : ∀ event ∈ events, router.Toggles handle least greatest event) :
    let place := least.toInt +
      (v - least.toInt + events.length) % (greatest.toInt - least.toInt + 1)
    (∀ send : State → Event → State,
        LeavesAt s handle kind place (events.foldl (router.dispatch send) s)) ∧
      (s.OnlyRecords → LeavesAt s handle kind place (events.foldl router.broadcast s)) := by
  intro place
  refine ⟨fun send => ?_, fun recorders => ?_⟩
  · have run := holds_foldl (fun t => t.depth < router.depthLimit)
      (fun t event v shallow one holds above below => by
        obtain ⟨once, touches, -⟩ := one.dispatch rooms holds above below shallow send
        refine ⟨?_, once, touches⟩
        rw [touches.depth]
        exact shallow) shallow toggles holds above below
    exact ⟨run.2.undisturbed, run.1⟩
  · have run := holds_foldl (fun t => t.depth < router.depthLimit ∧ t.OnlyRecords)
      (fun t event v fine one holds above below => by
        obtain ⟨once, touches, listeners⟩ := one.dispatch rooms holds above below fine.1
          (router.sender t.pool.available)
        obtain ⟨same, delivered, records⟩ := touches_deliver fine.2 touches listeners
        refine ⟨⟨?_, records⟩, ?_, delivered⟩
        · rw [delivered.depth]
          exact fine.1
        · rw [same]
          exact once) ⟨shallow, recorders⟩ toggles holds above below
    exact ⟨run.2.undisturbed, run.1⟩

/-- A byte near its end and another variable, while messages are on. -/
def byteState : State where
  store :=
    { entries := [⟨"B", .owned ⟨.byte, .byte 254⟩⟩, ⟨"OTHER", .owned ⟨.int, .int 7⟩⟩] }
  pool := .ofCapacity 4
  journal := {}
  listeners := [.recorder #[]]
  debug := true

/-- Three toggles through all bytes lead from 254 to 1. -/
theorem holds_after_toggles_byteState :
    let toggle : Event := ⟨.toggleVariable, [.reference ⟨0⟩, .int 255, .int 0], false⟩
    let after := [toggle, toggle, toggle].foldl bareRouter.broadcast byteState
    after.store.Holds ⟨0⟩ .byte 1 ∧ after.store.value ⟨1⟩ = .int 7 ∧
      bareRouter.Toggles ⟨0⟩ 0 255 toggle := by
  intro toggle after
  have toggles : bareRouter.Toggles ⟨0⟩ 0 255 toggle :=
    ⟨rfl, rfl, by decide +kernel, by decide +kernel, by decide +kernel⟩
  obtain ⟨-, heard⟩ := holds_after_toggles bareRouter byteState ⟨0⟩ .byte 0 255 254
    [toggle, toggle, toggle] (.inr (.inr ⟨rfl, by decide, by decide⟩))
    ⟨"B", ⟨.byte, .byte 254⟩, rfl, rfl, rfl, by decide⟩ (by decide) (by decide) (by decide)
    fun event member => by
      simp only [List.mem_cons, List.not_mem_nil, or_false, or_self] at member
      rw [member]
      exact toggles
  obtain ⟨⟨-, others⟩, holds⟩ := heard fun listener member =>
    ⟨#[], List.mem_singleton.mp member⟩
  have place : Int32.toInt 0 +
      (254 - Int32.toInt 0 + ([toggle, toggle, toggle].length : Int)) %
        (Int32.toInt 255 - Int32.toInt 0 + 1) = 1 := by decide
  rw [place] at holds
  exact ⟨holds, (others ⟨1⟩ (by decide)).2, toggles⟩

end CueRouter.Router
