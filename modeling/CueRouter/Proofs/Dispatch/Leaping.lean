import CueRouter.Proofs.Dispatch.Atomicity
import CueRouter.Proofs.Dispatch.Controlled
import CueRouter.Proofs.Value.Number

/-!
# Checked writes and leaps

A checked write is refused where the number that was sent is too far from the value of the
variable. On whole numbers of 32 bits the check is exact. What is written is the number
that was sent, wrapped to the kind of the variable afterwards: an int and a long variable
never leap, but a byte does where a number next to its range wraps to the other end.
-/

namespace CueRouter.Router

open Binary

variable {router : Router} {event : Event} {handle : Handle} {kind : Kind} {c w : ℤ}
  {most : Nat}

/-- The event sets the variable, and no farther away than so much. -/
structure SetsWithin (router : Router) (handle : Handle) (w : ℤ) (most : Nat)
    (event : Event) : Prop where
  /-- The event sets a variable. -/
  type_eq : event.type = .setVariable
  /-- The event refers to the variable. -/
  refers : router.catalog.read event referenceField = .reference handle
  /-- The number that is sent. -/
  value_eq : (router.catalog.read event "value").number? = some (w : ℚ)
  /-- The jump is checked. -/
  checked : router.wholeIn event "maxjumpcheck" ≠ 0
  /-- The greatest jump. -/
  limit_eq : (router.catalog.read event "maxjump").number? = some (most : ℚ)

/-- The number is one of 32 bits. -/
def Short (n : ℤ) : Prop := -2 ^ 31 ≤ n ∧ n < 2 ^ 31

/-- A whole number of 32 bits is represented exactly. -/
theorem Short.natAbs_lt {n : ℤ} (short : Short n) : n.natAbs < Format.wholeLimit := by
  obtain ⟨low, high⟩ := short
  unfold Format.wholeLimit
  omega

/-- The real reading of a value that stands for a whole number of 32 bits is exact. -/
theorem toReal?_of_short {v : Value} (h : v.number? = some (c : ℚ)) (short : Short c) :
    ∃ x, v.toReal? = some x ∧ x.value? = some (c : ℚ) := by
  obtain ⟨x, hx, near⟩ := Value.exists_approximates h
  exact ⟨x, hx, near.value?_eq short.natAbs_lt⟩

/-- The check refuses the write exactly where the number is too far away. -/
theorem SetsWithin.isSome_refusedJump? (sets : router.SetsWithin handle w most event)
    (short : Short w) {store : Store} (holds : store.Holds handle kind c)
    (integer : kind.isInteger = true) (near : Short c) :
    (router.refusedJump? store event handle).isSome = true ↔ most < (w - c).natAbs := by
  obtain ⟨x, hx, hvalue⟩ := toReal?_of_short sets.value_eq short
  have number : (store.value handle).number? = some (c : ℚ) := by
    refine Value.number?_of_isInteger ?_ holds.whole?_value
    rw [holds.kind_value]
    exact integer
  obtain ⟨y, hy, hcurrent⟩ := toReal?_of_short number near
  obtain ⟨limit, hlimit, approximates⟩ := Value.exists_approximates
    (show _ = some ((most : ℤ) : ℚ) from sets.limit_eq)
  have small : (w - c).natAbs < Format.wholeLimit := by
    obtain ⟨low, high⟩ := short
    obtain ⟨least, greatest⟩ := near
    unfold Format.wholeLimit
    omega
  have difference := Double.value?_subtract hvalue hcurrent small
  have jump : jump? store handle (router.catalog.read event "value") =
      some (x.subtract y) := by
    unfold jump?
    rw [hx, hy]
    rfl
  unfold refusedJump?
  rw [if_neg sets.checked, jump, hlimit, Option.getD_some, Option.filter_some,
    ← Double.magnitudeExceeds_iff difference small approximates]
  cases (x.subtract y).magnitudeExceeds limit <;> simp

/-- The variables after a checked write that is carried out. -/
theorem SetsWithin.holds_controlled (sets : router.SetsWithin handle w most event)
    (short : Short w) {store : Store} (holds : store.Holds handle kind c)
    (integer : kind.isInteger = true) (near : Short c) :
    (router.controlled store event).Holds handle kind
      (if (w - c).natAbs ≤ most then kind.wrapped w else c) := by
  have target : (router.catalog.read event referenceField).toHandle? = some handle := by
    rw [sets.refers]
    rfl
  have whole : (router.catalog.read event "value").whole? = some w := by
    obtain ⟨low, high⟩ := short
    exact Value.whole?_of_number? sets.value_eq (by omega) (by omega)
  have refused := sets.isSome_refusedJump? short holds integer near
  obtain ⟨written, hset, after, -⟩ := holds.set integer whole
  unfold controlled Handling.final carryOut
  rw [sets.type_eq]
  dsimp only
  unfold setVariable
  rw [Handling.run_bind, run_referenceIn, target]
  dsimp only
  rw [Handling.run_bind]
  dsimp only [EStateM.run, get, getThe, MonadStateOf.get, EStateM.get]
  cases hjump : router.refusedJump? store event handle with
  | some jump =>
    rw [hjump, Option.isSome_some] at refused
    rw [if_neg (Nat.not_le.mpr (refused.mp rfl))]
    exact holds
  | none =>
    rw [hjump] at refused
    have within : (w - c).natAbs ≤ most := by
      by_contra far
      cases refused.mpr (Nat.lt_of_not_le far)
    have wrote := run_writeAt handle (router.catalog.read event "value")
      { store := store, pool := .ofCapacity 0, journal := {}, listeners := [],
        debug := false }
    unfold EStateM.run at wrote
    dsimp only
    rw [if_pos within, wrote, hset]
    exact after

/-- What a checked write leaves. The variable holds what it held, or the number that was
sent, wrapped to its kind. It does not leap if it is an int or a long variable, or a byte
that is sent a byte. It leaps exactly if it is a byte, the number that was sent is near
enough, and that number wrapped is not. -/
theorem holds_after_checkedSet (router : Router) (send : State → Event → State) (s : State)
    (event : Event) (handle : Handle) (kind : Kind) (c w : ℤ) (most : Nat)
    (integer : kind.isInteger = true) (holds : s.store.Holds handle kind c) (near : Short c)
    (short : Short w) (sets : router.SetsWithin handle w most event) :
    let goes := event.echo = false ∧ s.depth < router.depthLimit ∧ (w - c).natAbs ≤ most
    ∃ new, (router.dispatch send s event).store.Holds handle kind new ∧
      (goes → new = kind.wrapped w) ∧ (¬goes → new = c) ∧
      (kind ≠ .byte ∨ 0 ≤ w ∧ w ≤ 255 → (new - c).natAbs ≤ most) ∧
      ((new - c).natAbs ≤ most ↔
        ¬(kind = .byte ∧ goes ∧ most < (w % 256 - c).natAbs)) := by
  intro goes
  have kept : kind ≠ .byte ∨ 0 ≤ w ∧ w ≤ 255 → kind.wrapped w = w := by
    intro fits
    refine Kind.wrapped_of_fits ?_
    cases kind with
    | byte => exact fits.resolve_left fun other => other rfl
    | int => exact short
    | long => trivial
    | float | range | any | reference | invalid => cases integer
  have stays (new : ℤ) (same : ¬goes → new = c) (sent : goes → new = kind.wrapped w) :
      (kind ≠ .byte ∨ 0 ≤ w ∧ w ≤ 255 → (new - c).natAbs ≤ most) ∧
        ((new - c).natAbs ≤ most ↔
          ¬(kind = .byte ∧ goes ∧ most < (w % 256 - c).natAbs)) := by
    by_cases written : goes
    · rw [sent written]
      refine ⟨fun fits => by rw [kept fits]; exact written.2.2, ?_⟩
      by_cases byte : kind = .byte
      · subst byte
        simp [written, Kind.wrapped]
      · rw [kept (.inl byte)]
        exact iff_of_true written.2.2 fun leaps => byte leaps.1
    · rw [same written]
      have none : (c - c).natAbs ≤ most := by simp
      exact ⟨fun _ => none, iff_of_true none fun leaps => written leaps.2.1⟩
  have control : event.type.isControl = true := by
    rw [sets.type_eq]
    rfl
  by_cases reached : event.echo = false ∧ s.depth < router.depthLimit
  · obtain ⟨journal, announced, -⟩ :=
      router.announce_eq_silent { s with depth := s.depth + 1 } event
    have store : (router.dispatch send s event).store = router.controlled s.store event := by
      rw [dispatch_of_isControl control reached.1 reached.2, announced]
      exact store_control event _
    have after := sets.holds_controlled short holds integer near
    rw [← store] at after
    refine ⟨_, after, ?_, ?_, stays _ ?_ ?_⟩
    all_goals intro h
    · exact if_pos h.2.2
    · exact if_neg fun within => h ⟨reached.1, reached.2, within⟩
    · exact if_neg fun within => h ⟨reached.1, reached.2, within⟩
    · exact if_pos h.2.2
  · have store := router.store_dispatch_of_not reached send
    have unreached : ¬goes := fun h => reached ⟨h.1, h.2.1⟩
    rw [← store] at holds
    exact ⟨c, holds, fun h => absurd h unreached, fun _ => rfl,
      stays c (fun _ => rfl) fun h => absurd h unreached⟩

/-- A byte near its end, and an int. -/
def nearEndState : State where
  store :=
    { entries := [⟨"B", .owned ⟨.byte, .byte 250⟩⟩, ⟨"LEVEL", .owned ⟨.int, .int 50⟩⟩] }
  pool := .ofCapacity 4
  journal := {}
  listeners := []
  debug := false

/-- An event that sets a variable to an int, no farther away than ten. -/
def setWithinTen (handle : Handle) (n : Int32) : Event :=
  ⟨.setVariable, [.reference handle, .int n, .int 1, .float ⟨0x41200000⟩], false⟩

/-- The event is a checked write of the int. -/
theorem setsWithin_setWithinTen (handle : Handle) (n : Int32) :
    bareRouter.SetsWithin handle n.toInt 10 (setWithinTen handle n) where
  type_eq := rfl
  refers := rfl
  value_eq := by
    have read : bareRouter.catalog.read (setWithinTen handle n) "value" = .int n := rfl
    rw [read]
    exact Value.number?_of_isInteger rfl (Value.whole?_int n)
  checked := by
    have read : bareRouter.wholeIn (setWithinTen handle n) "maxjumpcheck" = 1 := rfl
    rw [read]
    decide
  limit_eq := by
    have read : bareRouter.catalog.read (setWithinTen handle n) "maxjump" =
        .float ⟨0x41200000⟩ := rfl
    have datum : (⟨0x41200000⟩ : Single).datum = .finite false 10485760 (-20) := by
      decide +kernel
    rw [read, Value.number?, datum]
    norm_num [Datum.value?, signed]

/-- An int at 50 goes to 60. -/
theorem holds_after_checkedSet_nearEndState :
    (bareRouter.dispatch (fun s _ => s) nearEndState (setWithinTen ⟨1⟩ 60)).store.Holds ⟨1⟩
      .int 60 := by
  obtain ⟨new, holds, goes, -⟩ := holds_after_checkedSet bareRouter (fun s _ => s)
    nearEndState (setWithinTen ⟨1⟩ 60) ⟨1⟩ .int 50 60 10 rfl
    ⟨"LEVEL", ⟨.int, .int 50⟩, rfl, rfl, rfl, by decide⟩ ⟨by decide, by decide⟩
    ⟨by decide, by decide⟩ (setsWithin_setWithinTen ⟨1⟩ 60)
  rw [goes ⟨rfl, by decide, by decide⟩] at holds
  exact holds

/-- Not every checked write stays near: a byte at 250 that is sent 256, no farther away
than ten, is 0 afterwards. -/
theorem not_checkedSet_near :
    ¬∀ (router : Router) (send : State → Event → State) (s : State) (event : Event)
      (handle : Handle) (kind : Kind) (c w : ℤ) (most : Nat),
      kind.isInteger = true → s.store.Holds handle kind c → Short c → Short w →
      router.SetsWithin handle w most event →
      ∀ new, (router.dispatch send s event).store.Holds handle kind new →
        (new - c).natAbs ≤ most := by
  intro all
  have byte : nearEndState.store.Holds ⟨0⟩ .byte 250 :=
    ⟨"B", ⟨.byte, .byte 250⟩, rfl, rfl, rfl, by decide⟩
  have wrapped : (bareRouter.dispatch (fun s _ => s) nearEndState
      (setWithinTen ⟨0⟩ 256)).store.get? ⟨0⟩ = some ⟨"B", .owned ⟨.byte, .byte 0⟩⟩ := by
    decide +kernel
  have far := all bareRouter (fun s _ => s) nearEndState (setWithinTen ⟨0⟩ 256) ⟨0⟩ .byte 250
    256 10 rfl byte ⟨by decide, by decide⟩ ⟨by decide, by decide⟩
    (setsWithin_setWithinTen ⟨0⟩ 256) 0 ⟨"B", _, wrapped, rfl, rfl, by decide⟩
  exact absurd far (by decide)

end CueRouter.Router
