import CueRouter.Proofs.Dispatch.Atomicity
import CueRouter.Proofs.Dispatch.Controlled

/-!
# Splitting a number into two bytes

A split writes the two low bytes of a whole number into two variables, the higher byte
first. The bytes make up the number modulo 65536, of whatever sign the number is, and
they are those of the number as it was before the event: the variable that is split may
be one of the two that are written.
-/

namespace CueRouter.Router

/-! ## The two low bytes of a number -/

/-- The low eight bits of a number are its remainder. -/
theorem toInt_and_mask (n : Int64) : (n &&& 0xFF).toInt = n.toInt % 256 := by
  have bits : (n &&& 0xFF).toBitVec.toNat = n.toBitVec.toNat % 256 := by
    rw [Int64.toBitVec_and, BitVec.toNat_and]
    exact Nat.and_two_pow_sub_one_eq_mod _ 8
  have unsigned : n.toInt % 256 = (n.toBitVec.toNat : Int) % 256 := by
    have same := Int.bmod_emod (x := n.toBitVec.toNat) (m := 2 ^ 64)
    rw [show ((2 ^ 64 : Nat) : Int) = 18446744073709551616 from rfl] at same
    rw [← Int64.toInt_toBitVec, BitVec.toInt_eq_toNat_bmod]
    omega
  have low := Int.emod_nonneg (n.toBitVec.toNat : Int) (show (256 : Int) ≠ 0 by decide)
  have high := Int.emod_lt_of_pos (n.toBitVec.toNat : Int) (show (0 : Int) < 256 by decide)
  rw [unsigned, ← Int64.toInt_toBitVec, BitVec.toInt_eq_toNat_bmod, bits, Int.natCast_emod]
  exact Int.bmod_eq_of_le (by omega) (by omega)

/-- Shifting a number by eight bits divides it, rounding down. -/
theorem toInt_shiftRight_byte (n : Int64) : (n >>> 8).toInt = n.toInt / 256 := by
  have distance : (8 : Int64).toBitVec.smod 64 = 8#64 := by decide
  rw [← Int64.toInt_toBitVec, Int64.toBitVec_shiftRight, distance, BitVec.sshiftRight',
    BitVec.toInt_sshiftRight, Int.shiftRight_eq_div_pow]
  rfl

/-- A number that is a byte is kept by every narrower integer. -/
theorem toInt_toInt32_of_byte {n : Int64} (low : 0 ≤ n.toInt) (high : n.toInt < 256) :
    n.toInt32.toInt = n.toInt := by
  rw [Int64.toInt_toInt32]
  exact Int.bmod_eq_of_le (by omega) (by omega)

/-- The lower byte that a split writes. -/
def lowByte (n : Int64) : Value := .int (n &&& 0xFF).toInt32

/-- The lower byte is the remainder of the number. -/
theorem whole?_lowByte (n : Int64) : (lowByte n).whole? = some (n.toInt % 256) := by
  have value := toInt_and_mask n
  unfold lowByte
  rw [Value.whole?_int, toInt_toInt32_of_byte (by omega) (by omega), value]

/-- The higher byte is the remainder of the number without its lower byte. -/
theorem whole?_highByte (n : Int64) :
    (highByte n).whole? = some (n.toInt / 256 % 256) := by
  have value := toInt_and_mask (n >>> 8)
  rw [toInt_shiftRight_byte] at value
  unfold highByte
  rw [Value.whole?_int, toInt_toInt32_of_byte (by omega) (by omega), value]

/-- Every integer kind keeps a byte. -/
theorem wrapped_of_byte {kind : Kind} {n : Int} (low : 0 ≤ n) (high : n < 256) :
    kind.wrapped n = n := by
  apply Kind.wrapped_of_fits
  cases kind with
  | byte => exact ⟨low, by omega⟩
  | int => exact ⟨by omega, by omega⟩
  | long | float | range | any | reference | invalid => trivial

/-! ## Splits -/

/-- The event splits the source into the other two variables. -/
structure Splits (router : Router) (source high low : Handle) (event : Event) : Prop where
  /-- The event is a split. -/
  type_eq : event.type = .splitVariableMsbLsb
  /-- The event is no echo. -/
  plain : event.echo = false
  /-- The event refers to the variable that is split. -/
  source_eq : router.catalog.read event referenceField = .reference source
  /-- The event refers to the variable for the higher byte. -/
  high_eq : router.catalog.read event "msb" = .reference high
  /-- The event refers to the variable for the lower byte. -/
  low_eq : router.catalog.read event "lsb" = .reference low

variable {router : Router} {source high low : Handle} {highKind lowKind : Kind}
  {event : Event} {n : Int64}

/-- The steps of a split write the two bytes, and spare all other variables. -/
theorem Splits.run_carryOut (splits : router.Splits source high low event) {store : Store}
    (number : (store.value source).toWhole? = some n)
    (highOwned : store.Owns high highKind) (highInteger : highKind.isInteger = true)
    (lowOwned : store.Owns low lowKind) (lowInteger : lowKind.isInteger = true)
    (apart : high ≠ low) :
    ∃ written : Store, (∀ t : State, t.store = store →
        (router.carryOut event).run t = .ok () { t with store := written }) ∧
      written.Holds high highKind (n.toInt / 256 % 256) ∧
      written.Holds low lowKind (n.toInt % 256) ∧
      (∀ other, other ≠ high ∧ other ≠ low → written.get? other = store.get? other) ∧
      written.shared = store.shared := by
  obtain ⟨first, setHigh, holdsHigh, besideHigh, sharedHigh⟩ :=
    highOwned.set highInteger (whole?_highByte n)
  obtain ⟨second, setLow, holdsLow, besideLow, sharedLow⟩ :=
    (lowOwned.congr (besideHigh low apart.symm)).set lowInteger (whole?_lowByte n)
  rw [wrapped_of_byte (by omega) (by omega)] at holdsHigh holdsLow
  refine ⟨second.store, fun t same => ?_, holdsHigh.congr (besideLow high apart), holdsLow,
    fun other others => ?_, sharedLow.trans sharedHigh⟩
  · obtain ⟨name, cell, hget, accepts, rfl⟩ := Store.set_eq_ok.mp setHigh
    have writes : router.WritesHigh event t.store n high cell := by
      rw [same]
      refine ⟨splits.type_eq, ⟨source, ?_, number⟩, ?_, ⟨name, hget⟩, accepts⟩
      · rw [splits.source_eq]
        rfl
      · rw [splits.high_eq]
        rfl
    have target : (router.catalog.read event "lsb").toHandle? = some low := by
      rw [splits.low_eq]
      rfl
    rw [run_carryOut_of_writesHigh writes]
    unfold splitLow
    rw [Handling.run_bind, run_referenceIn, target]
    dsimp only
    unfold lowByte at setLow
    rw [run_writeAt]
    dsimp only
    rw [same, setLow]
  · rw [besideLow other others.2, besideHigh other others.1]

/-- Between two states nothing changes but two variables, nothing is reported, and in the
second one the two hold bytes that make up a number modulo 65536. -/
structure SplitInto (s : State) (high low : Handle) (highKind lowKind : Kind) (v : Int)
    (after : State) : Prop
    extends s.Undisturbed (fun other => other ≠ high ∧ other ≠ low) after where
  /-- Each variable holds a byte in its own kind, and the bytes make up the number. -/
  bytes : ∃ msb lsb : Int, after.store.Holds high highKind msb ∧
    after.store.Holds low lowKind lsb ∧ (0 ≤ msb ∧ msb ≤ 255) ∧ (0 ≤ lsb ∧ lsb ≤ 255) ∧
    256 * msb + lsb = v % 65536

/-- A split loses nothing of the low sixteen bits. Let a variable read as any number, and
let two variables own cells of integer kinds, the first among them or not. Then a split
leaves the number as it was before split into the two, whatever would broadcast. So does a
split that is broadcast, if listeners only record. -/
theorem holds_after_split (router : Router) (s : State) (source high low : Handle)
    (highKind lowKind : Kind) (v : Int) (event : Event)
    (splits : router.Splits source high low event)
    (number : (s.store.value source).whole? = some v)
    (highOwned : s.store.Owns high highKind) (highInteger : highKind.isInteger = true)
    (lowOwned : s.store.Owns low lowKind) (lowInteger : lowKind.isInteger = true)
    (apart : high ≠ low) (shallow : s.depth < router.depthLimit) :
    (∀ send : State → Event → State,
        SplitInto s high low highKind lowKind v (router.dispatch send s event)) ∧
      (s.OnlyRecords →
        SplitInto s high low highKind lowKind v (router.broadcast s event)) := by
  obtain ⟨n, hread, rfl⟩ := Option.map_eq_some_iff.mp number
  obtain ⟨written, steps, holdsHigh, holdsLow, others, shared⟩ :=
    splits.run_carryOut hread highOwned highInteger lowOwned lowInteger apart
  have control : event.type.isControl = true := by
    rw [splits.type_eq]
    rfl
  have split {after : State} (same : after.store = written)
      (touches : s.Spares (fun other => other ≠ high ∧ other ≠ low) after) :
      SplitInto s high low highKind lowKind n.toInt after := by
    refine ⟨touches.undisturbed,
      ⟨n.toInt / 256 % 256, n.toInt % 256, ?_, ?_, by omega, by omega, by omega⟩⟩
    · rw [same]
      exact holdsHigh
    · rw [same]
      exact holdsLow
  refine ⟨fun send => ?_, fun recorders => ?_⟩
  · obtain ⟨same, touches, -⟩ :=
      touches_dispatch control splits.plain shallow steps others shared send
    exact split same touches
  · obtain ⟨same, touches, listeners⟩ := touches_dispatch control splits.plain shallow steps
      others shared (router.sender s.pool.available)
    obtain ⟨kept, delivered, -⟩ := touches_deliver recorders touches listeners
    exact split (kept.trans same) delivered

/-- A long variable below zero, a byte, and another variable. -/
def belowZeroState : State where
  store :=
    { entries := [⟨"N", .owned ⟨.long, .long (-300)⟩⟩, ⟨"HI", .owned ⟨.byte, .byte 7⟩⟩,
        ⟨"OTHER", .owned ⟨.int, .int 7⟩⟩] }
  pool := .ofCapacity 4
  journal := {}
  listeners := [.recorder #[]]
  debug := true

/-- Minus three hundred is split into 254 and 212, the latter in place of the number. -/
theorem holds_after_split_belowZeroState :
    let split : Event :=
      ⟨.splitVariableMsbLsb, [.reference ⟨0⟩, .reference ⟨1⟩, .reference ⟨0⟩], false⟩
    let after := bareRouter.broadcast belowZeroState split
    bareRouter.Splits ⟨0⟩ ⟨1⟩ ⟨0⟩ split ∧ after.store.Holds ⟨1⟩ .byte 254 ∧
      after.store.Holds ⟨0⟩ .long 212 ∧ after.store.value ⟨2⟩ = .int 7 := by
  intro split after
  have splits : bareRouter.Splits ⟨0⟩ ⟨1⟩ ⟨0⟩ split :=
    ⟨rfl, rfl, by decide +kernel, by decide +kernel, by decide +kernel⟩
  obtain ⟨-, heard⟩ := holds_after_split bareRouter belowZeroState ⟨0⟩ ⟨1⟩ ⟨0⟩ .byte .long
    (-300) split splits (by decide) ⟨"HI", _, rfl, rfl⟩ rfl ⟨"N", _, rfl, rfl⟩ rfl
    (by decide) (by decide)
  obtain ⟨⟨-, others⟩, msb, lsb, holdsHigh, holdsLow, highByte, lowByte, sum⟩ :=
    heard fun listener member => ⟨#[], List.mem_singleton.mp member⟩
  obtain rfl : msb = 254 := by omega
  obtain rfl : lsb = 212 := by omega
  exact ⟨splits, holdsHigh, holdsLow, (others ⟨2⟩ (by decide)).2⟩

end CueRouter.Router
