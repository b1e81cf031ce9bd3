import CueRouter.Proofs.Variable.Naming
import CueRouter.Proofs.Variable.Whole

/-!
# Reading what was stored

A write goes through exactly to a declared variable with a cell of its own, with a value
that converts to its kind. The variable then reads as that conversion, bit for bit, and
every other variable as before. So a variable with a cell of its own reads as what was
stored in it last, whatever else the store was used for in between, and as its first
value if nothing was.
-/

namespace CueRouter

/-- A cell of a kind that can be declared starts with the conversion of its first value,
or with the zero of the kind where that does not convert. -/
theorem Cell.content_ofKind {kind : Kind} (declarable : kind.isDeclarable = true)
    (initial : Value) : (ofKind kind initial).content =
      if (initial.convert kind).isValid then initial.convert kind else kind.zero := by
  have content : (ofKind kind initial).content = kind.keep (initial.convert kind) := rfl
  rw [content]
  rcases initial.kind_convert (Store.ne_any_of_isDeclarable declarable) with same | refused
  · have valid : (initial.convert kind).isValid = true := by
      rw [Value.isValid, same]
      cases kind <;> first | rfl | cases declarable
    rw [if_pos valid, Kind.keep_of_kind same (Kind.fitsWord_convert declarable initial)]
  · rw [refused, if_neg (by decide), Kind.keep_invalid declarable]

namespace Store

open Text

variable {store : Store} {handle : Handle} {kind : Kind}

/-! ## One write -/

/-- A write goes through exactly to a variable with a cell of its own to whose kind the
value converts. -/
theorem exists_set_eq_ok_iff {value stored : Value} :
    (∃ written, store.set handle value = .ok written ∧ written.stored = stored) ↔
      ∃ kind, store.Owns handle kind ∧ stored = value.convert kind ∧ stored ≠ .invalid := by
  constructor
  · rintro ⟨written, hset, rfl⟩
    obtain ⟨name, cell, hget, accepted, rfl⟩ := set_eq_ok.mp hset
    exact ⟨cell.kind, ⟨name, cell, hget, rfl⟩, rfl, Value.isValid_iff.mp accepted⟩
  · rintro ⟨_, ⟨name, cell, hget, rfl⟩, rfl, valid⟩
    exact ⟨_, set_eq_ok.mpr ⟨name, cell, hget, Value.isValid_iff.mpr valid, rfl⟩, rfl⟩

/-- A write that goes through keeps the values of all other variables. -/
theorem value_of_set_of_ne {value : Value} {written : Written} {other : Handle}
    (h : store.set handle value = .ok written) (apart : other ≠ handle) :
    written.store.value other = store.value other := by
  obtain ⟨name, cell, -, -, rfl⟩ := set_eq_ok.mp h
  exact value_withStorage_of_ne store apart _

/-! ## Any uses -/

/-- A variable with a cell of its own is no system variable. -/
theorem Owns.isSystem {v : Variable} (owns : store.Owns handle kind)
    (hget : store.get? handle = some v) : v.isSystem = false := by
  obtain ⟨name, cell, howned, -⟩ := owns
  cases howned.symm.trans hget
  rfl

/-- The value of a variable with a cell of its own depends on that variable only. -/
theorem Owns.value_congr {other : Store} (owns : other.Owns handle kind)
    (same : other.get? handle = store.get? handle) :
    other.value handle = store.value handle := by
  obtain ⟨name, cell, hget, -⟩ := owns
  rw [value_of_owned hget, value_of_owned (same.symm.trans hget)]

/-- What a use stores in the variable at a handle, if it is a write to that variable that
goes through. -/
def stored? (store : Store) (handle : Handle) : Use → Option Value
  | .set target value =>
    if target = handle then (store.set target value).toOption.map Written.stored else none
  | .call _ | .share _ | .publish _ _ => none

/-- What was stored last in the variable at a handle. -/
def lastStored? (store : Store) (handle : Handle) : List Use → Option Value
  | [] => none
  | use :: uses =>
    ((store.after use).lastStored? handle uses).or (store.stored? handle use)

/-- A call that leaves a variable its own cell leaves the variable as it was. -/
theorem get?_after_call {call : Call} {v : Variable} (hget : store.get? handle = some v)
    (owns : (store.after (.call call)).Owns handle kind) :
    (store.after (.call call)).get? handle = store.get? handle := by
  unfold after at owns ⊢
  dsimp only at owns ⊢
  cases hcall : call.outcome store with
  | error fault => rfl
  | ok declared =>
    rw [hcall] at owns
    rcases outcome_eq_ok hcall with ⟨storage, -, -, rfl, -⟩ | ⟨found, shared, -, -, rfl⟩
    · have inside := (List.getElem?_eq_some_iff.mp hget).1
      unfold get? push
      exact List.getElem?_append_left inside
    · by_cases same : handle = found
      · subst same
        obtain ⟨name, cell, howned, -⟩ := owns
        exact absurd howned (not_owned_withStorage_linked store handle shared name cell)
      · exact get?_withStorage_of_ne store same _

/-- A use that leaves a variable its own cell changes its value by storing another one
only. -/
theorem Sound.value_after (sound : store.Sound) {v : Variable}
    (hget : store.get? handle = some v) {use : Use}
    (owns : (store.after use).Owns handle kind) :
    (store.after use).value handle =
      (store.stored? handle use).getD (store.value handle) := by
  cases use with
  | call call => exact owns.value_congr (get?_after_call hget owns)
  | share cell => exact owns.value_congr rfl
  | publish shared value => exact owns.value_congr rfl
  | set target value =>
    unfold after stored?
    dsimp only
    cases hset : store.set target value with
    | error fault =>
      change store.value handle = (if target = handle then none else none).getD _
      rw [ite_self]
      rfl
    | ok written =>
      by_cases same : target = handle
      · rw [if_pos same, ← same]
        exact sound.value_of_set hset
      · rw [if_neg same]
        exact value_of_set_of_ne hset (Ne.symm same)

/-- However a store is used, a variable that is left with a cell of its own reads as what
was stored in it last, or as before. -/
theorem Built.value_afterAll (built : store.Built) {v : Variable}
    (hget : store.get? handle = some v) (uses : List Use)
    (owns : (store.afterAll uses).Owns handle kind) :
    (store.afterAll uses).value handle =
      (store.lastStored? handle uses).getD (store.value handle) := by
  induction uses generalizing store v with
  | nil => rfl
  | cons use uses ih =>
    obtain ⟨storage, hnext, -⟩ := get?_after hget use
    have later := ih (built.after use) hnext owns
    cases storage with
    | linked shared =>
      obtain ⟨last, hlast, -, system⟩ := get?_afterAll hnext uses
      cases (owns.isSystem hlast).symm.trans (system rfl)
    | owned cell =>
      have now := built.sound.value_after hget ⟨v.name, cell, hnext, rfl⟩
      change ((store.after use).afterAll uses).value handle = _
      rw [later, now, lastStored?, Option.getD_or]

/-- A variable that was just declared reads as its first value converted to its kind, or
as the zero of the kind where that does not convert. -/
theorem value_of_declareValue {name : String} {initial : Value} {declared : Declared}
    (h : store.declareValue name kind initial = .ok declared) :
    declared.store.Owns declared.handle kind ∧
      declared.store.value declared.handle =
        if (initial.convert kind).isValid then initial.convert kind else kind.zero := by
  obtain ⟨-, declarable, -, rfl⟩ := declareValue_eq_ok.mp h
  have added : (store.push ⟨trim name, .owned (.ofKind kind initial)⟩).get? ⟨store.size⟩ =
      some ⟨trim name, .owned (.ofKind kind initial)⟩ := List.getElem?_concat_length
  refine ⟨⟨_, _, added, rfl⟩, ?_⟩
  rw [value_of_owned added]
  exact Cell.content_ofKind declarable initial

/-- What is read is what was stored last. A write goes through exactly if the variable has
a cell of its own, to whose kind the value converts. It stores that conversion, and
otherwise it changes nothing. However the store is used after that, a variable with a cell
of its own reads as what was stored in it last, or as before if nothing was. -/
theorem Built.value_eq_lastStored (built : store.Built) :
    (∀ handle value stored,
      (∃ written, store.set handle value = .ok written ∧ written.stored = stored) ↔
        ∃ kind, store.Owns handle kind ∧ stored = value.convert kind ∧ stored ≠ .invalid) ∧
    (∀ handle value written, store.set handle value = .ok written →
      written.store.value handle = written.stored ∧
      (∀ other, written.store.outline? other = store.outline? other) ∧
      ∀ other, other ≠ handle → written.store.value other = store.value other) ∧
    (∀ handle value fault, store.set handle value = .error fault →
      store.after (.set handle value) = store) ∧
    (∀ handle v uses kind, store.get? handle = some v →
      (store.afterAll uses).Owns handle kind →
      (store.afterAll uses).value handle =
        (store.lastStored? handle uses).getD (store.value handle)) ∧
    ∀ name kind initial declared, store.declareValue name kind initial = .ok declared →
      declared.store.Owns declared.handle kind ∧
      declared.store.value declared.handle =
        if (initial.convert kind).isValid then initial.convert kind else kind.zero := by
  refine ⟨fun _ _ _ => exists_set_eq_ok_iff, fun handle value written hset => ?_,
    fun handle value fault hset => ?_, fun handle v uses kind hget owns => ?_,
    fun name kind initial declared h => value_of_declareValue h⟩
  · exact ⟨built.sound.value_of_set hset, outline?_of_set hset,
      fun other apart => value_of_set_of_ne hset apart⟩
  · unfold Store.after
    dsimp only
    rw [hset]
  · exact built.value_afterAll hget uses owns

/-- A span and a byte are declared, and a system variable. -/
def splitUses : List Use :=
  [.call (.declare "SPLIT" "range" (some "36>59")), .call (.declare "LEVEL" "byte" none),
    .share (.ofValue (.int 3)), .call (.declareLinked "TEMPO" ⟨0⟩)]

/-- A span keeps both of its ends below zero where a failed write follows, a byte keeps
what is left of a larger number, and the system variable refuses its write. -/
theorem Built.value_eq_lastStored_splitUses :
    let store := Store.empty.afterAll splitUses
    let uses : List Use :=
      [.set ⟨0⟩ (.range ⟨-5, -70000⟩), .set ⟨1⟩ (.int 300), .set ⟨0⟩ .invalid,
        .set ⟨2⟩ (.int 9)]
    store.value ⟨0⟩ = .range ⟨36, 59⟩ ∧
    (store.afterAll uses).value ⟨0⟩ = .range ⟨-5, -70000⟩ ∧
    (store.afterAll uses).value ⟨1⟩ = .byte 44 ∧
    (∃ written, store.set ⟨1⟩ (.int 300) = .ok written ∧ written.stored = .byte 44) ∧
    ¬∃ written, store.set ⟨2⟩ (.int 9) = .ok written ∧ written.stored = .int 9 := by
  intro store uses
  have built : store.Built := Built.empty.afterAll splitUses
  obtain ⟨through, -, -, last, -⟩ := built.value_eq_lastStored
  have level : store.Owns ⟨1⟩ .byte := ⟨"LEVEL", ⟨.byte, .byte 0⟩, by decide +kernel, rfl⟩
  have split : (store.afterAll uses).Owns ⟨0⟩ .range :=
    ⟨"SPLIT", ⟨.range, .range ⟨-5, -70000⟩⟩, by decide +kernel, rfl⟩
  have narrow : (store.afterAll uses).Owns ⟨1⟩ .byte :=
    ⟨"LEVEL", ⟨.byte, .byte 44⟩, by decide +kernel, rfl⟩
  refine ⟨by decide +kernel, ?_, ?_, ?_, ?_⟩
  · rw [last ⟨0⟩ ⟨"SPLIT", .owned ⟨.range, .range ⟨36, 59⟩⟩⟩ uses .range
      (by decide +kernel) split]
    decide +kernel
  · rw [last ⟨1⟩ ⟨"LEVEL", .owned ⟨.byte, .byte 0⟩⟩ uses .byte (by decide +kernel) narrow]
    decide +kernel
  · exact (through ⟨1⟩ (.int 300) (.byte 44)).mpr ⟨.byte, level, by decide, by decide⟩
  · rw [through]
    rintro ⟨kind, ⟨name, cell, hget, -⟩, -⟩
    have linked : store.get? ⟨2⟩ = some ⟨"TEMPO", .linked ⟨0⟩⟩ := by decide +kernel
    cases linked.symm.trans hget

end Store

end CueRouter
