import CueRouter.Binding.Clause
import CueRouter.Event.Schema
import CueRouter.Proofs.Value.Ends
import CueRouter.Proofs.Variable.Storing

/-!
# Narrowing through wider kinds

A byte is below an int and a range, an int is below a range, and all of these are below a
long number. What a kind keeps of an integer depends only on what a wider kind keeps of it,
so converting to a wider kind first changes nothing. The one exception is a range with two
different ends, which has only its first end left after it was a long number. Hence a value
that is handed from field to variable to field, through kinds that never get wider, ends as
if it had been converted once.
-/

namespace CueRouter

namespace Kind

/-- The narrower kind keeps less of an integer than the wider one, or fewer integers. -/
inductive Below : (narrow wide : Kind) → Prop
  /-- A byte is below an int. -/
  | byte_int : Below byte int
  /-- A byte is below a range. -/
  | byte_range : Below byte range
  /-- A byte is below a long number. -/
  | byte_long : Below byte long
  /-- An int is below a range. -/
  | int_range : Below int range
  /-- An int is below a long number. -/
  | int_long : Below int long
  /-- A range is below a long number. -/
  | range_long : Below range long

variable {narrow wide kind : Kind}

theorem Below.trans {wider : Kind} (low : narrow.Below wide) (high : wide.Below wider) :
    narrow.Below wider := by
  cases low <;> cases high <;> constructor

/-- Only kinds with ends are below one another. -/
theorem Below.hasEnds (below : narrow.Below wide) :
    narrow.hasEnds = true ∧ wide.hasEnds = true := by
  cases below <;> exact ⟨rfl, rfl⟩

/-- The width of the narrower kind goes into that of the wider one. -/
theorem Below.modulus_dvd (below : narrow.Below wide) :
    (narrow.modulus : ℤ) ∣ wide.modulus := by
  cases below <;> decide

/-- Above a range there are single numbers only. -/
theorem Below.ne_range (below : narrow.Below wide) (range : narrow = .range) :
    wide ≠ .range := by
  cases below with
  | range_long => exact nofun
  | byte_int | byte_range | byte_long | int_range | int_long => cases range

/-- Reducing to a wider kind first changes nothing. -/
theorem Below.reduced_reduced (below : narrow.Below wide) (n : ℤ) :
    narrow.reduced (wide.reduced n) = narrow.reduced n :=
  reduced_eq_reduced_iff.mpr ((wide.reduced_modEq n).of_dvd below.modulus_dvd)

end Kind

namespace Value

variable {v w : Value} {narrow wide kind : Kind} {kinds : List Kind}

/-! ## Two conversions -/

/-- A failed result stays failed. -/
theorem convert_invalid (kind : Kind) : invalid.convert kind = invalid := by
  cases kind <;> rfl

/-- What is not numeric converts to no kind with ends. -/
theorem convert_of_toWhole?_eq_none (ends : kind.hasEnds = true) (h : v.toWhole? = none) :
    v.convert kind = invalid := by
  have other : v.kind ≠ kind := by
    rintro rfl
    exact toWhole?_ne_none_of_hasEnds ends h
  unfold convert viaWhole
  rw [if_neg other, h]
  cases kind <;> first | rfl | cases ends

/-- Converting to a kind a second time changes nothing. -/
theorem convert_convert_self (v : Value) (kind : Kind) :
    (v.convert kind).convert kind = v.convert kind := by
  by_cases special : kind = .any
  · subst special
    exact convert_any _
  · rcases v.kind_convert special with same | refused
    · exact (congrArg _ same.symm).trans (convert_kind _)
    · rw [refused, convert_invalid]

/-- A value with a single end has a single end in every kind. -/
theorem high_convert_eq_low (single : v.high = v.low) (kind : Kind) :
    (v.convert kind).high = (v.convert kind).low := by
  by_cases range : kind = .range
  · subst range
    by_cases numeric : v.toWhole? = none
    · rw [convert_of_toWhole?_eq_none rfl numeric]
      rfl
    · rw [convert_eq_make rfl numeric, high_make rfl, low_make rfl, single]
  · by_cases special : kind = .any
    · rwa [special, convert_any]
    · refine high_eq_low fun ranges => ?_
      rcases v.kind_convert special with same | refused
      · exact range (same.symm.trans ranges)
      · rw [refused] at ranges
        cases ranges

/-- Converting to a wider kind first changes nothing, except that a range which becomes a
range again has its second end replaced by the first one. -/
theorem convert_convert_iff (below : narrow.Below wide) (v : Value) :
    (v.convert wide).convert narrow = v.convert narrow ↔
      (narrow = .range → v.kind = .range → v.high = v.low) := by
  obtain ⟨narrowEnds, wideEnds⟩ := below.hasEnds
  by_cases unread : v.toWhole? = none
  · rw [convert_of_toWhole?_eq_none wideEnds unread,
      convert_of_toWhole?_eq_none narrowEnds unread, convert_invalid]
    refine iff_of_true rfl fun _ ranges => ?_
    have ends : v.kind.hasEnds = true := by rw [ranges]; rfl
    exact absurd unread (toWhole?_ne_none_of_hasEnds ends)
  · have made := convert_eq_make wideEnds unread
    have kinds : (v.convert wide).kind = wide := by rw [made, kind_make wideEnds]
    have low : (v.convert wide).low = wide.reduced v.low := by rw [made, low_make wideEnds]
    have numeric : (v.convert wide).toWhole? ≠ none :=
      toWhole?_ne_none_of_hasEnds (by rwa [kinds])
    rw [convert_eq_make narrowEnds unread, convert_eq_make narrowEnds numeric,
      make_eq_make_iff narrowEnds, low, and_iff_right (below.reduced_reduced _)]
    refine forall_congr' fun range => ?_
    have single : (v.convert wide).high = wide.reduced v.low := by
      rw [high_eq_low (by rw [kinds]; exact below.ne_range range), low]
    rw [single, below.reduced_reduced, range]
    by_cases ranges : v.kind = .range
    · have ends : v.kind.hasEnds = true := by rw [ranges]; rfl
      have first := reduced_low ends
      have second := reduced_high ranges
      rw [ranges] at first second
      rw [first, second, imp_iff_right ranges]
      exact eq_comm
    · rw [high_eq_low ranges]
      exact iff_of_true rfl fun ranges' => absurd ranges' ranges

/-! ## Any number of conversions -/

/-- A kind that comes after another is the same kind, or below it. -/
def Follows (wide narrow : Kind) : Prop := narrow = wide ∨ narrow.Below wide

/-- Converting to the kind before first changes nothing for a value with a single end. -/
theorem convert_convert_of_follows (follows : Follows wide narrow)
    (single : narrow = .range → v.kind = .range → v.high = v.low) :
    (v.convert wide).convert narrow = v.convert narrow := by
  rcases follows with rfl | below
  · exact convert_convert_self v _
  · exact (convert_convert_iff below v).mpr single

/-- The last of a chain of kinds follows the first. -/
theorem follows_getLast {first : Kind} (chain : (first :: kinds).IsChain Follows) :
    Follows first ((first :: kinds).getLast (List.cons_ne_nil _ _)) := by
  induction kinds generalizing first with
  | nil => exact .inl rfl
  | cons next kinds ih =>
    obtain ⟨step, rest⟩ := List.isChain_cons_cons.mp chain
    have last := ih rest
    rw [List.getLast_cons_cons]
    rcases last with same | below
    · rw [same]
      exact step
    · rcases step with rfl | above
      · exact .inr below
      · exact .inr (below.trans above)

/-- Converting from kind to kind down a chain is converting once to the last kind. -/
theorem foldl_convert_of_chain {first : Kind} (chain : (first :: kinds).IsChain Follows)
    (single : (first :: kinds).getLast (List.cons_ne_nil _ _) = .range → v.kind = .range →
      v.high = v.low) :
    (first :: kinds).foldl convert v =
      v.convert ((first :: kinds).getLast (List.cons_ne_nil _ _)) := by
  induction kinds generalizing first v with
  | nil => rfl
  | cons next kinds ih =>
    obtain ⟨-, rest⟩ := List.isChain_cons_cons.mp chain
    have remains : (next :: kinds).getLast (List.cons_ne_nil _ _) = .range →
        (v.convert first).kind = .range → (v.convert first).high = (v.convert first).low := by
      intro range _
      refine high_convert_eq_low ?_ first
      by_cases ranges : v.kind = .range
      · exact single range ranges
      · exact high_eq_low ranges
    have last := convert_convert_of_follows (follows_getLast chain) single
    rw [List.getLast_cons_cons] at last ⊢
    rw [List.foldl_cons, ih rest remains, last]

/-- The kind of any value changes nothing on the way. -/
theorem foldl_convert_filter (v : Value) (kinds : List Kind) :
    (kinds.filter fun kind => kind != .any).foldl convert v = kinds.foldl convert v := by
  rw [List.foldl_filter]
  refine congrArg (fun f => kinds.foldl f v) (funext fun v => funext fun kind => ?_)
  by_cases special : kind = .any
  · rw [special, convert_any]
    rfl
  · rw [if_pos (bne_iff_ne.mpr special)]

/-! ## Handing a value on -/

/-- A place of the kind was handed a value, and another value can be read there now. -/
inductive Handed (v : Value) (kind : Kind) : (read : Value) → Prop
  /-- A field of an event that is built by name. -/
  | built {schema : Schema} {event filled : Event} {name : String} {field : Field}
    (found : schema.find? name = some field) (same : field.kind = kind)
    (inside : field.index < event.fields.length)
    (done : schema.assign event (name, v) = .ok filled) :
    Handed v kind (filled.field field.index)
  /-- A field of an output that a clause assigns. -/
  | assigned {clause : Clause} {input output : Event} {store : Store} {index : ℕ}
    (target : clause.target = .field index kind)
    (value : clause.expression.evaluate input store = v)
    (inside : index < output.fields.length) :
    Handed v kind ((clause.assign input store output).field index)
  /-- A variable with a cell of its own, in a store that was built. -/
  | stored {store : Store} {handle : Handle} {written : Store.Written} (built : store.Built)
    (owns : store.Owns handle kind) (done : store.set handle v = .ok written) :
    Handed v kind (written.store.value handle)

/-- A value was handed from place to place, each of which has the kind of the list. -/
inductive HandedOn : (v : Value) → (kinds : List Kind) → (read : Value) → Prop
  /-- The value is where it started. -/
  | start (v : Value) : HandedOn v [] v
  /-- The value was handed to the first place, and what can be read there was handed on. -/
  | step {v w read : Value} {kind : Kind} {kinds : List Kind} (first : Handed v kind w)
    (rest : HandedOn w kinds read) : HandedOn v (kind :: kinds) read

/-- Every place converts what it is handed to its kind. -/
theorem Handed.eq_convert (handed : Handed v kind w) : w = v.convert kind := by
  cases handed with
  | @built schema event filled name field found same inside done =>
    unfold Schema.assign at done
    rw [found] at done
    cases done
    rw [Event.field_setField_self _ _ inside, same]
  | @assigned clause input output store index target value inside =>
    unfold Clause.assign
    rw [target]
    dsimp only
    rw [Event.field_setField_self _ _ inside, value]
  | @stored store handle written built owns done =>
    rw [built.sound.value_of_set done]
    obtain ⟨name, cell, hget, -, rfl⟩ := Store.set_eq_ok.mp done
    obtain ⟨other, found, hfound, rfl⟩ := owns
    cases hget.symm.trans hfound
    rfl

/-- A value that is handed from place to place is converted from kind to kind. -/
theorem HandedOn.eq_foldl (handed : HandedOn v kinds w) : w = kinds.foldl convert v := by
  induction handed with
  | start v => rfl
  | step first rest ih => rw [ih, first.eq_convert, List.foldl_cons]

/-- A variable with a cell of a kind with ends takes every numeric value. -/
theorem exists_set_of_numeric {store : Store} {handle : Handle}
    (owns : store.Owns handle kind) (ends : kind.hasEnds = true) (numeric : v.toWhole? ≠ none) :
    ∃ written, store.set handle v = .ok written := by
  obtain ⟨name, cell, hget, rfl⟩ := owns
  have valid : (cell.accepts v).isValid = true := by
    rw [isValid_iff, Cell.accepts, convert_eq_make ends numeric]
    exact make_ne_invalid ends _ _
  exact ⟨_, Store.set_eq_ok.mpr ⟨name, cell, hget, valid, rfl⟩⟩

/-- Narrowing through a wider kind is narrowing at once, but for a range with two
different ends that becomes a range again. A conversion yields the kind or fails, and a
second one changes nothing. So a value handed on, through kinds that each follow from the
one before, ends as if converted once. Variables take every numeric value. -/
theorem converted_once (v : Value) :
    (∀ narrow wide, narrow.Below wide →
      ((v.convert wide).convert narrow = v.convert narrow ↔
        (narrow = .range → v.kind = .range → v.high = v.low))) ∧
    (∀ kind, kind ≠ .any →
      ((v.convert kind).kind = kind ∨ v.convert kind = invalid) ∧
        (v.convert kind).convert kind = v.convert kind) ∧
    (∀ kinds last read, HandedOn v kinds read →
      (kinds.filter fun kind => kind != .any).IsChain Follows →
      (kinds.filter fun kind => kind != .any).getLast? = some last →
      (last = .range → v.kind = .range → v.high = v.low) → read = v.convert last) ∧
    ∀ store handle kind, Store.Owns store handle kind → kind.hasEnds = true →
      v.toWhole? ≠ none → ∃ written, store.set handle v = .ok written := by
  refine ⟨fun narrow wide below => convert_convert_iff below v,
    fun kind special => ⟨v.kind_convert special, v.convert_convert_self kind⟩,
    fun kinds last read handed chain final single => ?_,
    fun store handle kind owns ends numeric => exists_set_of_numeric owns ends numeric⟩
  rw [handed.eq_foldl, ← foldl_convert_filter]
  cases through : kinds.filter fun kind => kind != .any with
  | nil =>
    rw [through] at final
    cases final
  | cons first rest =>
    rw [through] at chain final
    rw [List.getLast?_eq_some_getLast (List.cons_ne_nil _ _)] at final
    cases final
    exact foldl_convert_of_chain chain single

/-- A float beyond 24 bits goes to a long field, from there to the field of an event that
takes any value, to an int variable and to a byte field. It ends as the byte that the float
itself converts to. A range does not come back from a long number as it was. -/
theorem converted_once_fourPlaces :
    (∃ read, HandedOn (float ⟨0x4b800001⟩) [.long, .any, .int, .byte] read ∧ read = byte 2) ∧
      ((range ⟨-5, 9⟩).convert .long).convert .range ≠ (range ⟨-5, 9⟩).convert .range := by
  let v := float ⟨0x4b800001⟩
  let clock := Schema.ofForms .midiClock [.plain "ticks" .long]
  let tick := clock.prototype.setField 0 (v.convert .long)
  let request := Event.mk .setVariable [.int 0] false
  let loop := Event.mk .triggerLoop [.byte 0] false
  let store := Store.empty.afterAll [.call (.declare "TEMPO" "int" none)]
  let copy : Clause := ⟨.field 0 .any, ⟨.field 0 .long, []⟩⟩
  let fetch : Clause := ⟨.field 0 .byte, ⟨.variableAt ⟨0⟩, []⟩⟩
  let asked := copy.assign tick store request
  have built : store.Built := Store.Built.empty.afterAll _
  have owns : store.Owns ⟨0⟩ .int := ⟨"TEMPO", ⟨.int, .int 0⟩, by decide +kernel, rfl⟩
  obtain ⟨written, done⟩ := exists_set_of_numeric (v := asked.field 0) owns rfl (by decide +kernel)
  have ticked : Handed v .long (tick.field 0) :=
    .built (show clock.find? "ticks" = some ⟨"ticks", 0, .long, none, false⟩ by decide) rfl
      (show 0 < clock.prototype.fields.length by decide) rfl
  have requested : Handed (tick.field 0) .any (asked.field 0) := .assigned rfl rfl (by decide)
  have fetched : Handed (written.store.value ⟨0⟩) .byte
      ((fetch.assign tick written.store loop).field 0) := .assigned rfl rfl (by decide)
  have handed := HandedOn.step ticked (.step requested
    (.step (.stored built owns done) (.step fetched (.start _))))
  obtain ⟨-, -, once, -⟩ := converted_once v
  refine ⟨⟨_, handed, ?_⟩, fun same => ?_⟩
  · rw [once _ .byte _ handed (.cons_cons (.inr .int_long) (.cons_cons (.inr .byte_int)
      (.singleton _))) rfl nofun]
    decide +kernel
  · have ends := ((converted_once (range ⟨-5, 9⟩)).1 .range .long .range_long).mp same rfl rfl
    revert ends
    decide

end Value

end CueRouter
