import Mathlib.Data.List.Find
import CueRouter.Proofs.Binding.Contents

/-!
# The hashed lookup is a linear search

After any sequence of compile calls, every bucket of the table holds the chains
of the declarations whose slot it is, whole and in the order of the calls. An
event therefore gets the answer of a search through all compiled declarations in
that order: the first with a bucket of its own whose conditions hold, and else
the first without one.
-/

namespace CueRouter

/-- Whether the slot is a bucket of its own. -/
def Slot.isIndexed : Slot → Bool
  | indexed _ => true
  | wildcard => false

namespace Compilation

/-- Whether all conditions of the first binding hold. -/
def headApplies (compilation : Compilation) (event : Event) (store : Store) : Bool :=
  compilation.bindings.head?.any fun head => head.applies event store

/-- Whether a compilation is for inputs of the event's type and all conditions of
its first binding hold. -/
def answers (compilation : Compilation) (event : Event) (store : Store) : Bool :=
  compilation.schema.type == event.type && compilation.headApplies event store

/-- The compilation that a search through all of them in order finds for an
event: the first with a bucket that answers, or else the first without one. -/
def search (compilations : List Compilation) (event : Event) (store : Store) :
    Option Compilation :=
  (compilations.find? fun c => c.slot.isIndexed && c.answers event store).or
    (compilations.find? fun c => !c.slot.isIndexed && c.answers event store)

/-- A compilation whose head applies has a chain, and its bindings are those of
the compilation. -/
theorem chain?_of_headApplies {compilation : Compilation} {event : Event}
    {store : Store} (h : compilation.headApplies event store = true) :
    compilation.chain?.map Chain.toList = some compilation.bindings := by
  unfold headApplies at h
  unfold chain?
  cases hb : compilation.bindings with
  | nil => rw [hb] at h; cases h
  | cons head tail => rfl

/-- The first chain whose head applies belongs to the first compilation whose
head does. -/
theorem find?_chainsOf (compilations : List Compilation) (type : EventType)
    (keep : Slot → Bool) (event : Event) (store : Store) :
    (chainsOf compilations type keep).find?
        (fun chain => chain.head.applies event store) =
      (compilations.find? fun c =>
        (c.schema.type == type && keep c.slot) && c.headApplies event store).bind
          chain? := by
  have heads : ∀ c : Compilation, (c.chain?.any fun chain =>
      chain.head.applies event store) = c.headApplies event store := by
    intro c
    unfold chain? headApplies
    cases c.bindings <;> rfl
  unfold chainsOf
  rw [List.find?_filterMap, List.find?_filter]
  simp only [heads, Bool.decide_and, Bool.decide_eq_true]

/-- A compilation that answers an event has a chain. -/
theorem exists_chain?_of_answers {c : Compilation} {event : Event} {store : Store}
    (h : c.answers event store = true) :
    ∃ chain, c.chain? = some chain ∧ chain.toList = c.bindings := by
  rw [answers, Bool.and_eq_true] at h
  exact Option.map_eq_some_iff.mp (chain?_of_headApplies h.2)

end Compilation

open Compilation

/-- Scanning a bucket finds the chain of the first compilation with that position
whose head applies. -/
theorem BucketSet.Holds.scan_eq {set : BucketSet} {schema : Schema}
    {compilations : List Compilation} (holds : set.Holds schema compilations)
    (number : Nat) (event : Event) (store : Store) :
    set.scan number event store =
      (compilations.find? fun c =>
        (c.schema.type == schema.type && set.position c.slot == number) &&
          c.headApplies event store).bind chain? := by
  unfold scan bucket
  rw [holds.run_eq, Chain.ofLinks_flatMap_links, find?_chainsOf]

/-- Where the chain of a compilation that answers an event lies: in the bucket
that the event selects, if it has one of its own. -/
def Compilation.MeetsIn (c : Compilation) (schema : Schema) (event : Event)
    (store : Store) : Prop :=
  c.answers event store = true → ∀ number, c.slot = .indexed number →
    ∃ spread n, BucketSet.spreadOf schema = some spread ∧
      (event.field spread.field).toWhole? = some n ∧
      number = bucketOf spread.buckets n

namespace BucketSet.Holds

variable {set : BucketSet} {schema : Schema} {compilations : List Compilation}
  {event : Event} {store : Store}

/-- Without an indexed field the only bucket holds every chain, and none has a
bucket of its own. -/
theorem find_eq_of_spread_none (holds : set.Holds schema compilations)
    (ht : schema.type = event.type) (hs : spreadOf schema = none)
    (meets : ∀ c ∈ compilations, c.MeetsIn schema event store) :
    set.find event store = .ok ((search compilations event store).bind chain?) := by
  have hspread : set.spread = none := by rw [holds.spread_eq, hs]
  have hprimary : set.primary event = .ok none := by simp [primary, hspread]
  have hindexed : (compilations.find? fun c =>
      c.slot.isIndexed && c.answers event store) = none := by
    rw [List.find?_eq_none]
    intro c hc h
    rw [Bool.and_eq_true] at h
    cases hslot : c.slot with
    | wildcard => simp [hslot, Slot.isIndexed] at h
    | indexed number =>
      obtain ⟨spread, n, hsome, -⟩ := meets c hc h.2 number hslot
      rw [hs] at hsome
      cases hsome
  have hwild : set.scan set.wildcard event store =
      (compilations.find? fun c => !c.slot.isIndexed && c.answers event store).bind
        chain? := by
    rw [holds.scan_eq]
    refine congrArg (Option.bind · chain?) (List.find?_congr fun c hc => ?_)
    rw [position_of_spread_none hspread, ht]
    have hno := List.find?_eq_none.mp hindexed c hc
    cases hi : c.slot.isIndexed with
    | false => simp [answers]
    | true =>
      rw [hi, Bool.true_and, answers] at hno
      simpa using hno
  unfold find
  rw [hprimary, search, hindexed, Option.none_or, ← hwild]
  rfl

/-- With an indexed field, the bucket that the event selects answers as the chains
with a bucket of their own do. -/
theorem scan_selected (holds : set.Holds schema compilations)
    (ht : schema.type = event.type) {spread : Spread} {n : Int64}
    (hs : spreadOf schema = some spread) (hpos : 0 < spread.buckets)
    (hn : (event.field spread.field).toWhole? = some n)
    (meets : ∀ c ∈ compilations, c.MeetsIn schema event store) :
    set.scan (bucketOf spread.buckets n) event store =
      (compilations.find? fun c => c.slot.isIndexed && c.answers event store).bind
        chain? := by
  have hspread : set.spread = some spread := by rw [holds.spread_eq, hs]
  have hlt := bucketOf_lt hpos n
  rw [holds.scan_eq]
  refine congrArg (Option.bind · chain?) (List.find?_congr fun c hc => ?_)
  rw [ht]
  cases ha : c.answers event store with
  | false =>
    rw [answers, Bool.and_eq_false_iff] at ha
    rcases ha with ha | ha <;> simp [ha]
  | true =>
    have hboth := ha
    rw [answers, Bool.and_eq_true] at hboth
    cases hslot : c.slot with
    | wildcard =>
      have hne : spread.buckets ≠ bucketOf spread.buckets n := by omega
      simp [Slot.isIndexed, wildcard_of_spread hspread, hne]
    | indexed number =>
      obtain ⟨other, m, hother, hm, rfl⟩ := meets c hc ha number hslot
      rw [hs] at hother
      cases hother
      rw [hn] at hm
      cases hm
      simp [Slot.isIndexed, position_indexed hspread hlt, hboth.1, hboth.2]

/-- With an indexed field, the wildcard bucket answers as the chains without a bucket
of their own do. -/
theorem scan_wildcard (holds : set.Holds schema compilations)
    (ht : schema.type = event.type) {spread : Spread}
    (hs : spreadOf schema = some spread) (hpos : 0 < spread.buckets) :
    set.scan set.wildcard event store =
      (compilations.find? fun c => !c.slot.isIndexed && c.answers event store).bind
        chain? := by
  have hspread : set.spread = some spread := by rw [holds.spread_eq, hs]
  rw [holds.scan_eq]
  refine congrArg (Option.bind · chain?) (List.find?_congr fun c hc => ?_)
  rw [ht]
  cases hslot : c.slot with
  | wildcard => simp [Slot.isIndexed, answers]
  | indexed number =>
    have hne : set.position (.indexed number) ≠ set.wildcard :=
      Nat.ne_of_lt (position_indexed_lt_wildcard hspread hpos number)
    simp [Slot.isIndexed, hne]

/-- With an indexed field, the bucket that the event selects holds every chain
with a bucket of its own that answers, and the wildcard bucket those without. -/
theorem find_eq_of_spread_some (holds : set.Holds schema compilations)
    (ht : schema.type = event.type) {spread : Spread} {n : Int64}
    (hs : spreadOf schema = some spread) (hpos : 0 < spread.buckets)
    (hscalar : (event.field spread.field).isScalar = true)
    (hn : (event.field spread.field).toWhole? = some n)
    (meets : ∀ c ∈ compilations, c.MeetsIn schema event store) :
    set.find event store = .ok ((search compilations event store).bind chain?) := by
  have hspread : set.spread = some spread := by rw [holds.spread_eq, hs]
  have hprimary := primary_eq_some hspread hscalar hn
  have hselected := holds.scan_selected ht hs hpos hn meets
  have hwild : set.scan set.wildcard event store = _ :=
    holds.scan_wildcard ht hs hpos
  unfold find
  rw [hprimary, search]
  simp only [bind, Except.bind, pure, Except.pure, Option.bind_some, hselected, hwild]
  cases hfirst : compilations.find? fun c =>
      c.slot.isIndexed && c.answers event store with
  | none => rfl
  | some c =>
    have hfound := List.find?_some hfirst
    rw [Bool.and_eq_true] at hfound
    obtain ⟨chain, hchain, -⟩ := exists_chain?_of_answers hfound.2
    rw [Option.bind_some, hchain, Option.some_or, Option.some_or, Option.bind_some,
      hchain]

end BucketSet.Holds

namespace Compiler

variable {compiler : Compiler} {calls : List Call} {event : Event} {store : Store}

/-- What calls compile to is what one of them compiles to. -/
theorem mem_compilations {c : Compilation} :
    c ∈ compiler.compilations calls ↔ ∃ call ∈ calls,
      compiler.compile call.declaration call.interfaceId = .ok c := by
  unfold compilations
  rw [List.mem_filterMap]
  refine exists_congr fun call => and_congr_right fun _ => ?_
  cases compiler.compile call.declaration call.interfaceId <;> simp [Except.toOption]

/-- What calls compile to meets the events that it answers in their bucket. -/
theorem meetsIn_of_mem_compilations (built : compiler.catalog.Built)
    (noFloat : ∀ call ∈ calls, compiler.ComparesNoFloat call.declaration)
    (whole : ∀ field ∈ (compiler.catalog.schema event.type).indexedField?,
      (event.field field.index).isWhole = true)
    {c : Compilation} (hc : c ∈ compiler.compilations calls) :
    c.MeetsIn (compiler.catalog.schema event.type) event store := by
  intro ha number hslot
  obtain ⟨call, hcall, hcompile⟩ := mem_compilations.mp hc
  rw [answers, Bool.and_eq_true, beq_iff_eq] at ha
  obtain ⟨ht, ha⟩ := ha
  rw [headApplies, Option.any_eq_true] at ha
  obtain ⟨head, hhead, happlies⟩ := ha
  have hschema : c.schema = compiler.catalog.schema event.type := by
    rw [schema_eq_of_compile built hcompile, ht]
  obtain ⟨field, count, hi, hcount, -⟩ := indexedField?_of_slot built hcompile hslot
  have hw : (event.field field.index).isWhole = true := by
    rw [hschema] at hi
    exact whole field hi
  obtain ⟨other, n, hother, hn, hnumber⟩ := slot_of_applies built (noFloat call hcall)
    hcompile hslot hhead happlies hi hw
  rw [hcount] at hother
  cases hother
  rw [hschema] at hi
  exact ⟨_, n, BucketSet.spreadOf_eq_some hi hcount, hn, hnumber⟩

/-- A search that finds a compilation finds one that answers. -/
theorem answers_of_search {compilations : List Compilation} {c : Compilation}
    (h : search compilations event store = some c) :
    c.answers event store = true := by
  rw [search, Option.or_eq_some_iff] at h
  rcases h with h | ⟨-, h⟩
  · have found := List.find?_some h
    rw [Bool.and_eq_true] at found
    exact found.2
  · have found := List.find?_some h
    rw [Bool.and_eq_true] at found
    exact found.2

/-- A search finds one of the compilations. -/
theorem mem_of_search {compilations : List Compilation} {c : Compilation}
    (h : search compilations event store = some c) : c ∈ compilations := by
  rw [search, Option.or_eq_some_iff] at h
  rcases h with h | ⟨-, h⟩
  · exact List.mem_of_find?_eq_some h
  · exact List.mem_of_find?_eq_some h

/-- Where one of the compilations answers, a search finds one. -/
theorem exists_search_of_answers {compilations : List Compilation} {c : Compilation}
    (hc : c ∈ compilations) (answered : c.answers event store = true) :
    ∃ found, search compilations event store = some found := by
  rw [← Option.isSome_iff_exists, search, Option.isSome_or, Bool.or_eq_true,
    List.find?_isSome, List.find?_isSome]
  cases slot : c.slot.isIndexed with
  | true => exact .inl ⟨c, hc, by simp [slot, answered]⟩
  | false => exact .inr ⟨c, hc, by simp [slot, answered]⟩

/-- The bindings of the chain that a search finds are those of the compilation it
belongs to, none left out and none of another. -/
theorem map_toList_search (compilations : List Compilation) (event : Event)
    (store : Store) :
    ((search compilations event store).bind chain?).map Chain.toList =
      (search compilations event store).map Compilation.bindings := by
  cases h : search compilations event store with
  | none => rfl
  | some c =>
    obtain ⟨chain, hchain, hlist⟩ := exists_chain?_of_answers (answers_of_search h)
    rw [Option.bind_some, hchain, Option.map_some, Option.map_some, hlist]

/-- A table finds, for an event with a whole number in its indexed field, the chain that a
search through the compilations it holds finds. -/
theorem find_of_holds {table : Table} {catalog : Catalog} (built : catalog.Built)
    {compilations : List Compilation} (holds : table.Holds catalog compilations)
    (whole : ∀ field ∈ (catalog.schema event.type).indexedField?,
      (event.field field.index).isWhole = true)
    (meets : ∀ c ∈ compilations, c.MeetsIn (catalog.schema event.type) event store) :
    table.find event store = .ok ((search compilations event store).bind chain?) := by
  have htype := built.type_schema event.type
  unfold Table.find
  cases hset : table.sets.get event.type with
  | none =>
    dsimp only
    cases hsearch : search compilations event store with
    | none => rfl
    | some c =>
      have answered := answers_of_search hsearch
      rw [answers, Bool.and_eq_true, beq_iff_eq] at answered
      have nothing := holds.unset _ hset c (mem_of_search hsearch) answered.1
      rw [Option.bind_some, nothing]
  | some set =>
    have held := holds.set_holds _ _ hset
    dsimp only
    cases hi : (catalog.schema event.type).indexedField? with
    | none =>
      exact held.find_eq_of_spread_none htype (BucketSet.spreadOf_eq_none hi) meets
    | some field =>
      obtain ⟨count, hcount, hpos⟩ :=
        (built.lawful event.type).buckets_indexedField? hi
      obtain ⟨hscalar, n, hn⟩ := Value.toWhole?_of_isWhole (whole field hi)
      exact held.find_eq_of_spread_some htype (BucketSet.spreadOf_eq_some hi hcount)
        hpos hscalar hn meets

/-- The table finds, for an event with a whole number in its indexed field, the
chain that a search through all compilations finds. -/
theorem find_installAll (built : compiler.catalog.Built)
    (noFloat : ∀ call ∈ calls, compiler.ComparesNoFloat call.declaration)
    (whole : ∀ field ∈ (compiler.catalog.schema event.type).indexedField?,
      (event.field field.index).isWhole = true) (journal : Journal) :
    (compiler.installAll calls .empty journal).find event store =
      .ok ((search (compiler.compilations calls) event store).bind chain?) := by
  have holds := holds_installAll built calls journal
    (Table.holds_empty compiler.catalog)
  rw [List.nil_append] at holds
  exact find_of_holds built holds whole fun c hc =>
    meetsIn_of_mem_compilations built noFloat whole hc

/-- Hashed lookup is linear search: after any calls into an empty table, an event
with a whole number in its indexed field is answered by exactly the bindings of
the first compilation with a bucket whose head applies, and else of the first
without one. -/
theorem find_eq_search (compiler : Compiler) (built : compiler.catalog.Built)
    (calls : List Call)
    (noFloat : ∀ call ∈ calls, compiler.ComparesNoFloat call.declaration)
    (journal : Journal) (event : Event)
    (whole : ∀ field ∈ (compiler.catalog.schema event.type).indexedField?,
      (event.field field.index).isWhole = true) (store : Store) :
    ((compiler.installAll calls .empty journal).find event store).map
        (Option.map Chain.toList) =
      .ok ((search (compiler.compilations calls) event store).map
        Compilation.bindings) := by
  rw [find_installAll built noFloat whole journal]
  exact congrArg Except.ok (map_toList_search _ event store)

/-- Three calls on a subroutine call: a negative constant that shares its bucket
with a constant in range, and no condition at all. -/
def subroutineCalls : List Call :=
  [⟨⟨[("input", "go-sub"), ("conditions", "sub=0-1"),
      ("output", "set-master-volume")]⟩, 1⟩,
    ⟨⟨[("input", "go-sub"), ("output", "set-master-volume")]⟩, 1⟩,
    ⟨⟨[("input", "go-sub"), ("conditions", "sub=63"),
      ("output", "set-debug-mode")]⟩, 1⟩]

/-- The call of subroutine 63 meets the negative constant in its bucket, passes it
by, and is answered by the last call. -/
theorem find_eq_search_subroutineCalls :
    let compiler : Compiler := ⟨.standard 512, .empty, .exact []⟩
    let event : Event := ⟨.goSub, [.int 1, .int 63, .int 0, .int 0, .int 0], false⟩
    (∀ call ∈ subroutineCalls, compiler.ComparesNoFloat call.declaration) ∧
      (compiler.compilations subroutineCalls).map Compilation.slot =
        [.indexed 63, .wildcard, .indexed 63] ∧
      ((compiler.installAll subroutineCalls .empty {}).find event .empty).map
          (Option.map Chain.toList) =
        .ok (some [⟨⟨.setDebugMode, [.int 0], false⟩, false,
          [⟨.field 1 .int, .constant (.int 63)⟩, ⟨.field 0 .int, .constant (.int 1)⟩],
          []⟩]) := by
  intro compiler event
  have noFloat : ∀ call ∈ subroutineCalls, compiler.ComparesNoFloat call.declaration := by
    decide +kernel
  have whole : ∀ field ∈ (compiler.catalog.schema event.type).indexedField?,
      (event.field field.index).isWhole = true := by
    decide +kernel
  refine ⟨noFloat, by decide +kernel, ?_⟩
  rw [find_eq_search compiler (.standard 512) subroutineCalls noFloat {} event whole]
  exact congrArg Except.ok (by decide +kernel)

end Compiler

end CueRouter
