import CueRouter.Proofs.Binding.Bucket

/-!
# What the table holds after any calls

Declarations are compiled into a table one call after another. Whatever the
calls, every bucket then holds exactly the chains of the compilations whose slot
has its position, whole and in the order of the calls; a type that no chain was
compiled for has no buckets.
-/

namespace CueRouter

namespace Compilation

/-- The chain that a compilation adds, unless all its outputs were rejected. -/
def chain? (compilation : Compilation) : Option Chain :=
  Chain.ofList? compilation.bindings

/-- The chains that compilations add for inputs of a type, of those whose slot is
to be kept, in order. -/
def chainsOf (compilations : List Compilation) (type : EventType)
    (keep : Slot → Bool) : List Chain :=
  (compilations.filter fun c => c.schema.type == type && keep c.slot).filterMap
    chain?

/-- The chains of two lists of compilations lie behind one another. -/
theorem chainsOf_append (first second : List Compilation) (type : EventType)
    (keep : Slot → Bool) :
    chainsOf (first ++ second) type keep =
      chainsOf first type keep ++ chainsOf second type keep := by
  simp only [chainsOf, List.filter_append, List.filterMap_append]

/-- A compilation adds its chain for its own type where its slot is kept. -/
theorem chainsOf_singleton (c : Compilation) (type : EventType) (keep : Slot → Bool) :
    chainsOf [c] type keep =
      if c.schema.type = type ∧ keep c.slot = true then c.chain?.toList else [] := by
  unfold chainsOf
  by_cases h : c.schema.type = type ∧ keep c.slot = true
  · rw [if_pos h, List.filter_cons, if_pos (by simpa using h)]
    cases hc : c.chain? <;> simp [hc]
  · rw [if_neg h, List.filter_cons, if_neg (by simpa using h)]
    rfl

/-- A compilation for another type, or without a chain, adds nothing. -/
theorem chainsOf_concat {compilations : List Compilation} {c : Compilation}
    {type : EventType} (h : c.schema.type = type → c.chain? = none)
    (keep : Slot → Bool) :
    chainsOf (compilations ++ [c]) type keep = chainsOf compilations type keep := by
  rw [chainsOf_append, chainsOf_singleton]
  split
  · next kept => simp [h kept.1]
  · exact List.append_nil _

/-- The bindings of a compilation, marked, are the links of its chain. -/
theorem linksOf_bindings (compilation : Compilation) :
    Chain.linksOf compilation.bindings =
      compilation.chain?.toList.flatMap Chain.links := by
  unfold chain?
  cases compilation.bindings with
  | nil => rfl
  | cons head tail => simp [Chain.ofList?, Chain.links, Chain.toList]

/-- What is known of a compilation against a catalog. -/
structure Fits (compilation : Compilation) (catalog : Catalog) : Prop where
  /-- Its schema is the one the catalog keeps. -/
  schema_eq : compilation.schema = catalog.schema compilation.schema.type
  /-- Its bucket is one of those of the indexed field. -/
  slot_lt : ∀ number, compilation.slot = .indexed number →
    ∃ spread, BucketSet.spreadOf compilation.schema = some spread ∧
      number < spread.buckets

end Compilation

open Compilation

/-! ## The buckets of one type -/

/-- The buckets of a type hold the chains of the compilations for it, each in the
bucket of its slot. -/
structure BucketSet.Holds (set : BucketSet) (schema : Schema)
    (compilations : List Compilation) : Prop where
  /-- The type is spread as its schema says. -/
  spread_eq : set.spread = spreadOf schema
  /-- There is a bucket for every position. -/
  size_eq : set.buckets.size = set.wildcard + 1
  /-- A bucket holds the chains whose slot has its position. -/
  run_eq : ∀ number, set.run number =
    (chainsOf compilations schema.type fun slot =>
      set.position slot == number).flatMap Chain.links

/-- The position of a compilation is one of the buckets. -/
theorem BucketSet.Holds.position_lt {set : BucketSet} {compilations : List Compilation}
    {compilation : Compilation} {catalog : Catalog}
    (holds : set.Holds compilation.schema compilations)
    (fits : compilation.Fits catalog) :
    set.position compilation.slot < set.buckets.size := by
  rw [holds.size_eq]
  cases hs : compilation.slot with
  | wildcard => exact Nat.lt_succ_self _
  | indexed number =>
    obtain ⟨spread, hspread, hlt⟩ := fits.slot_lt number hs
    rw [← holds.spread_eq] at hspread
    rw [position_indexed hspread hlt, wildcard_of_spread hspread]
    omega

/-- New buckets hold nothing. -/
theorem BucketSet.holds_ofSchema (schema : Schema) (compilations : List Compilation)
    (h : ∀ c ∈ compilations, c.schema.type = schema.type → c.chain? = none) :
    (ofSchema schema).Holds schema compilations where
  spread_eq := rfl
  size_eq := by simp [ofSchema, wildcard]
  run_eq number := by
    have nothing (keep : Slot → Bool) :
        chainsOf compilations schema.type keep = [] := by
      unfold chainsOf
      rw [List.filterMap_eq_nil_iff]
      intro c hc
      obtain ⟨hm, ht⟩ := List.mem_filter.mp hc
      simp only [Bool.and_eq_true, beq_iff_eq] at ht
      exact h c hm ht.1
    rw [nothing, List.flatMap_nil]
    unfold run ofSchema
    simp only [Array.getElem?_replicate]
    split <;> rfl

/-- Adding the bindings of a compilation to the bucket of its slot adds its
chain. -/
theorem BucketSet.Holds.push {set : BucketSet} {catalog : Catalog}
    {compilations : List Compilation} {c : Compilation}
    (holds : set.Holds c.schema compilations) (fits : c.Fits catalog) :
    (set.push (set.position c.slot) (Chain.linksOf c.bindings)).Holds c.schema
      (compilations ++ [c]) where
  spread_eq := holds.spread_eq
  size_eq := by
    have size := holds.size_eq
    simp only [BucketSet.push, Array.size_modify]
    exact size
  run_eq number := by
    rw [run_push _ _ _ _ (holds.position_lt fits), holds.run_eq, chainsOf_append,
      List.flatMap_append, chainsOf_singleton]
    refine congrArg (_ ++ ·) ?_
    by_cases hn : number = set.position c.slot
    · have same : (set.push (set.position c.slot)
          (Chain.linksOf c.bindings)).position c.slot = number := hn.symm
      rw [if_pos hn, if_pos ⟨rfl, beq_iff_eq.mpr same⟩, linksOf_bindings]
    · have apart : (set.push (set.position c.slot)
          (Chain.linksOf c.bindings)).position c.slot ≠ number := Ne.symm hn
      rw [if_neg hn, if_neg fun h => apart (beq_iff_eq.mp h.2)]
      rfl

/-- A compilation that adds no chain for the type changes nothing. -/
theorem BucketSet.Holds.concat {set : BucketSet} {schema : Schema}
    {compilations : List Compilation} {c : Compilation}
    (holds : set.Holds schema compilations)
    (h : c.schema.type = schema.type → c.chain? = none) :
    set.Holds schema (compilations ++ [c]) where
  spread_eq := holds.spread_eq
  size_eq := holds.size_eq
  run_eq number := by rw [holds.run_eq, chainsOf_concat h]

/-! ## The whole table -/

/-- The table holds the compilations: what is kept for a type holds those for it,
and nothing is kept for a type without chains. -/
structure Table.Holds (table : Table) (catalog : Catalog)
    (compilations : List Compilation) : Prop where
  /-- The buckets of a type hold the compilations for it. -/
  set_holds : ∀ type set, table.sets.get type = some set →
    set.Holds (catalog.schema type) compilations
  /-- A type without buckets has no chains. -/
  unset : ∀ type, table.sets.get type = none →
    ∀ c ∈ compilations, c.schema.type = type → c.chain? = none

/-- An empty table holds no compilations. -/
theorem Table.holds_empty (catalog : Catalog) : empty.Holds catalog [] where
  set_holds type set h := by simp [empty] at h
  unset type h c hc := by cases hc

/-- The buckets of a type hold the compilations for it, whether they are there
already or made for the purpose. -/
theorem Table.Holds.setFor {table : Table} {catalog : Catalog}
    {compilations : List Compilation} (holds : table.Holds catalog compilations)
    {schema : Schema} (hs : schema = catalog.schema schema.type) :
    (table.setFor schema).Holds schema compilations := by
  unfold Table.setFor
  cases ht : table.sets.get schema.type with
  | none => exact BucketSet.holds_ofSchema schema _ (holds.unset _ ht)
  | some set =>
    have kept := holds.set_holds _ _ ht
    rw [← hs] at kept
    exact kept

/-- A compilation without a chain is held by the table as it is. -/
theorem Table.Holds.concat {table : Table} {catalog : Catalog}
    {compilations : List Compilation} {c : Compilation}
    (holds : table.Holds catalog compilations) (h : c.chain? = none) :
    table.Holds catalog (compilations ++ [c]) where
  set_holds type set hs := (holds.set_holds type set hs).concat fun _ => h
  unset type hs other hm ht := by
    rcases List.mem_append.mp hm with hm | hm
    · exact holds.unset type hs other hm ht
    · rw [List.mem_singleton.mp hm]
      exact h

/-- Inserting the bindings of a compilation adds its chain. -/
theorem Table.Holds.insert {table : Table} {catalog : Catalog}
    {compilations : List Compilation} {c : Compilation}
    (built : catalog.Built) (holds : table.Holds catalog compilations)
    (fits : c.Fits catalog) :
    (table.insert c.schema c.slot c.bindings).Holds catalog (compilations ++ [c]) where
  set_holds type set hs := by
    unfold Table.insert at hs
    dsimp only at hs
    by_cases ht : type = c.schema.type
    · subst ht
      rw [ByType.get_set_self] at hs
      cases hs
      rw [← fits.schema_eq]
      exact (holds.setFor fits.schema_eq).push fits
    · rw [ByType.get_set_of_ne _ _ ht] at hs
      refine (holds.set_holds type set hs).concat fun same => ?_
      rw [built.type_schema] at same
      exact absurd same.symm ht
  unset type hs other hm ht := by
    unfold Table.insert at hs
    dsimp only at hs
    by_cases htype : type = c.schema.type
    · subst htype
      rw [ByType.get_set_self] at hs
      cases hs
    · rw [ByType.get_set_of_ne _ _ htype] at hs
      rcases List.mem_append.mp hm with hm | hm
      · exact holds.unset type hs other hm ht
      · rw [List.mem_singleton.mp hm] at ht
        exact absurd ht.symm htype

namespace Compiler

/-- A call of the compiler. -/
structure Call where
  /-- The declaration to compile. -/
  declaration : Declaration
  /-- The interface it is made under. -/
  interfaceId : Int32

/-- The table after calls in order. -/
def installAll (compiler : Compiler) : List Call → Table → Journal → Table
  | [], table, _ => table
  | call :: calls, table, journal =>
    let installed := compiler.install table journal call.declaration call.interfaceId
    compiler.installAll calls installed.table installed.journal

/-- What calls compile to, in order, without the declarations that are rejected. -/
def compilations (compiler : Compiler) (calls : List Call) : List Compilation :=
  calls.filterMap fun call =>
    (compiler.compile call.declaration call.interfaceId).toOption

variable {compiler : Compiler}

/-- A compilation fits the catalog it was compiled against. -/
theorem fits_of_compile (built : compiler.catalog.Built) {declaration : Declaration}
    {interfaceId : Int32} {c : Compilation}
    (h : compiler.compile declaration interfaceId = .ok c) :
    c.Fits compiler.catalog where
  schema_eq := schema_eq_of_compile built h
  slot_lt number hs := by
    obtain ⟨field, count, hi, hcount, hlt⟩ := indexedField?_of_slot built h hs
    exact ⟨_, BucketSet.spreadOf_eq_some hi hcount, hlt⟩

/-- One call adds what the declaration compiles to, or nothing. -/
theorem holds_install (built : compiler.catalog.Built) {table : Table}
    {before : List Compilation} (holds : table.Holds compiler.catalog before)
    (journal : Journal) (call : Call) :
    (compiler.install table journal call.declaration call.interfaceId).table.Holds
      compiler.catalog (before ++ compiler.compilations [call]) := by
  unfold install compilations
  cases hc : compiler.compile call.declaration call.interfaceId with
  | error fault => simpa [hc, Except.toOption] using holds
  | ok c =>
    have fits := fits_of_compile built hc
    simp only [List.filterMap_cons, List.filterMap_nil, hc, Except.toOption]
    by_cases hb : c.bindings.isEmpty = true
    · rw [if_pos hb]
      refine holds.concat ?_
      rw [Compilation.chain?, List.isEmpty_iff.mp hb]
      rfl
    · rw [if_neg hb]
      exact holds.insert built fits

/-- Calls add what their declarations compile to, in order. -/
theorem holds_installAll (built : compiler.catalog.Built) (calls : List Call) :
    ∀ {table : Table} {before : List Compilation} (journal : Journal),
      table.Holds compiler.catalog before →
      (compiler.installAll calls table journal).Holds compiler.catalog
        (before ++ compiler.compilations calls) := by
  induction calls with
  | nil =>
    intro table before journal holds
    rw [show compiler.compilations [] = [] from rfl, List.append_nil]
    exact holds
  | cons call calls ih =>
    intro table before journal holds
    have one := holds_install built holds journal call
    have rest := ih (compiler.install table journal call.declaration
      call.interfaceId).journal one
    rw [List.append_assoc] at rest
    rw [show compiler.compilations (call :: calls) =
      compiler.compilations [call] ++ compiler.compilations calls from
        List.filterMap_append (l := [call])]
    exact rest

end Compiler

end CueRouter
