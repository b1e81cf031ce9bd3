import Mathlib.Algebra.BigOperators.Group.List.Lemmas
import Mathlib.Algebra.GroupWithZero.Nat
import CueRouter.Proofs.Binding.Answer
import CueRouter.Proofs.Binding.Bucket

/-!
# What a call does to the table

A call of the compiler is rejected, adds nothing, or adds the bindings of one chain at
the end of one bucket. All other buckets stay as they are, and buckets are made for
the type of the input only. Hence the size of a table is the number of its bindings,
and no bucket ends within a chain.
-/

namespace CueRouter

/-! ## The three outcomes of a call -/

namespace Compiler

/-- A call reports the complaints. Without bindings it leaves the table alone. -/
theorem install_of_nil {compiler : Compiler} {declaration : Declaration}
    {interfaceId : Int32} {c : Compilation}
    (compiled : compiler.compile declaration interfaceId = .ok c) (none : c.bindings = [])
    (table : Table) (journal : Journal) :
    compiler.install table journal declaration interfaceId =
      ⟨table, journal.reportAll c.complaints, .ok 0⟩ := by
  unfold install
  rw [compiled]
  exact if_pos (List.isEmpty_iff.mpr none)

/-- A call reports the complaints and adds the bindings. -/
theorem install_of_ne_nil {compiler : Compiler} {declaration : Declaration}
    {interfaceId : Int32} {c : Compilation}
    (compiled : compiler.compile declaration interfaceId = .ok c)
    (nonempty : c.bindings ≠ []) (table : Table) (journal : Journal) :
    compiler.install table journal declaration interfaceId =
      ⟨table.insert c.schema c.slot c.bindings,
        (journal.reportAll c.complaints).note .trace (c.message (inputText declaration)),
        .ok c.bindings.length⟩ := by
  unfold install
  rw [compiled]
  exact if_neg fun empty => nonempty (List.isEmpty_iff.mp empty)

/-- A call is rejected, or compiles and adds nothing, or adds the bindings of a chain. -/
theorem install_cases (compiler : Compiler) (table : Table) (journal : Journal)
    (declaration : Declaration) (interfaceId : Int32) :
    (∃ fault, compiler.compile declaration interfaceId = .error fault ∧
      compiler.install table journal declaration interfaceId =
        ⟨table, journal, .error fault⟩) ∨
    (∃ c, compiler.compile declaration interfaceId = .ok c ∧ c.bindings = [] ∧
      compiler.install table journal declaration interfaceId =
        ⟨table, journal.reportAll c.complaints, .ok 0⟩) ∨
    ∃ c, compiler.compile declaration interfaceId = .ok c ∧ c.bindings ≠ [] ∧
      compiler.install table journal declaration interfaceId =
        ⟨table.insert c.schema c.slot c.bindings,
          (journal.reportAll c.complaints).note .trace
            (c.message (inputText declaration)),
          .ok c.bindings.length⟩ := by
  cases h : compiler.compile declaration interfaceId with
  | error fault =>
    refine .inl ⟨fault, rfl, ?_⟩
    unfold install
    rw [h]
  | ok c =>
    refine .inr ?_
    by_cases none : c.bindings = []
    · exact .inl ⟨c, rfl, none, install_of_nil h none table journal⟩
    · exact .inr ⟨c, rfl, none, install_of_ne_nil h none table journal⟩

end Compiler

/-! ## Marks -/

/-- All bindings of a chain are continued but the last. -/
theorem Chain.map_continued_linksOf {bindings : List Binding} (h : bindings ≠ []) :
    (linksOf bindings).map Link.continued =
      List.replicate (bindings.length - 1) true ++ [false] := by
  induction bindings with
  | nil => exact absurd rfl h
  | cons binding rest ih =>
    cases rest with
    | nil => rfl
    | cons next rest =>
      have others := ih (List.cons_ne_nil _ _)
      rw [List.length_cons, Nat.add_sub_cancel] at others
      rw [linksOf_cons, List.map_cons, others, List.length_cons, Nat.add_sub_cancel,
        List.length_cons, List.replicate_succ]
      rfl

/-- There is a link for each binding. -/
theorem Chain.length_linksOf (bindings : List Binding) :
    (linksOf bindings).length = bindings.length := by
  rw [← List.length_map (f := Link.binding), map_binding_linksOf]

/-- The last binding of a chain is not continued. -/
theorem Chain.continued_getLast?_linksOf {bindings : List Binding} {last : Link}
    (h : (linksOf bindings).getLast? = some last) : last.continued = false := by
  have some : bindings ≠ [] := by
    rintro rfl
    cases h
  have marks := congrArg List.getLast? (map_continued_linksOf some)
  rw [List.getLast?_map, h, List.getLast?_concat] at marks
  exact Option.some.inj marks

/-! ## The buckets of a table -/

namespace BucketSet

/-- There is a bucket for every position that a slot can have. -/
structure Formed (set : BucketSet) : Prop where
  /-- The buckets end with the wildcard bucket. -/
  size_eq : set.buckets.size = set.wildcard + 1
  /-- A type is spread over at least one bucket. -/
  buckets_pos : ∀ spread, set.spread = some spread → 0 < spread.buckets

/-- Every slot has a bucket. -/
theorem Formed.position_lt {set : BucketSet} (formed : set.Formed) (slot : Slot) :
    set.position slot < set.buckets.size := by
  rw [formed.size_eq]
  cases slot with
  | wildcard => exact Nat.lt_succ_self _
  | indexed number =>
    cases h : set.spread with
    | none =>
      rw [position_of_spread_none h]
      exact Nat.lt_succ_self _
    | some spread =>
      have before := position_indexed_lt_wildcard h (formed.buckets_pos spread h) number
      exact Nat.lt_succ_of_lt before

/-- The empty buckets of a lawful schema are well formed. -/
theorem formed_ofSchema {schema : Schema} (lawful : schema.Lawful) :
    (ofSchema schema).Formed where
  size_eq := by simp [ofSchema, wildcard]
  buckets_pos spread h := by
    have hspread : spreadOf schema = some spread := h
    unfold spreadOf at hspread
    obtain ⟨field, hfield, hspread⟩ := Option.bind_eq_some_iff.mp hspread
    obtain ⟨count, hcount, hpos⟩ := lawful.buckets_indexedField? hfield
    rw [hcount] at hspread
    cases hspread
    exact hpos

/-- Adding bindings makes no bucket. -/
theorem Formed.push {set : BucketSet} (formed : set.Formed) (number : Nat)
    (links : List Chain.Link) : (set.push number links).Formed where
  size_eq := by
    unfold BucketSet.push
    rw [Array.size_modify]
    exact formed.size_eq
  buckets_pos := formed.buckets_pos

/-- New buckets are empty. -/
theorem run_ofSchema (schema : Schema) (number : Nat) :
    (ofSchema schema).run number = [] := by
  unfold run ofSchema
  rw [Array.getElem?_replicate]
  split <;> rfl

/-- The bindings of a set are those in its buckets. -/
theorem mem_bindings_iff {set : BucketSet} {binding : Binding} :
    binding ∈ set.bindings ↔ ∃ number, ∃ link ∈ set.run number, link.binding = binding := by
  unfold bindings run
  rw [List.mem_flatMap]
  constructor
  · rintro ⟨bucket, hbucket, hbinding⟩
    obtain ⟨number, hnumber⟩ := List.getElem?_of_mem hbucket
    rw [Array.getElem?_toList] at hnumber
    refine ⟨number, ?_⟩
    rw [hnumber]
    exact List.mem_map.mp hbinding
  · rintro ⟨number, link, hlink, same⟩
    cases hbucket : set.buckets[number]? with
    | none =>
      rw [hbucket] at hlink
      cases hlink
    | some bucket =>
      rw [hbucket] at hlink
      exact ⟨bucket, Array.mem_toList_iff.mpr (Array.mem_of_getElem? hbucket),
        List.mem_map.mpr ⟨link, hlink, same⟩⟩

/-- A list of buckets has as many bindings more as are added to one of them. -/
theorem length_flatMap_modify {buckets : List (List Chain.Link)} {number : Nat}
    (h : number < buckets.length) (links : List Chain.Link) :
    ((buckets.modify number (· ++ links)).flatMap (·.map Chain.Link.binding)).length =
      (buckets.flatMap (·.map Chain.Link.binding)).length + links.length := by
  induction buckets generalizing number with
  | nil => cases h
  | cons bucket buckets ih =>
    cases number with
    | zero =>
      simp only [List.modify_zero_cons, List.flatMap_cons, List.length_append,
        List.length_map]
      omega
    | succ number =>
      have rest := ih (Nat.lt_of_succ_lt_succ h)
      simp only [List.modify_succ_cons, List.flatMap_cons, List.length_append, rest]
      omega

/-- Adding bindings to a bucket adds as many to the set. -/
theorem length_bindings_push {set : BucketSet} {number : Nat}
    (h : number < set.buckets.size) (links : List Chain.Link) :
    (set.push number links).bindings.length = set.bindings.length + links.length := by
  unfold bindings push
  rw [Array.toList_modify]
  exact length_flatMap_modify h links

end BucketSet

namespace Table

/-- The bindings in the bucket of a type at a position, as they are marked; none where
there is no such bucket. -/
def run (table : Table) (type : EventType) (number : Nat) : List Chain.Link :=
  ((table.sets.get type).map fun set => set.run number).getD []

/-- The number of bindings for a type. -/
def count (table : Table) (type : EventType) : Nat :=
  ((table.sets.get type).map fun set => set.bindings.length).getD 0

/-- The bindings of a table are those for the types. -/
theorem length_bindings (table : Table) :
    table.bindings.length = (EventType.all.map table.count).sum := by
  unfold bindings
  rw [List.length_flatMap]
  refine congrArg List.sum (List.map_congr_left fun type _ => ?_)
  unfold count
  cases table.sets.get type <;> rfl

/-- The bindings of a table are those in its buckets. -/
theorem mem_bindings_iff {table : Table} {binding : Binding} :
    binding ∈ table.bindings ↔
      ∃ type number, ∃ link ∈ table.run type number, link.binding = binding := by
  unfold bindings run
  rw [List.mem_flatMap]
  constructor
  · rintro ⟨type, -, hbinding⟩
    refine ⟨type, ?_⟩
    cases hset : table.sets.get type with
    | none =>
      rw [hset] at hbinding
      cases hbinding
    | some set =>
      rw [hset] at hbinding
      exact BucketSet.mem_bindings_iff.mp hbinding
  · rintro ⟨type, number, link, hlink, same⟩
    refine ⟨type, type.mem_all, ?_⟩
    cases hset : table.sets.get type with
    | none =>
      rw [hset] at hlink
      cases hlink
    | some set =>
      rw [hset] at hlink
      exact BucketSet.mem_bindings_iff.mpr ⟨number, link, hlink, same⟩

section Insert

variable {table : Table} {schema : Schema}

/-- The buckets for a type, made for the purpose or not, hold what the table holds. -/
theorem run_setFor (table : Table) (schema : Schema) (number : Nat) :
    (table.setFor schema).run number = table.run schema.type number := by
  unfold setFor run
  cases table.sets.get schema.type with
  | none => exact BucketSet.run_ofSchema schema number
  | some set => rfl

/-- The buckets for a type have as many bindings as the table has for it. -/
theorem length_bindings_setFor (table : Table) (schema : Schema) :
    (table.setFor schema).bindings.length = table.count schema.type := by
  unfold setFor count
  cases table.sets.get schema.type with
  | none => simp [BucketSet.bindings, BucketSet.ofSchema]
  | some set => rfl

/-- Inserting leaves the buckets of other types alone. -/
theorem sets_insert_of_ne (table : Table) (slot : Slot) (bindings : List Binding)
    {type : EventType} (h : type ≠ schema.type) :
    (table.insert schema slot bindings).sets.get type = table.sets.get type :=
  ByType.get_set_of_ne _ _ h

/-- Inserting adds to one bucket of the type. -/
theorem sets_insert_self (table : Table) (schema : Schema) (slot : Slot)
    (bindings : List Binding) :
    (table.insert schema slot bindings).sets.get schema.type =
      some ((table.setFor schema).push ((table.setFor schema).position slot)
        (Chain.linksOf bindings)) :=
  ByType.get_set_self _ _ _

/-- Inserting makes no bucket that the type would not have had. -/
theorem bucketCount_insert_self (table : Table) (schema : Schema) (slot : Slot)
    (bindings : List Binding) :
    (table.insert schema slot bindings).bucketCount schema.type =
      (table.setFor schema).buckets.size := by
  unfold bucketCount
  rw [sets_insert_self]
  exact Array.size_modify

/-- Inserting adds the bindings at the end of the bucket of the slot and changes no
other bucket. -/
theorem run_insert (formed : (table.setFor schema).Formed) (slot : Slot)
    (bindings : List Binding) (type : EventType) (number : Nat) :
    (table.insert schema slot bindings).run type number = table.run type number ++
      if type = schema.type ∧ number = (table.setFor schema).position slot then
        Chain.linksOf bindings
      else [] := by
  by_cases h : type = schema.type
  · subst h
    rw [run, sets_insert_self, Option.map_some, Option.getD_some,
      BucketSet.run_push _ _ _ _ (formed.position_lt slot), run_setFor]
    simp only [true_and]
  · rw [if_neg fun both => h both.1, List.append_nil, run,
      sets_insert_of_ne table slot bindings h, run]

/-- A binding of the table after inserting was there before or was inserted. -/
theorem mem_or_mem_of_mem_bindings_insert (formed : (table.setFor schema).Formed)
    {slot : Slot} {bindings : List Binding} {binding : Binding}
    (h : binding ∈ (table.insert schema slot bindings).bindings) :
    binding ∈ table.bindings ∨ binding ∈ bindings := by
  obtain ⟨type, number, link, hlink, rfl⟩ := mem_bindings_iff.mp h
  rw [run_insert formed] at hlink
  rcases List.mem_append.mp hlink with before | added
  · exact .inl (mem_bindings_iff.mpr ⟨type, number, link, before, rfl⟩)
  · split at added
    · rw [← Chain.map_binding_linksOf bindings]
      exact .inr (List.mem_map_of_mem added)
    · cases added

/-- Inserting adds to the number of bindings for the type. -/
theorem count_insert (formed : (table.setFor schema).Formed) (slot : Slot)
    (bindings : List Binding) (type : EventType) :
    (table.insert schema slot bindings).count type =
      table.count type + if type = schema.type then bindings.length else 0 := by
  by_cases h : type = schema.type
  · subst h
    rw [if_pos rfl, count, sets_insert_self, Option.map_some, Option.getD_some,
      BucketSet.length_bindings_push (formed.position_lt slot), Chain.length_linksOf,
      length_bindings_setFor]
  · rw [if_neg h, count, sets_insert_of_ne table slot bindings h, count, Nat.add_zero]

/-- Inserting adds as many bindings to the table as are inserted. -/
theorem length_bindings_insert (formed : (table.setFor schema).Formed) (slot : Slot)
    (bindings : List Binding) :
    (table.insert schema slot bindings).bindings.length =
      table.bindings.length + bindings.length := by
  have once : List.count schema.type EventType.all = 1 := by
    cases schema.type <;> decide
  have here : (EventType.all.map fun type =>
      if type = schema.type then bindings.length else 0).sum = bindings.length := by
    rw [List.sum_map_eq_nsmul_single schema.type _ fun other h _ => if_neg h, once,
      if_pos rfl, one_nsmul]
  rw [length_bindings, length_bindings, funext (count_insert formed slot bindings),
    List.sum_map_add, here]

end Insert

/-! ## Tables that were built -/

/-- The tables there are: each call of a compiler may add to the one before. -/
inductive Built : Table → Prop
  /-- A table without bindings or buckets. -/
  | empty : Built .empty
  /-- A table after a call, whatever the variables and the key names are by then. -/
  | installed {table : Table} (built : Built table) {compiler : Compiler}
      (catalog : compiler.catalog.Built) (journal : Journal) (declaration : Declaration)
      (interfaceId : Int32) :
      Built (compiler.install table journal declaration interfaceId).table

/-- A table has the buckets that it needs, knows its size, and no bucket ends within a
chain. -/
structure Formed (table : Table) : Prop where
  /-- Every slot of a type has a bucket. -/
  set_formed : ∀ type set, table.sets.get type = some set → set.Formed
  /-- The size is the number of bindings. -/
  size_eq : table.size = table.bindings.length
  /-- The last binding of a bucket is not continued. -/
  ended : ∀ type number last, (table.run type number).getLast? = some last →
    last.continued = false

variable {table : Table} {schema : Schema}

/-- A table without bindings is well formed. -/
theorem formed_empty : empty.Formed where
  set_formed type set h := by
    rw [empty, ByType.get_ofFn] at h
    cases h
  size_eq := by
    rw [length_bindings, List.sum_eq_zero]
    · rfl
    · intro n hn
      obtain ⟨type, -, rfl⟩ := List.mem_map.mp hn
      rw [count, empty, ByType.get_ofFn]
      rfl
  ended type number last h := by
    rw [run, empty, ByType.get_ofFn] at h
    cases h

/-- The buckets that a call adds to are well formed, whether they are there already or
made for the purpose. -/
theorem Formed.setFor (formed : table.Formed) (lawful : schema.Lawful) :
    (table.setFor schema).Formed := by
  unfold Table.setFor
  cases h : table.sets.get schema.type with
  | none => exact BucketSet.formed_ofSchema lawful
  | some set => exact formed.set_formed _ _ h

/-- Inserting a chain keeps a table well formed. -/
theorem Formed.insert (formed : table.Formed) (lawful : schema.Lawful) (slot : Slot)
    (bindings : List Binding) : (table.insert schema slot bindings).Formed where
  set_formed type set h := by
    by_cases ht : type = schema.type
    · subst ht
      rw [sets_insert_self] at h
      cases h
      exact (formed.setFor lawful).push _ _
    · rw [sets_insert_of_ne table slot bindings ht] at h
      exact formed.set_formed type set h
  size_eq := by
    rw [length_bindings_insert (formed.setFor lawful), ← formed.size_eq]
    rfl
  ended type number last h := by
    rw [run_insert (formed.setFor lawful)] at h
    split at h
    · rw [List.getLast?_append, Option.or_eq_some_iff] at h
      rcases h with added | ⟨-, before⟩
      · exact Chain.continued_getLast?_linksOf added
      · exact formed.ended type number last before
    · rw [List.append_nil] at h
      exact formed.ended type number last h

end Table

namespace Compiler

variable {compiler : Compiler} {declaration : Declaration} {interfaceId : Int32}

/-- A compilation is against a lawful schema. -/
theorem lawful_of_compile (built : compiler.catalog.Built) {c : Compilation}
    (h : compiler.compile declaration interfaceId = .ok c) : c.schema.Lawful := by
  rw [schema_eq_of_compile built h]
  exact built.lawful _

end Compiler

/-- Every table that was built is well formed. -/
theorem Table.Built.formed {table : Table} (built : table.Built) : table.Formed := by
  induction built with
  | empty => exact Table.formed_empty
  | @installed table _ compiler catalog journal declaration interfaceId ih =>
    rcases compiler.install_cases table journal declaration interfaceId with
      ⟨fault, -, same⟩ | ⟨c, -, -, same⟩ | ⟨c, h, -, same⟩
    · rw [same]
      exact ih
    · rw [same]
      exact ih
    · rw [same]
      exact ih.insert (Compiler.lawful_of_compile catalog h) c.slot c.bindings

end CueRouter
