import CueRouter.Proofs.Binding.Compilation

/-!
# The bucket that a chain and an event meet in

A chain is put in the bucket of a constant when it is compiled; an event selects
a bucket by its live value. Where a whole number agrees with a constant that is
no float, both are the same number, so a chain whose conditions hold lies in the
bucket that the event selects. The numbers of such buckets are below that of the
wildcard bucket, which holds the chains without a bucket and nothing else.
-/

namespace CueRouter

/-- Whether the value is a byte, an int or a long. -/
def Value.isWhole : Value → Bool
  | .byte _ | .int _ | .long _ => true
  | .float _ | .range _ | .reference _ | .invalid => false

/-- Whole numbers are plain numbers and have a whole reading. -/
theorem Value.toWhole?_of_isWhole {v : Value} (h : v.isWhole = true) :
    v.isScalar = true ∧ ∃ n, v.toWhole? = some n := by
  cases v with
  | byte n => exact ⟨rfl, _, rfl⟩
  | int n => exact ⟨rfl, _, rfl⟩
  | long n => exact ⟨rfl, _, rfl⟩
  | float | range | reference | invalid => cases h

/-- A whole number agrees with a plain number that is no float only when both
are the same number. -/
theorem Value.toWhole?_eq_of_agrees {live constant : Value}
    (hl : live.isWhole = true) (hc : constant.isScalar = true)
    (hf : ∀ x, constant ≠ .float x) (h : live.agrees constant = true) :
    live.toWhole? = constant.toWhole? := by
  cases constant with
  | float x => exact absurd rfl (hf x)
  | range | reference | invalid => cases hc
  | byte | int | long =>
    cases live with
    | byte | int | long => exact beq_iff_eq.mp h
    | float | range | reference | invalid => cases hl

/-- A bucket number is below the number of buckets. -/
theorem bucketOf_lt {count : Nat} (h : 0 < count) (n : Int64) :
    bucketOf count n < count := by
  have hlow := Int.emod_nonneg n.toInt (by omega : (count : Int) ≠ 0)
  have hhigh := Int.emod_lt_of_pos n.toInt (by omega : (0 : Int) < count)
  unfold bucketOf
  omega

namespace BucketSet

/-- A schema without an indexed field spreads nothing. -/
theorem spreadOf_eq_none {schema : Schema} (h : schema.indexedField? = none) :
    spreadOf schema = none := by
  simp [spreadOf, h]

/-- A schema spreads its type over the buckets of the indexed field. -/
theorem spreadOf_eq_some {schema : Schema} {field : Field} {count : Nat}
    (h : schema.indexedField? = some field) (hb : field.buckets = some count) :
    spreadOf schema = some ⟨field.index, count⟩ := by
  simp [spreadOf, h, hb]

/-- The wildcard slot is the wildcard bucket. -/
@[simp] theorem position_wildcard (set : BucketSet) :
    set.position .wildcard = set.wildcard := rfl

/-- Without an indexed field there is the wildcard bucket only. -/
theorem position_of_spread_none {set : BucketSet} (h : set.spread = none)
    (slot : Slot) : set.position slot = set.wildcard := by
  cases slot <;> simp [position, h]

/-- A bucket number is its own position. -/
theorem position_indexed {set : BucketSet} {spread : Spread} {number : Nat}
    (h : set.spread = some spread) (hlt : number < spread.buckets) :
    set.position (.indexed number) = number := by
  simp [position, h, Nat.mod_eq_of_lt hlt]

/-- The wildcard bucket comes behind all others. -/
theorem wildcard_of_spread {set : BucketSet} {spread : Spread}
    (h : set.spread = some spread) : set.wildcard = spread.buckets := by
  simp [wildcard, wildcardOf, h]

/-- Every bucket number has its position in front of the wildcard bucket. -/
theorem position_indexed_lt_wildcard {set : BucketSet} {spread : Spread}
    (h : set.spread = some spread) (hpos : 0 < spread.buckets) (number : Nat) :
    set.position (.indexed number) < set.wildcard := by
  have hlt := Nat.mod_lt number hpos
  rw [wildcard_of_spread h]
  simp only [position, h]
  omega

/-- An event whose indexed field holds a plain number selects the bucket of its
whole reading. -/
theorem primary_eq_some {set : BucketSet} {spread : Spread} {event : Event}
    {n : Int64} (h : set.spread = some spread)
    (hs : (event.field spread.field).isScalar = true)
    (hn : (event.field spread.field).toWhole? = some n) :
    set.primary event = .ok (some (bucketOf spread.buckets n)) := by
  simp [primary, h, hs, hn]

/-- The run of a bucket after bindings were added to one. -/
theorem run_push (set : BucketSet) (number other : Nat) (links : List Chain.Link)
    (h : number < set.buckets.size) :
    (set.push number links).run other =
      set.run other ++ if other = number then links else [] := by
  unfold push run
  rw [Array.getElem?_modify]
  by_cases ho : other = number
  · subst ho
    simp [h]
  · simp [ho, Ne.symm ho]

end BucketSet

namespace Compiler

/-- No constant that the conditions of a declaration compare with the indexed
field of its input is a float. -/
def ComparesNoFloat (compiler : Compiler) (declaration : Declaration) : Prop :=
  ∀ schema field, compiler.inputSchema declaration = .ok schema →
    schema.indexedField? = some field →
    ∀ condition ∈ compiler.acceptedConditions schema (conditionsText declaration),
      condition.clause.target = .ofField field →
      condition.clause.expression.fold?.map Value.kind ≠ some .float

/-- Whether a declaration compares no float can be read off its conditions. -/
instance (compiler : Compiler) (declaration : Declaration) :
    Decidable (compiler.ComparesNoFloat declaration) :=
  match hs : compiler.inputSchema declaration with
  | .error _ => isTrue fun _ _ h => by rw [hs] at h; cases h
  | .ok schema =>
    match hi : schema.indexedField? with
    | none => isTrue fun _ _ h hf => by
        rw [hs] at h
        cases h
        rw [hi] at hf
        cases hf
    | some field =>
      decidable_of_iff
        (∀ condition ∈ compiler.acceptedConditions schema (conditionsText declaration),
          condition.clause.target = .ofField field →
          condition.clause.expression.fold?.map Value.kind ≠ some .float)
        ⟨fun all _ _ h hf => by
          rw [hs] at h
          cases h
          rw [hi] at hf
          cases hf
          exact all,
        fun noFloat => noFloat schema field hs hi⟩

variable {compiler : Compiler} {declaration : Declaration} {interfaceId : Int32}
  {compilation : Compilation}

/-- A compilation is against the schema that the catalog keeps for its type. -/
theorem schema_eq_of_compile (built : compiler.catalog.Built)
    (h : compiler.compile declaration interfaceId = .ok compilation) :
    compilation.schema = compiler.catalog.schema compilation.schema.type := by
  obtain ⟨type, hs, -⟩ := inputSchema_eq_ok (compile_eq_ok h).1
  rw [hs, built.type_schema]

/-- A chain that has a bucket is about an input with an indexed field. -/
theorem indexedField?_of_slot (built : compiler.catalog.Built)
    (h : compiler.compile declaration interfaceId = .ok compilation) {number : Nat}
    (hs : compilation.slot = .indexed number) :
    ∃ field count, compilation.schema.indexedField? = some field ∧
      field.buckets = some count ∧ number < count := by
  obtain ⟨-, -, hslot, -⟩ := compile_eq_ok h
  rw [hslot] at hs
  obtain ⟨clause, -, condition, hc, hb, -⟩ := exists_condition_of_slot hs
  obtain ⟨name, field, count, constant, n, hf, hcount, -, -, -, -, rfl⟩ :=
    bucket_eq_some hc hb
  have lawful : compilation.schema.Lawful := by
    rw [schema_eq_of_compile built h]
    exact built.lawful _
  have hi := lawful.indexedField?_of_find? hf hcount
  obtain ⟨other, ho, hpos⟩ := lawful.buckets_indexedField? hi
  rw [hcount] at ho
  cases ho
  exact ⟨field, count, hi, hcount, bucketOf_lt hpos n⟩

/-- The chain of a compilation lies in the bucket that an event selects whenever
its conditions hold. -/
theorem slot_of_applies (built : compiler.catalog.Built)
    (noFloat : compiler.ComparesNoFloat declaration)
    (h : compiler.compile declaration interfaceId = .ok compilation) {number : Nat}
    (hs : compilation.slot = .indexed number) {head : Binding}
    (hh : compilation.bindings.head? = some head) {event : Event} {store : Store}
    (ha : head.applies event store = true) {field : Field}
    (hi : compilation.schema.indexedField? = some field)
    (hw : (event.field field.index).isWhole = true) :
    ∃ count n, field.buckets = some count ∧
      (event.field field.index).toWhole? = some n ∧ number = bucketOf count n := by
  obtain ⟨hinput, -, hslot, hbindings⟩ := compile_eq_ok h
  have lawful : compilation.schema.Lawful := by
    rw [schema_eq_of_compile built h]
    exact built.lawful _
  rw [hslot] at hs
  obtain ⟨clause, hm, condition, hc, hb, hmem⟩ := exists_condition_of_slot hs
  obtain ⟨name, other, count, constant, n, hf, hcount, htarget, hfold, hscalar, hn,
    rfl⟩ := bucket_eq_some hc hb
  have same := lawful.indexedField?_of_find? hf hcount
  rw [hi] at same
  cases same
  rw [hbindings] at hh
  rw [Binding.applies, conditions_head?_toBindings hh, List.all_eq_true] at ha
  have holds := ha _ hmem
  rw [Clause.holds, htarget, Expression.evaluate_of_fold? hfold] at holds
  have notFloat : ∀ x, constant ≠ .float x := by
    rintro x rfl
    have forbidden := noFloat _ _ hinput hi condition
      (mem_acceptedConditions.mpr ⟨clause, hm, hc⟩) htarget
    rw [hfold] at forbidden
    exact forbidden rfl
  refine ⟨count, n, hcount, ?_, rfl⟩
  rw [← hn]
  exact Value.toWhole?_eq_of_agrees hw hscalar notFloat holds

end Compiler

end CueRouter
