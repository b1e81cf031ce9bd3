import CueRouter.Event.Catalog

/-!
# Lawful schemas and catalogs

Adding fields one by one keeps four laws: every field knows its position, only
the field that the index points to has buckets, the index points to a field that
has some, and there is at least one. A catalog is the stock one with schemas
registered over it, so all its schemas are lawful and describe their own type.
-/

namespace CueRouter

namespace Schema

/-- The laws that adding fields keeps. -/
structure Lawful (schema : Schema) : Prop where
  /-- Every field knows its position. -/
  index_eq : ∀ {i : Nat} {field : Field}, schema.fields[i]? = some field →
    field.index = i
  /-- Only the indexed field has buckets. -/
  indexed_of_buckets : ∀ {i count : Nat} {field : Field},
    schema.fields[i]? = some field → field.buckets = some count →
    schema.indexed = some i
  /-- The indexed field has buckets. -/
  buckets_of_indexed : ∀ {i : Nat}, schema.indexed = some i →
    ∃ field count, schema.fields[i]? = some field ∧ field.buckets = some count
  /-- There is at least one bucket. -/
  buckets_pos : ∀ {i count : Nat} {field : Field},
    schema.fields[i]? = some field → field.buckets = some count → 0 < count

/-- A schema without fields is lawful. -/
theorem lawful_empty (type : EventType) : (empty type).Lawful where
  index_eq h := by simp [empty] at h
  indexed_of_buckets h := by simp [empty] at h
  buckets_of_indexed h := by simp [empty] at h
  buckets_pos h := by simp [empty] at h

/-- A form describes a field at the position it is given. -/
theorem index_toField (form : FieldForm) (i : Nat) : (form.toField i).index = i := by
  cases form <;> rfl

/-- A form never asks for an empty set of buckets. -/
theorem buckets_toField_pos {form : FieldForm} {i count : Nat}
    (h : (form.toField i).buckets = some count) : 0 < count := by
  cases form with
  | plain name kind => simp [FieldForm.toField] at h
  | indexed name kind buckets =>
    simp only [FieldForm.toField, Option.some.injEq] at h
    omega
  | key name buckets =>
    simp only [FieldForm.toField, Option.some.injEq] at h
    omega

/-- What stands at a position after one was added at the end is an earlier one or the one
added. -/
theorem getElem?_concat_iff {α : Type} {items : List α} {added item : α} {i : Nat} :
    (items ++ [added])[i]? = some item ↔
      items[i]? = some item ∨ (i = items.length ∧ item = added) := by
  rcases Nat.lt_trichotomy i items.length with before | rfl | behind
  · rw [List.getElem?_append_left before]
    exact (or_iff_left fun last => Nat.ne_of_lt before last.1).symm
  · simp [eq_comm]
  · rw [List.getElem?_append_right (Nat.le_of_lt behind),
      List.getElem?_eq_none (Nat.le_of_lt behind),
      List.getElem?_eq_none (by rw [List.length_singleton]; omega)]
    refine iff_of_false nofun ?_
    rintro (none | last)
    · cases none
    · exact Nat.ne_of_gt behind last.1

/-- Adding a field without buckets keeps the laws. -/
theorem Lawful.add_plain {schema : Schema} (lawful : schema.Lawful) {added : Field}
    (hi : added.index = schema.fields.length) (hb : added.buckets = none) :
    ({ schema with fields := schema.fields ++ [added] } : Schema).Lawful where
  index_eq h := by
    rcases getElem?_concat_iff.mp h with h | ⟨rfl, rfl⟩
    · exact lawful.index_eq h
    · exact hi
  indexed_of_buckets h hc := by
    rcases getElem?_concat_iff.mp h with h | ⟨rfl, rfl⟩
    · exact lawful.indexed_of_buckets h hc
    · rw [hb] at hc
      cases hc
  buckets_of_indexed h := by
    obtain ⟨field, count, hf, hc⟩ := lawful.buckets_of_indexed h
    have hlt := (List.getElem?_eq_some_iff.mp hf).1
    exact ⟨field, count, by rw [List.getElem?_append_left hlt, hf], hc⟩
  buckets_pos h hc := by
    rcases getElem?_concat_iff.mp h with h | ⟨rfl, rfl⟩
    · exact lawful.buckets_pos h hc
    · rw [hb] at hc
      cases hc

/-- The fields without the index of the one that had it. -/
def unindexed (schema : Schema) : List Field :=
  match schema.indexed with
  | some old => schema.fields.modify old unindex
  | none => schema.fields

/-- Taking the index away changes nothing but the buckets, and none are left. -/
theorem Lawful.getElem?_unindexed {schema : Schema} (lawful : schema.Lawful)
    {i : Nat} {field : Field} (h : schema.unindexed[i]? = some field) :
    field.index = i ∧ field.buckets = none := by
  unfold unindexed at h
  cases hs : schema.indexed with
  | none =>
    rw [hs] at h
    refine ⟨lawful.index_eq h, ?_⟩
    cases hb : field.buckets with
    | none => rfl
    | some count =>
      have := lawful.indexed_of_buckets h hb
      rw [hs] at this
      cases this
  | some old =>
    rw [hs] at h
    simp only [List.getElem?_modify, Option.map_eq_map, Option.map_eq_some_iff] at h
    obtain ⟨before, hf, rfl⟩ := h
    have hindex := lawful.index_eq hf
    by_cases ho : old = i
    · simp [ho, unindex, hindex]
    · simp only [ho, if_false]
      refine ⟨hindex, ?_⟩
      cases hb : before.buckets with
      | none => rfl
      | some count =>
        have := lawful.indexed_of_buckets hf hb
        rw [hs] at this
        exact absurd (Option.some.inj this) ho

/-- Taking the index away keeps the number of fields. -/
theorem length_unindexed (schema : Schema) :
    schema.unindexed.length = schema.fields.length := by
  unfold unindexed
  split <;> simp

/-- Adding an indexed field in place of the one before keeps the laws. -/
theorem Lawful.add_indexed {schema : Schema} (lawful : schema.Lawful) {added : Field}
    {count : Nat} (hi : added.index = schema.fields.length)
    (hb : added.buckets = some count) (hpos : 0 < count) :
    ({ schema with
        fields := schema.unindexed ++ [added]
        indexed := some added.index } : Schema).Lawful where
  index_eq h := by
    rcases getElem?_concat_iff.mp h with h | ⟨rfl, rfl⟩
    · exact (lawful.getElem?_unindexed h).1
    · rw [length_unindexed, hi]
  indexed_of_buckets h hc := by
    rcases getElem?_concat_iff.mp h with h | ⟨rfl, rfl⟩
    · rw [(lawful.getElem?_unindexed h).2] at hc
      cases hc
    · rw [length_unindexed, hi]
  buckets_of_indexed h := by
    cases h
    refine ⟨added, count, ?_, hb⟩
    rw [hi, ← length_unindexed]
    simp
  buckets_pos h hc := by
    rcases getElem?_concat_iff.mp h with h | ⟨rfl, rfl⟩
    · rw [(lawful.getElem?_unindexed h).2] at hc
      cases hc
    · rw [hb] at hc
      cases hc
      exact hpos

/-- Adding a field keeps the laws. -/
theorem Lawful.add {schema : Schema} (lawful : schema.Lawful) (form : FieldForm) :
    (schema.add form).Lawful := by
  unfold Schema.add
  dsimp only
  cases hb : (form.toField schema.fields.length).buckets with
  | none => exact lawful.add_plain (index_toField ..) hb
  | some count =>
    exact lawful.add_indexed (index_toField ..) hb (buckets_toField_pos hb)

/-- A schema made of forms is lawful. -/
theorem lawful_ofForms (type : EventType) (forms : List FieldForm) :
    (ofForms type forms).Lawful := by
  have run (schema : Schema) (lawful : schema.Lawful) :
      (forms.foldl Schema.add schema).Lawful := by
    induction forms generalizing schema with
    | nil => exact lawful
    | cons form forms ih => exact ih _ (lawful.add form)
  exact run _ (lawful_empty type)

/-- A field that is found by a name has it. -/
theorem name_of_find? {schema : Schema} {name : String} {field : Field}
    (h : schema.find? name = some field) : field.name = name := by
  unfold find? at h
  have found := List.find?_some h
  exact beq_iff_eq.mp found

/-- A field that is found by its name reads the position it knows. -/
theorem Lawful.getElem?_of_find? {schema : Schema} (lawful : schema.Lawful)
    {name : String} {field : Field} (h : schema.find? name = some field) :
    schema.fields[field.index]? = some field := by
  obtain ⟨i, hf⟩ := List.getElem?_of_mem (List.mem_of_find?_eq_some h)
  rw [lawful.index_eq hf]
  exact hf

/-- Fields that are found at one position are one field, and so are their names. -/
theorem Lawful.eq_of_index_eq {schema : Schema} (lawful : schema.Lawful) {name other : String}
    {field found : Field} (h : schema.find? name = some field)
    (k : schema.find? other = some found) (same : field.index = found.index) :
    field = found ∧ name = other := by
  have here := lawful.getElem?_of_find? h
  rw [same, lawful.getElem?_of_find? k] at here
  have one : found = field := Option.some.inj here
  subst one
  exact ⟨rfl, (name_of_find? h).symm.trans (name_of_find? k)⟩

/-- A named field with buckets is the indexed field. -/
theorem Lawful.indexedField?_of_find? {schema : Schema} (lawful : schema.Lawful)
    {name : String} {field : Field} {count : Nat}
    (h : schema.find? name = some field) (hb : field.buckets = some count) :
    schema.indexedField? = some field := by
  have hf := lawful.getElem?_of_find? h
  have hi := lawful.indexed_of_buckets hf hb
  simp [indexedField?, hi, hf]

/-- The indexed field has a positive number of buckets. -/
theorem Lawful.buckets_indexedField? {schema : Schema} (lawful : schema.Lawful)
    {field : Field} (h : schema.indexedField? = some field) :
    ∃ count, field.buckets = some count ∧ 0 < count := by
  obtain ⟨i, hi, hf⟩ := Option.bind_eq_some_iff.mp h
  obtain ⟨other, count, ho, hc⟩ := lawful.buckets_of_indexed hi
  rw [hf] at ho
  cases ho
  exact ⟨count, hc, lawful.buckets_pos hf hc⟩

end Schema

namespace Catalog

/-- The catalogs there are: the stock one, and those with another schema
registered. -/
inductive Built : Catalog → Prop where
  /-- The stock catalog. -/
  | standard (keyBuckets : Nat) : Built (standard keyBuckets)
  /-- A catalog with a schema of fields added one by one. -/
  | register {catalog : Catalog} (built : Built catalog) (type : EventType)
      (forms : List FieldForm) : Built (catalog.register (.ofForms type forms))

/-- The schema of a type after one was registered. -/
theorem schema_register (catalog : Catalog) (added : Schema) (type : EventType) :
    (catalog.register added).schema type =
      if type = added.type then added else catalog.schema type := by
  unfold register schema
  split
  · next h => rw [h, ByType.get_set_self]
  · next h => rw [ByType.get_set_of_ne _ _ h]

/-- The stock schema of a type. -/
theorem schema_standard (keyBuckets : Nat) (type : EventType) :
    (standard keyBuckets).schema type = stock keyBuckets type :=
  ByType.get_ofFn _ type

/-- Every stock input leads with its interface field, an int, and no other type has
one. -/
theorem find?_interfaceField_stock (keyBuckets : Nat) (type : EventType) :
    (stock keyBuckets type).find? interfaceField =
      if type.isBindable then some ⟨interfaceField, 0, .int, none, false⟩ else none := by
  cases type <;> rfl

/-- A name finds the schema that the catalog keeps for the type of this name. -/
theorem lookup_eq_ok_iff {catalog : Catalog} {name : String} {schema : Schema} :
    catalog.lookup name = .ok schema ↔
      ∃ type, EventType.ofName? (Text.trim name) = some type ∧ catalog.schema type = schema := by
  unfold lookup
  cases EventType.ofName? (Text.trim name) <;> simp

/-- The schema that a name finds is the one the catalog keeps for some type. -/
theorem exists_schema_of_lookup {catalog : Catalog} {name : String} {schema : Schema}
    (h : catalog.lookup name = .ok schema) : ∃ type, schema = catalog.schema type := by
  obtain ⟨type, -, same⟩ := lookup_eq_ok_iff.mp h
  exact ⟨type, same.symm⟩

/-- A catalog that is the stock one is one there is. -/
theorem Built.of_eq {catalog : Catalog} {keyBuckets : Nat}
    (stock : catalog = .standard keyBuckets) : catalog.Built := by
  rw [stock]
  exact .standard keyBuckets

/-- Every schema of a catalog is lawful. -/
theorem Built.lawful {catalog : Catalog} (built : catalog.Built) (type : EventType) :
    (catalog.schema type).Lawful := by
  induction built with
  | standard keyBuckets =>
    rw [schema_standard]
    exact Schema.lawful_ofForms ..
  | register built other forms ih =>
    rw [schema_register]
    split
    · exact Schema.lawful_ofForms ..
    · exact ih

/-- Every schema of a catalog describes the type it is kept under. -/
theorem Built.type_schema {catalog : Catalog} (built : catalog.Built)
    (type : EventType) : (catalog.schema type).type = type := by
  induction built with
  | standard keyBuckets =>
    rw [schema_standard]
    exact type_stock keyBuckets type
  | register built other forms ih =>
    rw [schema_register]
    split
    · next h => exact h.symm
    · exact ih

end Catalog

end CueRouter
