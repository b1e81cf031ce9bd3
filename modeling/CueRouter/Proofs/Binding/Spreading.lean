import CueRouter.Proofs.Binding.Installation
import Mathlib.Data.List.Induction

/-!
# How a schema spreads its type

A schema follows the forms it is made of, in any number and order: each field stands where
its form stands, and the last form that asks for buckets gets them, at least one. All events
of the type are spread over these buckets, so whatever the indexed field holds, an event
selects a bucket in front of the wildcard bucket, in every table that chains are put into.
-/

namespace CueRouter

namespace FieldForm

/-- The kind of the field. -/
def kind : FieldForm → Kind
  | plain _ kind | indexed _ kind _ => kind
  | key _ _ => .int

/-- The number of buckets that the form asks for, if it asks for any. -/
def asked? : FieldForm → Option ℕ
  | plain _ _ => none
  | indexed _ _ buckets | key _ buckets => some buckets

/-- A field has the kind of its form. -/
theorem kind_toField (form : FieldForm) (i : ℕ) : (form.toField i).kind = form.kind := by
  cases form <;> rfl

/-- A field is given the buckets that its form asks for, and one where it asks for none of
them. -/
theorem buckets_toField (form : FieldForm) (i : ℕ) :
    (form.toField i).buckets = form.asked?.map fun count => max count 1 := by
  cases form <;> rfl

/-- A field without buckets has no index to take away. -/
theorem unindex_toField {form : FieldForm} (plain : form.asked? = none) (i : ℕ) :
    Schema.unindex (form.toField i) = form.toField i := by
  cases form with
  | plain => rfl
  | indexed | key => cases plain

end FieldForm

/-- The form at the position asks for buckets, and no later form does. -/
def LastIndexed (forms : List FieldForm) (i : ℕ) : Prop :=
  (∃ form count, forms[i]? = some form ∧ form.asked? = some count) ∧
    ∀ j form, i < j → forms[j]? = some form → form.asked? = none

section LastIndexed

variable {forms : List FieldForm} {form : FieldForm} {i j count : ℕ}

/-- No form after the last one that asks for buckets asks for any. -/
theorem LastIndexed.le (last : LastIndexed forms i) (there : forms[j]? = some form)
    (asked : form.asked? = some count) : j ≤ i := by
  refine Nat.not_lt.mp fun behind => ?_
  rw [last.2 j form behind there] at asked
  cases asked

/-- There is only one last form that asks for buckets. -/
theorem LastIndexed.unique (first : LastIndexed forms i) (second : LastIndexed forms j) :
    i = j := by
  obtain ⟨⟨form, count, hform, hcount⟩, -⟩ := id first
  obtain ⟨⟨other, number, hother, hnumber⟩, -⟩ := id second
  exact Nat.le_antisymm (second.le hform hcount) (first.le hother hnumber)

/-- A plain form at the end makes no difference to which form asks last. -/
theorem lastIndexed_concat_of_none (plain : form.asked? = none) :
    LastIndexed (forms ++ [form]) i ↔ LastIndexed forms i := by
  refine and_congr ⟨?_, ?_⟩ ⟨fun later j other behind there => ?_,
    fun later j other behind there => ?_⟩
  · rintro ⟨other, count, there, asked⟩
    rcases Schema.getElem?_concat_iff.mp there with earlier | ⟨-, rfl⟩
    · exact ⟨other, count, earlier, asked⟩
    · rw [plain] at asked
      cases asked
  · rintro ⟨other, count, there, asked⟩
    exact ⟨other, count, Schema.getElem?_concat_iff.mpr (.inl there), asked⟩
  · exact later j other behind (Schema.getElem?_concat_iff.mpr (.inl there))
  · rcases Schema.getElem?_concat_iff.mp there with earlier | ⟨-, rfl⟩
    · exact later j other behind earlier
    · exact plain

/-- A form at the end that asks for buckets is the last one that does. -/
theorem lastIndexed_concat_of_some (asked : form.asked? = some count) :
    LastIndexed (forms ++ [form]) i ↔ i = forms.length := by
  have last : LastIndexed (forms ++ [form]) forms.length := by
    refine ⟨⟨form, count, List.getElem?_concat_length, asked⟩, fun j other behind there => ?_⟩
    have inside := (List.getElem?_eq_some_iff.mp there).1
    rw [List.length_append, List.length_singleton] at inside
    omega
  exact ⟨fun other => other.unique last, fun same => same ▸ last⟩

/-- Where forms ask for buckets, there is a last one that does. -/
theorem exists_lastIndexed (member : form ∈ forms) (asked : form.asked? = some count) :
    ∃ i, LastIndexed forms i := by
  induction forms using List.reverseRecOn with
  | nil => cases member
  | append_singleton forms added ih =>
    cases h : added.asked? with
    | some number => exact ⟨_, (lastIndexed_concat_of_some h).mpr rfl⟩
    | none =>
      rcases List.mem_append.mp member with earlier | here
      · obtain ⟨i, last⟩ := ih earlier
        exact ⟨i, (lastIndexed_concat_of_none h).mpr last⟩
      · rw [← List.mem_singleton.mp here, asked] at h
        cases h

end LastIndexed

namespace Schema

/-! ## Schemas and their forms -/

/-- What a schema has of the forms that were added to it. -/
structure Follows (schema : Schema) (forms : List FieldForm) : Prop where
  /-- There is a field for each form. -/
  length_eq : schema.fields.length = forms.length
  /-- The index points to the last form that asks for buckets. -/
  indexed_iff : ∀ {i : ℕ}, schema.indexed = some i ↔ LastIndexed forms i
  /-- Every field is that of its form, without buckets unless the index points to it. -/
  getElem?_eq : ∀ {i : ℕ} {form : FieldForm}, forms[i]? = some form →
    schema.fields[i]? =
      some (if schema.indexed = some i then form.toField i else unindex (form.toField i))

variable {schema : Schema} {forms : List FieldForm} {form : FieldForm}

/-- Taking the index away leaves every field but the indexed one. -/
theorem getElem?_unindexed (schema : Schema) (i : ℕ) :
    schema.unindexed[i]? = schema.fields[i]?.map fun field =>
      if schema.indexed = some i then unindex field else field := by
  unfold unindexed
  cases schema.indexed with
  | none => simp
  | some old =>
    rw [List.getElem?_modify]
    by_cases same : old = i <;> simp [same]

/-- Where a plain form is added, the index stays. -/
theorem add_of_none (plain : form.asked? = none) :
    schema.add form =
      { schema with fields := schema.fields ++ [form.toField schema.fields.length] } := by
  have none : (form.toField schema.fields.length).buckets = none := by
    rw [form.buckets_toField, plain]
    rfl
  unfold add
  dsimp only
  rw [none]

/-- Where a form asks for buckets, it takes the index from the field that had it. -/
theorem add_of_some {count : ℕ} (asked : form.asked? = some count) :
    schema.add form = { schema with
      fields := schema.unindexed ++ [form.toField schema.fields.length]
      indexed := some schema.fields.length } := by
  have given : (form.toField schema.fields.length).buckets = some (max count 1) := by
    rw [form.buckets_toField, asked]
    rfl
  unfold add
  dsimp only
  rw [given, index_toField]
  rfl

/-- A schema without fields follows no forms. -/
theorem follows_empty (type : EventType) : (empty type).Follows [] where
  length_eq := rfl
  indexed_iff := by
    refine iff_of_false nofun ?_
    rintro ⟨⟨form, count, there, -⟩, -⟩
    cases there
  getElem?_eq there := by cases there

/-- A schema goes on following the forms when one is added. -/
theorem Follows.add (follows : schema.Follows forms) (form : FieldForm) :
    (schema.add form).Follows (forms ++ [form]) := by
  have lengths := follows.length_eq
  cases asked : form.asked? with
  | none =>
    rw [add_of_none asked]
    refine ⟨by simp [lengths], fun {i} => ?_, fun {i other} there => ?_⟩
    · rw [lastIndexed_concat_of_none asked]
      exact follows.indexed_iff
    · rcases getElem?_concat_iff.mp there with earlier | ⟨rfl, rfl⟩
      · exact getElem?_concat_iff.mpr (.inl (follows.getElem?_eq earlier))
      · rw [FieldForm.unindex_toField asked, ite_self, ← lengths]
        exact List.getElem?_concat_length
  | some count =>
    rw [add_of_some asked]
    refine ⟨by simp [length_unindexed, lengths], fun {i} => ?_, fun {i other} there => ?_⟩
    · rw [lastIndexed_concat_of_some asked, ← lengths, Option.some.injEq]
      exact eq_comm
    · rcases getElem?_concat_iff.mp there with earlier | ⟨rfl, rfl⟩
      · have before : i < forms.length := (List.getElem?_eq_some_iff.mp earlier).1
        have apart : some schema.fields.length ≠ some i := by
          rw [lengths, ne_eq, Option.some.injEq]
          omega
        refine getElem?_concat_iff.mpr (.inl ?_)
        rw [getElem?_unindexed, follows.getElem?_eq earlier, Option.map_some, if_neg apart]
        split <;> rfl
      · rw [← lengths, if_pos rfl, ← length_unindexed]
        exact List.getElem?_concat_length

/-- A schema follows the forms it is made of. -/
theorem follows_ofForms (type : EventType) (forms : List FieldForm) :
    (ofForms type forms).Follows forms := by
  induction forms using List.reverseRecOn with
  | nil => exact follows_empty type
  | append_singleton forms form ih =>
    unfold ofForms at ih ⊢
    rw [List.foldl_append]
    exact ih.add form

/-- The forms of the fields in order, each as its field knows it. -/
theorem Follows.exists_form (follows : schema.Follows forms) {i : ℕ} {field : Field}
    (there : schema.fields[i]? = some field) : ∃ form, forms[i]? = some form ∧ field =
      if schema.indexed = some i then form.toField i else unindex (form.toField i) := by
  have inside := (List.getElem?_eq_some_iff.mp there).1
  rw [follows.length_eq] at inside
  have found := List.getElem?_eq_getElem inside
  refine ⟨_, found, ?_⟩
  rw [follows.getElem?_eq found] at there
  exact (Option.some.inj there).symm

/-- Every field stands where its form stands, and has its kind. -/
theorem Follows.map_kind (follows : schema.Follows forms) :
    schema.fields.map Field.kind = forms.map FieldForm.kind := by
  refine List.ext_getElem? fun i => ?_
  rw [List.getElem?_map, List.getElem?_map]
  cases there : forms[i]? with
  | none =>
    have beyond := List.getElem?_eq_none_iff.mp there
    rw [List.getElem?_eq_none (follows.length_eq ▸ beyond)]
    rfl
  | some form =>
    rw [follows.getElem?_eq there, Option.map_some, Option.map_some, ← form.kind_toField i]
    split <;> rfl

/-- The prototype holds the zero of the kind of each form. -/
theorem Follows.fields_prototype (follows : schema.Follows forms) :
    schema.prototype.fields = forms.map fun form => form.kind.zero := by
  have kinds := congrArg (List.map Kind.zero) follows.map_kind
  rw [List.map_map, List.map_map] at kinds
  exact kinds

/-- The field of a form is given buckets exactly if it is the last form that asks for some:
as many as it asks for, but at least one. -/
theorem Follows.buckets_eq_some_iff (follows : schema.Follows forms) {i count : ℕ}
    {form : FieldForm} {field : Field} (form_eq : forms[i]? = some form)
    (field_eq : schema.fields[i]? = some field) :
    field.buckets = some count ↔
      LastIndexed forms i ∧ form.asked?.map (fun asked => max asked 1) = some count := by
  rw [follows.getElem?_eq form_eq] at field_eq
  cases field_eq
  rw [← follows.indexed_iff]
  split
  · next here => rw [and_iff_right here, form.buckets_toField]
  · next apart => exact iff_of_false nofun fun both => apart both.1

/-- The field with buckets is the indexed field. -/
theorem Follows.indexedField?_of_lastIndexed (follows : schema.Follows forms) {i : ℕ}
    (last : LastIndexed forms i) : schema.indexedField? = schema.fields[i]? := by
  unfold indexedField?
  rw [follows.indexed_iff.mpr last, Option.bind_some]

/-- There is no indexed field exactly if no form asks for buckets. -/
theorem Follows.indexedField?_eq_none_iff (follows : schema.Follows forms) :
    schema.indexedField? = none ↔ ∀ form ∈ forms, form.asked? = none := by
  constructor
  · intro missing form member
    refine Option.eq_none_iff_forall_ne_some.mpr fun count asked => ?_
    obtain ⟨i, last⟩ := exists_lastIndexed member asked
    obtain ⟨⟨other, number, there, -⟩, -⟩ := id last
    rw [follows.indexedField?_of_lastIndexed last, follows.getElem?_eq there] at missing
    cases missing
  · intro plain
    unfold indexedField?
    cases h : schema.indexed with
    | none => rfl
    | some i =>
      obtain ⟨⟨form, count, there, asked⟩, -⟩ := follows.indexed_iff.mp h
      rw [plain form (List.mem_of_getElem? there)] at asked
      cases asked

end Schema

/-! ## The buckets of a table -/

/-- The schemas of a catalog are made of forms. -/
theorem Catalog.Built.exists_forms {catalog : Catalog} (built : catalog.Built)
    (type : EventType) : ∃ forms, catalog.schema type = .ofForms type forms := by
  induction built with
  | standard keyBuckets => exact ⟨_, schema_standard keyBuckets type⟩
  | register built other forms ih =>
    rw [schema_register]
    split
    · next same =>
      rw [Schema.type_ofForms] at same
      exact ⟨forms, same ▸ rfl⟩
    · exact ih

/-- An event that selects a bucket selects one in front of the wildcard bucket. -/
theorem BucketSet.Formed.primary_lt {set : BucketSet} (formed : set.Formed) {event : Event}
    {number : ℕ} (selects : set.primary event = .ok (some number)) : number < set.wildcard := by
  unfold primary at selects
  cases h : set.spread with
  | none =>
    rw [h] at selects
    cases selects
  | some spread =>
    rw [h] at selects
    dsimp only at selects
    split at selects
    · obtain ⟨n, -, rfl⟩ := Option.map_eq_some_iff.mp (Except.ok.inj selects)
      rw [wildcard_of_spread h]
      exact bucketOf_lt (formed.buckets_pos spread h) n
    · cases selects

/-- An event whose indexed field holds a plain number selects a bucket by the remainder of its
whole reading, which is not negative. -/
theorem BucketSet.Formed.exists_primary {set : BucketSet} (formed : set.Formed) {event : Event}
    {spread : Spread} (spreads : set.spread = some spread)
    (scalar : (event.field spread.field).isScalar = true) :
    ∃ n number, (event.field spread.field).toWhole? = some n ∧
      set.primary event = .ok (some number) ∧ (number : ℤ) = n.toInt % spread.buckets := by
  have numeric : (event.field spread.field).toWhole? ≠ none := by
    intro unread
    rcases Value.toWhole?_eq_none_iff.mp unread with kind | kind <;>
      cases h : event.field spread.field <;> rw [h] at kind scalar <;> cases kind <;> cases scalar
  obtain ⟨n, reads⟩ := Option.ne_none_iff_exists'.mp numeric
  have positive := formed.buckets_pos spread spreads
  exact ⟨n, bucketOf spread.buckets n, reads, primary_eq_some spreads scalar reads,
    Int.toNat_of_nonneg (Int.emod_nonneg _ (by omega))⟩

namespace Table

/-- The tables there are for schemas made of forms: chains were put into them one after
another, whatever the schemas, slots and bindings. -/
inductive Inserted : Table → Prop
  /-- A table without bindings or buckets. -/
  | empty : Inserted .empty
  /-- A table after one more chain. -/
  | insert {table : Table} (inserted : Inserted table) (type : EventType)
    (forms : List FieldForm) (slot : Slot) (bindings : List Binding) :
    Inserted (table.insert (.ofForms type forms) slot bindings)

/-- A table has the buckets that its slots need. -/
theorem Inserted.formed {table : Table} (inserted : table.Inserted) : table.Formed := by
  induction inserted with
  | empty => exact formed_empty
  | insert _ type forms slot bindings ih =>
    exact ih.insert (Schema.lawful_ofForms type forms) slot bindings

/-- The calls of a compiler put chains into a table. -/
theorem Built.inserted {table : Table} (built : table.Built) : table.Inserted := by
  induction built with
  | empty => exact .empty
  | @installed table _ compiler catalog journal declaration interfaceId ih =>
    rcases compiler.install_cases table journal declaration interfaceId with
      ⟨fault, -, same⟩ | ⟨c, -, -, same⟩ | ⟨c, h, -, same⟩
    · rw [same]
      exact ih
    · rw [same]
      exact ih
    · obtain ⟨forms, made⟩ := catalog.exists_forms c.schema.type
      rw [same, Compiler.schema_eq_of_compile catalog h, made]
      exact ih.insert _ forms _ _

end Table

namespace Schema

/-- A schema spreads its type over the buckets of the last form that asks for some. -/
theorem Follows.spreadOf_eq_some_iff {schema : Schema} {forms : List FieldForm}
    (follows : schema.Follows forms) (lawful : schema.Lawful) {spread : Spread} :
    BucketSet.spreadOf schema = some spread ↔ LastIndexed forms spread.field ∧
      (forms[spread.field]?.bind FieldForm.asked?).map (fun asked => max asked 1) =
        some spread.buckets := by
  constructor
  · intro spreads
    obtain ⟨field, indexed, spreads⟩ := Option.bind_eq_some_iff.mp spreads
    obtain ⟨count, given, same⟩ := Option.bind_eq_some_iff.mp spreads
    cases same
    obtain ⟨i, -, there⟩ := Option.bind_eq_some_iff.mp indexed
    obtain ⟨form, found, -⟩ := follows.exists_form there
    rw [lawful.index_eq there, found]
    exact (follows.buckets_eq_some_iff found there).mp given
  · rintro ⟨last, asked⟩
    obtain ⟨⟨form, number, found, -⟩, -⟩ := id last
    have there := follows.getElem?_eq found
    have indexed := (follows.indexedField?_of_lastIndexed last).trans there
    rw [found] at asked
    have given := (follows.buckets_eq_some_iff found there).mpr ⟨last, asked⟩
    rw [BucketSet.spreadOf_eq_some indexed given, lawful.index_eq there]

/-- Whatever forms a schema is made of, every field knows its position, and only the last
that asks for buckets has some, over which the schema spreads its type. In every table
that chains were put into, every slot has a bucket, and an event selects one in front of
the wildcard bucket by the remainder of the number in its indexed field. -/
theorem lastIndexed_spreads (type : EventType) (forms : List FieldForm) :
    let schema := ofForms type forms
    schema.fields.length = forms.length ∧
    (∀ (i : ℕ) (field : Field), schema.fields[i]? = some field → field.index = i) ∧
    (∀ (i count : ℕ) (field : Field), schema.fields[i]? = some field →
      field.buckets = some count →
      LastIndexed forms i ∧ schema.indexedField? = some field ∧ 1 ≤ count) ∧
    (∀ i j, LastIndexed forms i → LastIndexed forms j → i = j) ∧
    (schema.indexedField? = none ↔ ∀ form ∈ forms, form.asked? = none) ∧
    schema.prototype = ⟨type, forms.map fun form => form.kind.zero, false⟩ ∧
    (∀ spread, BucketSet.spreadOf schema = some spread ↔ LastIndexed forms spread.field ∧
      (forms[spread.field]?.bind FieldForm.asked?).map (fun asked => max asked 1) =
        some spread.buckets) ∧
    ∀ table, Table.Inserted table → ∀ set, table.sets.get type = some set →
      set.buckets.size = set.wildcard + 1 ∧
      (∀ slot, set.position slot < set.buckets.size) ∧
      (∀ spread, set.spread = some spread → 0 < spread.buckets ∧
        ∀ number, set.position (.indexed number) < set.wildcard) ∧
      (∀ event spread, set.spread = some spread →
        (event.field spread.field).isScalar = true →
        ∃ n number, (event.field spread.field).toWhole? = some n ∧
          set.primary event = .ok (some number) ∧ (number : ℤ) = n.toInt % spread.buckets) ∧
      ∀ event number, set.primary event = .ok (some number) → number < set.wildcard := by
  intro schema
  have follows : schema.Follows forms := follows_ofForms type forms
  have lawful : schema.Lawful := lawful_ofForms type forms
  refine ⟨follows.length_eq, fun i field there => lawful.index_eq there,
    fun i count field there given => ?_, fun i j first second => first.unique second,
    follows.indexedField?_eq_none_iff, ?_, fun spread => follows.spreadOf_eq_some_iff lawful,
    fun table inserted set there => ?_⟩
  · obtain ⟨form, found, -⟩ := follows.exists_form there
    have last := ((follows.buckets_eq_some_iff found there).mp given).1
    exact ⟨last, (follows.indexedField?_of_lastIndexed last).trans there,
      lawful.buckets_pos there given⟩
  · have types : schema.type = type := type_ofForms type forms
    rw [← follows.fields_prototype, prototype, types]
  · have formed := inserted.formed.set_formed type set there
    exact ⟨formed.size_eq, formed.position_lt, fun spread spreads =>
      ⟨formed.buckets_pos spread spreads,
        BucketSet.position_indexed_lt_wildcard spreads (formed.buckets_pos spread spreads)⟩,
      fun event spread spreads scalar => formed.exists_primary spreads scalar,
      fun event number selects => formed.primary_lt selects⟩

/-- Of two forms of one name, the second has the buckets, seven of them, and the first asks for
none at all. The least number of 64 bits selects the last of the seven, in front of the wildcard
bucket. -/
theorem lastIndexed_spreads_leastLong :
    let forms : List FieldForm :=
      [.indexed "a" .int 0, .plain "b" .float, .key "a" 7, .plain "a" .range]
    let event : Event := ⟨.midiClock, [.int 0, .invalid, .long (-9223372036854775808)], false⟩
    let table := Table.empty.insert (ofForms .midiClock forms) (.indexed 9) []
    LastIndexed forms 2 ∧ ∃ set number, table.sets.get .midiClock = some set ∧
      set.primary event = .ok (some number) ∧ number = 6 ∧ number < set.wildcard := by
  intro forms event table
  obtain ⟨-, -, indexed, -, -, -, spreads, tables⟩ := lastIndexed_spreads .midiClock forms
  have last := (indexed 2 7 ⟨"a", 2, .int, some 7, true⟩ (by decide) rfl).1
  have spread := (spreads ⟨2, 7⟩).mpr ⟨last, by decide⟩
  have there := Table.sets_insert_self .empty (ofForms .midiClock forms) (.indexed 9) []
  obtain ⟨-, -, -, selects, bounded⟩ :=
    tables table (.insert .empty .midiClock forms _ []) _ there
  obtain ⟨n, number, reads, selected, remainder⟩ := selects event _ spread rfl
  cases reads
  refine ⟨last, _, number, there, selected, ?_, bounded event number selected⟩
  have value : (number : ℤ) = 6 := remainder.trans (by decide)
  omega

end Schema

end CueRouter
