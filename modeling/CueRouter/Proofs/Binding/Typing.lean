import CueRouter.Proofs.Binding.Folding
import CueRouter.Proofs.Binding.Installation

/-!
# Typed outputs

Every field of an event has a kind. A value that reaches a field of an output is the
zero of that kind, the number of an interface, the reference that a parameter names, or
the value of an expression converted to the kind. All four suit the field, so whatever a
compiled binding synthesizes from any input is well typed.
-/

namespace CueRouter

/-! ## Values that suit a field -/

/-- The store has a variable at the handle. -/
def Store.Declares (store : Store) (handle : Handle) : Prop :=
  (store.get? handle).isSome = true

/-- The value may stand in the field. -/
structure Field.Admits (field : Field) (store : Store) (value : Value) : Prop where
  /-- The value has the kind of the field, is invalid, or the field takes any value. -/
  kind_eq : value.kind = field.kind ∨ value = .invalid ∨ field.kind = .any
  /-- A field for references holds one to a declared variable or none. -/
  declared : field.kind = .reference →
    value = .invalid ∨ ∃ handle, value = .reference handle ∧ store.Declares handle

namespace Field

variable {field : Field} {store : Store}

/-- Every field may hold the zero of its kind. -/
theorem admits_zero (field : Field) (store : Store) : field.Admits store field.kind.zero := by
  obtain ⟨name, index, kind, buckets, keyNames⟩ := field
  cases kind with
  | byte | int | long | float | range => exact ⟨.inl rfl, nofun⟩
  | any => exact ⟨.inr (.inr rfl), nofun⟩
  | reference => exact ⟨.inr (.inl rfl), fun _ => .inl rfl⟩
  | invalid => exact ⟨.inl rfl, nofun⟩

/-- A field that is not for references may hold whatever is converted to its kind. -/
theorem admits_convert (plain : field.kind ≠ .reference) (store : Store) (value : Value) :
    field.Admits store (value.convert field.kind) := by
  refine ⟨?_, fun reference => absurd reference plain⟩
  by_cases any : field.kind = .any
  · exact .inr (.inr any)
  · exact (value.kind_convert any).imp_right .inl

/-- A field for references may hold one to a declared variable. -/
theorem admits_reference (kind : field.kind = .reference) {handle : Handle}
    (declared : store.Declares handle) : field.Admits store (.reference handle) :=
  ⟨.inl kind.symm, fun _ => .inr ⟨handle, rfl, declared⟩⟩

/-- What a field may hold, it may hold when more variables are declared. -/
theorem Admits.mono {value : Value} (h : field.Admits store value) {later : Store}
    (grown : ∀ handle, store.Declares handle → later.Declares handle) :
    field.Admits later value where
  kind_eq := h.kind_eq
  declared reference := (h.declared reference).imp_right fun ⟨handle, same, declared⟩ =>
    ⟨handle, same, grown handle declared⟩

end Field

/-! ## Events of a schema -/

/-- An event has the fields of a schema, each with a value that suits it, and is no
echo. -/
structure Event.WellTyped (schema : Schema) (store : Store) (event : Event) : Prop where
  /-- The event is of the type of the schema. -/
  type_eq : event.type = schema.type
  /-- The event is not marked as an echo. -/
  echo_eq : event.echo = false
  /-- There is one value for each field. -/
  length_eq : event.fields.length = schema.fields.length
  /-- Every value suits its field. -/
  admits : ∀ (index : Nat) (field : Field), schema.fields[index]? = some field →
    field.Admits store (event.field index)

namespace Event

variable {schema : Schema} {store : Store} {event : Event}

/-- The prototype is well typed. -/
theorem wellTyped_prototype (schema : Schema) (store : Store) :
    schema.prototype.WellTyped schema store where
  type_eq := rfl
  echo_eq := rfl
  length_eq := schema.length_prototype
  admits index field h := by
    have zero : schema.prototype.field index = field.kind.zero := by
      unfold Event.field Schema.prototype
      rw [List.getElem?_map, h]
      rfl
    rw [zero]
    exact field.admits_zero store

/-- An event stays well typed when a field takes a value that suits it. -/
theorem WellTyped.setField (typed : event.WellTyped schema store) {field : Field}
    (h : schema.fields[field.index]? = some field) {value : Value}
    (suits : field.Admits store value) :
    (event.setField field.index value).WellTyped schema store where
  type_eq := typed.type_eq
  echo_eq := typed.echo_eq
  length_eq := (event.length_fields_setField _ _).trans typed.length_eq
  admits index other hother := by
    by_cases same : field.index = index
    · subst same
      cases h.symm.trans hother
      have inside := (List.getElem?_eq_some_iff.mp h).1
      rw [event.field_setField_self value (typed.length_eq ▸ inside)]
      exact suits
    · rw [event.field_setField_of_ne value same]
      exact typed.admits index other hother

/-- An event stays well typed when more variables are declared. -/
theorem WellTyped.mono (typed : event.WellTyped schema store) {later : Store}
    (grown : ∀ handle, store.Declares handle → later.Declares handle) :
    event.WellTyped schema later where
  type_eq := typed.type_eq
  echo_eq := typed.echo_eq
  length_eq := typed.length_eq
  admits index field h := (typed.admits index field h).mono grown

end Event

/-! ## Bindings of a schema -/

/-- The clause writes a field of the schema that is not for references, and converts to
the kind of that field. -/
def Clause.Writes (schema : Schema) (clause : Clause) : Prop :=
  ∃ field : Field, schema.fields[field.index]? = some field ∧
    field.kind ≠ .reference ∧ clause.target = .ofField field

/-- An output stays well typed when a field is computed. -/
theorem Clause.Writes.assign {schema : Schema} {clause : Clause}
    (writes : clause.Writes schema) {store : Store} {output : Event}
    (typed : output.WellTyped schema store) (input : Event) (current : Store) :
    (clause.assign input current output).WellTyped schema store := by
  obtain ⟨field, hfield, plain, target⟩ := writes
  unfold Clause.assign
  rw [target]
  exact typed.setField hfield (Field.admits_convert plain store _)

/-- A binding starts from a well typed event and writes fields of its schema that are
not for references. -/
structure Binding.WellTyped (schema : Schema) (store : Store) (binding : Binding) :
    Prop where
  /-- The prototype is well typed. -/
  prototype : binding.prototype.WellTyped schema store
  /-- Every assignment writes a field of the schema. -/
  assignments : ∀ clause ∈ binding.assignments, clause.Writes schema

namespace Binding

variable {schema : Schema} {store : Store} {binding : Binding}

/-- A binding stays well typed when more variables are declared. -/
theorem WellTyped.mono (typed : binding.WellTyped schema store) {later : Store}
    (grown : ∀ handle, store.Declares handle → later.Declares handle) :
    binding.WellTyped schema later :=
  ⟨typed.prototype.mono grown, typed.assignments⟩

/-- What a well typed binding synthesizes is well typed, whatever the input and the
values of the variables are. -/
theorem WellTyped.synthesize (typed : binding.WellTyped schema store) (input : Event)
    (current : Store) : (binding.synthesize input current).WellTyped schema store := by
  have assigned (clauses : List Clause) (output : Event)
      (writes : ∀ clause ∈ clauses, clause.Writes schema)
      (start : output.WellTyped schema store) :
      (clauses.foldl (fun output clause => clause.assign input current output)
        output).WellTyped schema store := by
    induction clauses generalizing output with
    | nil => exact start
    | cons clause rest ih =>
      exact ih _ (fun other hother => writes other (List.mem_cons_of_mem _ hother))
        ((writes clause List.mem_cons_self).assign start input current)
  exact assigned binding.assignments binding.prototype typed.assignments typed.prototype

end Binding

/-! ## Compiled parameters -/

/-- A variable that a name finds is declared. -/
theorem Store.declares_of_lookup {store : Store} {name : String} {handle : Handle}
    (h : store.lookup name = some handle) : store.Declares handle := by
  obtain ⟨index, hindex, rfl⟩ := Option.map_eq_some_iff.mp h
  have inside := (List.findIdx?_eq_some_iff_getElem.mp hindex).1
  unfold Store.Declares Store.get?
  rw [List.getElem?_eq_getElem inside]
  rfl

/-- An operand that is a variable is a declared one. -/
theorem Scope.declares_of_readToken {scope : Scope} {text : String} {keyNames : Bool}
    {handle : Handle} (h : scope.readToken text keyNames = .ok (.variableAt handle)) :
    scope.store.Declares handle := by
  unfold Scope.readToken at h
  dsimp only at h
  split at h
  · cases h
  · split at h
    · next token found =>
      cases h
      rcases Option.or_eq_some_iff.mp found with key | ⟨-, found⟩
      · unfold Scope.keyToken? at key
        split at key
        · obtain ⟨code, -, same⟩ := Option.map_eq_some_iff.mp key
          cases same
        · cases key
      · rcases Option.or_eq_some_iff.mp found with field | ⟨-, found⟩
        · obtain ⟨field, -, same⟩ := Option.map_eq_some_iff.mp field
          cases same
        · obtain ⟨other, hother, same⟩ := Option.map_eq_some_iff.mp found
          cases same
          exact Store.declares_of_lookup hother
    · cases hliteral : Value.ofLiteral (Text.trim text) with
      | error fault => rw [hliteral] at h; cases h
      | ok value => rw [hliteral] at h; cases h

/-- An expression that is a single variable names a declared one. -/
theorem Scope.declares_of_toVariable? {scope : Scope} {text : String} {keyNames : Bool}
    {expression : Expression} {handle : Handle}
    (h : scope.readExpression text keyNames = .ok expression)
    (single : expression.toVariable? = some handle) : scope.store.Declares handle := by
  obtain ⟨start, hstart, h⟩ := Except.bind_eq_ok.mp h
  obtain ⟨steps, -, h⟩ := Except.bind_eq_ok.mp h
  cases h
  unfold Expression.toVariable? at single
  split at single
  · next other same =>
    cases single
    cases same
    exact Scope.declares_of_readToken hstart
  · cases single

namespace Parameter

/-- A parameter refers to a declared variable where its field is for references, and is
an expression elsewhere. -/
def WellTyped (store : Store) (parameter : Parameter) : Prop :=
  match parameter.content with
  | .expression _ => parameter.field.kind ≠ .reference
  | .reference handle => parameter.field.kind = .reference ∧ store.Declares handle

variable {schema : Schema} {store : Store} {parameter : Parameter}

/-- A compiled parameter keeps the prototype well typed. -/
theorem WellTyped.fill (typed : parameter.WellTyped store)
    (h : schema.fields[parameter.field.index]? = some parameter.field) {event : Event}
    (start : event.WellTyped schema store) :
    (parameter.fold.fill event).WellTyped schema store := by
  obtain ⟨field, content⟩ := parameter
  cases content with
  | reference handle => exact start.setField h (Field.admits_reference typed.1 typed.2)
  | expression expression =>
    unfold fold
    dsimp only
    cases expression.fold? with
    | none => exact start
    | some value => exact start.setField h (Field.admits_convert typed store value)

/-- What is left of a compiled parameter writes its field. -/
theorem WellTyped.writes (typed : parameter.WellTyped store) {clause : Clause}
    (hfield : schema.fields[parameter.field.index]? = some parameter.field)
    (h : parameter.fold.computed? = some clause) : clause.Writes schema := by
  obtain ⟨field, content⟩ := parameter
  unfold fold at h
  cases content with
  | reference handle => cases h
  | expression expression =>
    dsimp only at h
    cases hfold : expression.fold? with
    | none =>
      rw [hfold] at h
      cases h
      exact ⟨field, hfield, typed, rfl⟩
    | some value =>
      rw [hfold] at h
      cases h

end Parameter

namespace Compiler

variable {compiler : Compiler} {input output : Schema} {interfaceId : Int32}

/-- A parameter that reads is well typed. -/
theorem wellTyped_of_readParameter {text : String} {parameter : Parameter}
    (h : compiler.readParameter input output text = .ok parameter) :
    parameter.WellTyped compiler.store := by
  obtain ⟨sides, -, h⟩ := Except.bind_eq_ok.mp h
  cases hf : output.find? sides.name with
  | none => rw [hf] at h; cases h
  | some field =>
    rw [hf] at h
    obtain ⟨expression, hexpression, h⟩ := Except.bind_eq_ok.mp h
    by_cases reference : field.kind = .reference
    · rw [if_pos reference] at h
      cases hv : expression.toVariable? with
      | none => rw [hv] at h; cases h
      | some handle =>
        rw [hv] at h
        cases h
        exact ⟨reference, Scope.declares_of_toVariable? hexpression hv⟩
    · rw [if_neg reference] at h
      cases h
      exact reference

/-- Accepted parameters are well typed and about fields of the schema. -/
theorem wellTyped_of_mem_acceptedParameters (lawful : output.Lawful) {text : String}
    {parameter : Parameter}
    (h : parameter ∈ compiler.acceptedParameters input output text) :
    parameter.WellTyped compiler.store ∧
      output.fields[parameter.field.index]? = some parameter.field := by
  obtain ⟨clause, -, hclause⟩ := List.mem_filterMap.mp h
  cases hread : compiler.readParameter input output clause with
  | error fault => rw [hread] at hclause; cases hclause
  | ok read =>
    rw [hread] at hclause
    cases hclause
    obtain ⟨name, hname⟩ := find?_of_readParameter hread
    exact ⟨wellTyped_of_readParameter hread, lawful.getElem?_of_find? hname⟩

/-- The interface field of a stock schema is an int. -/
theorem kind_interfaceField_stock (keyBuckets : Nat) (type : EventType) {field : Field}
    (h : (Catalog.stock keyBuckets type).find? interfaceField = some field) :
    field.kind = .int := by
  rw [Catalog.find?_interfaceField_stock] at h
  split at h
  · cases h
    rfl
  · cases h

/-- The stamped prototype is well typed where the interface field is an int. -/
theorem wellTyped_stampedPrototype (lawful : output.Lawful)
    (kind : ∀ field, output.find? interfaceField = some field → field.kind = .int)
    (store : Store) (interfaceId : Int32) :
    (stampedPrototype output interfaceId).WellTyped output store := by
  unfold stampedPrototype
  cases h : output.find? interfaceField with
  | none => exact Event.wellTyped_prototype output store
  | some field =>
    have int := kind field h
    refine (Event.wellTyped_prototype output store).setField
      (lawful.getElem?_of_find? h) ⟨.inl int.symm, fun reference => ?_⟩
    rw [int] at reference
    cases reference

/-- Compiled parameters keep a prototype well typed. -/
theorem wellTyped_foldl_fill {parameters : List Parameter}
    (typed : ∀ parameter ∈ parameters, parameter.WellTyped compiler.store ∧
      output.fields[parameter.field.index]? = some parameter.field)
    {start : Event} (h : start.WellTyped output compiler.store) :
    ((parameters.map Parameter.fold).foldl Assignment.fill start).WellTyped output
      compiler.store := by
  induction parameters generalizing start with
  | nil => exact h
  | cons parameter rest ih =>
    obtain ⟨suits, hfield⟩ := typed parameter List.mem_cons_self
    exact ih (fun other hother => typed other (List.mem_cons_of_mem _ hother))
      (suits.fill hfield h)

/-- An output of the stock catalog compiles to well typed bindings, whatever their
conditions are. -/
theorem wellTyped_of_compileOutput {keyBuckets : Nat}
    (standard : compiler.catalog = .standard keyBuckets) {text : OutputText}
    {compiled : CompiledOutput}
    (h : compiler.compileOutput input interfaceId text = .ok compiled) (echo : Bool)
    (conditions : List Clause) :
    (⟨compiled.prototype, echo, conditions, compiled.assignments⟩ : Binding).WellTyped
      (compiler.catalog.schema compiled.prototype.type) compiler.store := by
  obtain ⟨schema, found, -⟩ := Except.bind_eq_ok.mp h
  rw [compileOutput_eq found] at h
  cases h
  obtain ⟨type, rfl⟩ := Catalog.exists_schema_of_lookup found
  have built : compiler.catalog.Built := .of_eq standard
  have lawful := built.lawful type
  have kind : ∀ field, (compiler.catalog.schema type).find? interfaceField = some field →
      field.kind = .int := by
    rw [standard, Catalog.schema_standard]
    exact fun field => kind_interfaceField_stock keyBuckets type
  have typed : ∀ parameter ∈ compiler.acceptedParameters input
      (compiler.catalog.schema type) text.parameters, _ :=
    fun parameter hm => wellTyped_of_mem_acceptedParameters lawful hm
  have prototype := wellTyped_foldl_fill typed
    (wellTyped_stampedPrototype lawful kind compiler.store interfaceId)
  have same := prototype.type_eq.trans (built.type_schema type)
  refine ⟨?_, fun clause hclause => ?_⟩
  · dsimp only
    rw [same]
    exact prototype
  · obtain ⟨assignment, hassignment, hcomputed⟩ := List.mem_filterMap.mp hclause
    obtain ⟨parameter, hparameter, rfl⟩ := List.mem_map.mp hassignment
    obtain ⟨suits, hfield⟩ := typed parameter hparameter
    dsimp only
    rw [same]
    exact suits.writes hfield hcomputed

/-- A declaration compiles to well typed bindings. -/
theorem wellTyped_of_compile {keyBuckets : Nat}
    (standard : compiler.catalog = .standard keyBuckets) {declaration : Declaration}
    {c : Compilation} (h : compiler.compile declaration interfaceId = .ok c)
    {binding : Binding} (hbinding : binding ∈ c.bindings) :
    binding.WellTyped (compiler.catalog.schema binding.prototype.type) compiler.store := by
  rw [(compile_eq_ok h).2.2.2] at hbinding
  obtain ⟨output, houtput, same⟩ := exists_output_of_mem_toBindings hbinding
  obtain ⟨text, -, htext⟩ := List.mem_filterMap.mp houtput
  cases hcompiled : compiler.compileOutput c.schema interfaceId text with
  | error fault => rw [hcompiled] at htext; cases htext
  | ok compiled =>
    rw [hcompiled] at htext
    cases htext
    rw [same]
    exact wellTyped_of_compileOutput standard hcompiled _ _

end Compiler

end CueRouter
