import CueRouter.Proofs.Binding.Folding
import CueRouter.Proofs.Expression.Recall

/-!
# Declarations that copy fields

A declaration may do no more than copy fields of its input to fields of the same names. A
name in an expression means a field of the input first of all, so such a declaration compiles
to the same binding whatever the variables and the key names are, and the output holds what
the input holds in these fields.
-/

namespace CueRouter

open Text

/-- The clauses copy fields of these names, and do nothing else. -/
structure CopiesFields (clauses : List String) (fields : List String) : Prop where
  /-- Every clause copies one of the fields. -/
  only : ∀ clause ∈ clauses, ∃ name ∈ fields, splitClause clause = .ok ⟨name, name⟩
  /-- Every field is copied. -/
  every : ∀ name ∈ fields, ∃ clause ∈ clauses, splitClause clause = .ok ⟨name, name⟩

namespace Declaration

/-- The declaration has no condition and one output, which copies these fields. -/
structure Copies (declaration : Declaration) (output : EventType) (fields : List String) :
    Prop where
  /-- There is no condition. -/
  unconditional : splitClauses (Compiler.conditionsText declaration) = []
  /-- There is one output, and its parameters copy the fields. -/
  single : ∃ text, declaration.outputs = [text] ∧
    EventType.ofName? (trim text.event) = some output ∧
    CopiesFields (splitClauses text.parameters) fields

end Declaration

/-- A field of the name can be copied by it: both schemas have one, for ints, and nothing in
the name is an operator or a blank at an end. -/
structure Schema.Shares (input output : Schema) (name : String) : Prop where
  /-- The name is trimmed. -/
  trimmed : trim name = name
  /-- The name is a name. -/
  nonempty : name ≠ ""
  /-- The name holds no operator. -/
  free : OperatorFree name.toList
  /-- The input has the field. -/
  source : (input.find? name).isSome = true
  /-- The output has the field, for ints. -/
  target : (output.find? name).map Field.kind = some .int

/-- Whether a field can be copied by its name can be read off the schemas. -/
instance (input output : Schema) (name : String) : Decidable (input.Shares output name) :=
  decidable_of_iff (trim name = name ∧ name ≠ "" ∧ OperatorFree name.toList ∧
      (input.find? name).isSome = true ∧ (output.find? name).map Field.kind = some .int)
    ⟨fun ⟨trimmed, nonempty, free, source, target⟩ =>
      ⟨trimmed, nonempty, free, source, target⟩,
    fun shares =>
      ⟨shares.trimmed, shares.nonempty, shares.free, shares.source, shares.target⟩⟩

/-- The parameter that copies one field to another. -/
def Parameter.copy (source target : Field) : Parameter :=
  ⟨target, .expression ⟨.ofField source, []⟩⟩

/-- The binding makes of an input an event of the type that holds the same as the input in
these fields, where there are ints. -/
def Binding.Copies (binding : Binding) (catalog : Catalog) (input : Schema)
    (output : EventType) (fields : List String) : Prop :=
  ∀ event store, (binding.synthesize event store).type = output ∧
    ∀ name ∈ fields, ∀ n, input.read? event name = some (.int n) →
      catalog.read? (binding.synthesize event store) name = some (.int n)

namespace Compiler

variable {compiler : Compiler} {input output : Schema} {fields : List String}

/-- A clause that copies a field is read as the parameter that does, whatever variables and
key names there are. -/
theorem readParameter_of_copies {clause name : String} {source target : Field}
    (shares : input.Shares output name) (sides : splitClause clause = .ok ⟨name, name⟩)
    (hs : input.find? name = some source) (ht : output.find? name = some target) :
    compiler.readParameter input output clause = .ok (.copy source target) := by
  have resolves : (compiler.scope input).nameToken? false name = some (.ofField source) := by
    unfold Scope.nameToken? Scope.keyToken? Scope.fieldToken? scope
    simp [hs]
  have read : (compiler.scope input).readExpression name false =
      .ok ⟨.ofField source, []⟩ := by
    refine Scope.readExpression_of_free shares.free (Scope.readToken_of_nameToken? ?_ ?_)
    · rw [shares.trimmed]
      exact shares.nonempty
    · rw [shares.trimmed]
      exact resolves
  have kind : target.kind ≠ .reference := by
    have int := shares.target
    rw [ht] at int
    simp [Option.some.inj int]
  unfold readParameter
  simp only [sides, bind, Except.bind, ht, read, kind, if_false]
  rfl

/-- The accepted parameters of clauses that copy fields are those that copy them. -/
theorem mem_acceptedParameters_of_copies {parameters : String}
    (copies : CopiesFields (splitClauses parameters) fields)
    (shares : ∀ name ∈ fields, input.Shares output name) {parameter : Parameter} :
    parameter ∈ compiler.acceptedParameters input output parameters ↔
      ∃ name ∈ fields, ∃ source target, input.find? name = some source ∧
        output.find? name = some target ∧ parameter = .copy source target := by
  unfold acceptedParameters
  rw [List.mem_filterMap]
  constructor
  · rintro ⟨clause, among, read⟩
    obtain ⟨name, member, sides⟩ := copies.only clause among
    obtain ⟨source, hs⟩ := Option.isSome_iff_exists.mp (shares name member).source
    obtain ⟨target, ht, -⟩ := Option.map_eq_some_iff.mp (shares name member).target
    rw [readParameter_of_copies (shares name member) sides hs ht] at read
    cases read
    exact ⟨name, member, source, target, hs, ht, rfl⟩
  · rintro ⟨name, member, source, target, hs, ht, rfl⟩
    obtain ⟨clause, among, sides⟩ := copies.every name member
    refine ⟨clause, among, ?_⟩
    rw [readParameter_of_copies (shares name member) sides hs ht]
    rfl

/-- What accepted parameters of clauses that copy fields make of an event holds what the
input holds in these fields. -/
theorem field_writeAll_of_copies (lawful : output.Lawful) {parameters : String}
    (copies : CopiesFields (splitClauses parameters) fields)
    (shares : ∀ name ∈ fields, input.Shares output name) {name : String}
    (member : name ∈ fields) {source target : Field} (hs : input.find? name = some source)
    (ht : output.find? name = some target) (event : Event) (store : Store) {start : Event}
    (inside : start.fields.length = output.fields.length) :
    (Parameter.writeAll event store (Parameter.constantsFirst
        (compiler.acceptedParameters input output parameters)) start).field target.index =
      (event.field source.index).convert target.kind := by
  refine Parameter.field_writeAll_of_agree event store ?_ ?_ (.inl ?_)
  · intro parameter among same
    rw [Parameter.mem_constantsFirst, mem_acceptedParameters_of_copies copies shares] at among
    obtain ⟨other, -, otherSource, otherTarget, hos, hot, rfl⟩ := among
    obtain ⟨rfl, rfl⟩ := lawful.eq_of_index_eq hot ht same
    rw [hs] at hos
    cases hos
    rfl
  · rw [inside]
    exact (List.getElem?_eq_some_iff.mp (lawful.getElem?_of_find? ht)).1
  · refine ⟨.copy source target, ?_, rfl⟩
    rw [Parameter.mem_constantsFirst, mem_acceptedParameters_of_copies copies shares]
    exact ⟨name, member, source, target, hs, ht, rfl⟩

/-- An output that copies fields compiles, and its bindings copy them. -/
theorem exists_compileOutput_of_copies (built : compiler.catalog.Built) {text : OutputText}
    {type : EventType} (named : EventType.ofName? (trim text.event) = some type)
    (copies : CopiesFields (splitClauses text.parameters) fields)
    (shares : ∀ name ∈ fields, input.Shares (compiler.catalog.schema type) name)
    (interfaceId : Int32) :
    ∃ compiled, compiler.compileOutput input interfaceId text = .ok compiled ∧
      ∀ echo conditions,
        (⟨compiled.prototype, echo, conditions, compiled.assignments⟩ : Binding).Copies
          compiler.catalog input type fields := by
  have found : compiler.catalog.lookup text.event = .ok (compiler.catalog.schema type) :=
    Catalog.lookup_eq_ok_iff.mpr ⟨type, named, rfl⟩
  refine ⟨_, compileOutput_eq found, fun echo conditions event store => ?_⟩
  rw [synthesize_folded]
  have typed : (Parameter.writeAll event store (Parameter.constantsFirst
      (compiler.acceptedParameters input (compiler.catalog.schema type) text.parameters))
      (stampedPrototype (compiler.catalog.schema type) interfaceId)).type = type := by
    rw [Parameter.type_writeAll, type_stampedPrototype, built.type_schema]
  refine ⟨typed, fun name member n read => ?_⟩
  obtain ⟨source, hs, held⟩ := Option.map_eq_some_iff.mp read
  obtain ⟨target, ht, int⟩ := Option.map_eq_some_iff.mp (shares name member).target
  rw [Catalog.read?, typed, Schema.read?, ht, Option.map_some,
    field_writeAll_of_copies (built.lawful type) copies shares member hs ht event store
      (length_stampedPrototype _ interfaceId), held, int]
  rfl

/-- A declaration that compiles names the type of its input. -/
theorem input?_of_compile (built : compiler.catalog.Built) {declaration : Declaration}
    {interfaceId : Int32} {c : Compilation}
    (h : compiler.compile declaration interfaceId = .ok c) :
    declaration.input? = some c.schema.type := by
  obtain ⟨type, named, same, -⟩ := inputSchema_eq_ok_iff.mp (compile_eq_ok h).1
  rw [named, ← same, built.type_schema]

/-- A declaration that copies fields compiles to a single binding, which copies them for the
interface that it is made under. -/
theorem exists_compile_of_copies (built : compiler.catalog.Built)
    {declaration : Declaration} {source target : EventType}
    (bindable : source.isBindable = true) (named : declaration.input? = some source)
    (copies : declaration.Copies target fields)
    (shares : ∀ name ∈ fields,
      (compiler.catalog.schema source).Shares (compiler.catalog.schema target) name)
    (interfaceId : Int32) :
    ∃ c binding, compiler.compile declaration interfaceId = .ok c ∧
      c.schema = compiler.catalog.schema source ∧ c.slot = .wildcard ∧
      c.bindings = [binding] ∧
      binding.conditions = implicitCondition (compiler.catalog.schema source) interfaceId [] ∧
      binding.Copies compiler.catalog (compiler.catalog.schema source) target fields := by
  obtain ⟨text, single, event, copied⟩ := copies.single
  obtain ⟨output, compiled, copying⟩ :=
    exists_compileOutput_of_copies built event copied shares interfaceId
  have found : compiler.inputSchema declaration = .ok (compiler.catalog.schema source) :=
    inputSchema_eq_ok_iff.mpr ⟨source, named, rfl, by rwa [built.type_schema]⟩
  have none : compiler.acceptedConditions (compiler.catalog.schema source)
      (conditionsText declaration) = [] := by
    rw [acceptedConditions, copies.unconditional]
    rfl
  obtain ⟨c, hc⟩ := exists_compile_of_inputSchema found (by simp [single]) interfaceId
  obtain ⟨known, -, slot, bindings⟩ := compile_eq_ok hc
  have schema : c.schema = compiler.catalog.schema source :=
    (Except.ok.inj (found.symm.trans known)).symm
  obtain ⟨clauses, place⟩ := @compileConditions_eq compiler (compiler.catalog.schema source)
    (conditionsText declaration) interfaceId
  rw [none, List.map_nil, List.nil_append] at clauses
  rw [none] at place
  rw [schema, place] at slot
  rw [schema, clauses, acceptedOutputs, single, List.filterMap_cons, compiled] at bindings
  exact ⟨c, _, hc, schema, slot, bindings, rfl, copying _ _⟩

/-- Where nothing else is asked, an event under the interface is answered. -/
theorem holds_implicitCondition {schema : Schema} {interfaceId : Int32} {event : Event}
    (under : schema.read? event interfaceField = some (.int interfaceId)) (store : Store) :
    (implicitCondition schema interfaceId []).all (fun clause => clause.holds event store) =
      true := by
  obtain ⟨field, found, held⟩ := Option.map_eq_some_iff.mp under
  have asked : implicitCondition schema interfaceId [] =
      [⟨.ofField field, .constant (.int interfaceId)⟩] := by
    simp [implicitCondition, found]
  have reads : (Token.ofField field).evaluate event store = .int interfaceId := held
  rw [asked, List.all_cons, List.all_nil, Bool.and_true, Clause.holds, reads]
  exact beq_self_eq_true _

end Compiler

end CueRouter
