import CueRouter.Proofs.Binding.Compilation

/-!
# Constant parameters go first

The parameters of an output are clauses that each put a value into a field. The
constant ones are carried out when the output is compiled and the others for
each input, so an output is what all of them make of the prototype in the order
written, except that the constant ones go first. Of two parameters on one field
the later one wins, unless the earlier one is computed and the later one
constant; where that never happens, the order is the one written.
-/

namespace CueRouter

/-- What a parameter puts into its field. -/
inductive Content where
  /-- The value of an expression, converted to the kind of the field. -/
  | expression (expression : Expression)
  /-- A reference to a variable. -/
  | reference (handle : Handle)

/-- A parameter as it is written: a field and what goes into it. -/
structure Parameter where
  /-- The field. -/
  field : Field
  /-- What goes into it. -/
  content : Content

namespace Parameter

/-- The value that goes into the field for an input. -/
def value (parameter : Parameter) (input : Event) (store : Store) : Value :=
  match parameter.content with
  | .expression expression =>
    (expression.evaluate input store).convert parameter.field.kind
  | .reference handle => .reference handle

/-- The output with the value in its field. -/
def write (input : Event) (store : Store) (output : Event) (parameter : Parameter) :
    Event :=
  output.setField parameter.field.index (parameter.value input store)

/-- The output after parameters one after another. -/
def writeAll (input : Event) (store : Store) (parameters : List Parameter)
    (output : Event) : Event :=
  parameters.foldl (write input store) output

/-- Whether the value depends on the input or the variables. -/
def isComputed (parameter : Parameter) : Bool :=
  match parameter.content with
  | .expression expression => !expression.isConstant
  | .reference _ => false

/-- Whether the earlier of two parameters wins although the later one is on the same
field: it is computed, and the later one is constant. -/
def Overrules (earlier later : Parameter) : Prop :=
  earlier.field.index = later.field.index ∧
    earlier.isComputed = true ∧ later.isComputed = false

/-- The parameter as it is compiled. -/
def fold (parameter : Parameter) : Assignment :=
  match parameter.content with
  | .expression expression =>
    match expression.fold? with
    | some value =>
      .constant parameter.field.index (value.convert parameter.field.kind)
    | none => .computed ⟨.ofField parameter.field, expression⟩
  | .reference handle => .constant parameter.field.index (.reference handle)

/-! ## Compiling one parameter -/

/-- A constant parameter is filled into the prototype, and nothing is left of it. -/
theorem fold_of_constant {parameter : Parameter} (h : parameter.isComputed = false)
    (input : Event) (store : Store) (output : Event) :
    parameter.fold.fill output = write input store output parameter ∧
      parameter.fold.computed? = none := by
  obtain ⟨field, content⟩ := parameter
  cases content with
  | reference handle => exact ⟨rfl, rfl⟩
  | expression expression =>
    have constant : expression.isConstant = true := by simpa [isComputed] using h
    have hfold : expression.fold? = some (expression.evaluate .blank .empty) := by
      rw [Expression.fold?, if_pos constant]
    have same := Expression.evaluate_of_fold? hfold input store
    unfold fold write value
    dsimp only
    rw [hfold, same]
    exact ⟨rfl, rfl⟩

/-- A computed parameter leaves the prototype alone and stays as a clause that writes
its value. -/
theorem fold_of_computed {parameter : Parameter} (h : parameter.isComputed = true)
    (output : Event) :
    parameter.fold.fill output = output ∧
      ∃ clause, parameter.fold.computed? = some clause ∧
        ∀ input store, clause.assign input store = (write input store · parameter) := by
  obtain ⟨field, content⟩ := parameter
  cases content with
  | reference handle => cases h
  | expression expression =>
    have computed : ¬expression.isConstant = true := by simpa [isComputed] using h
    have hfold : expression.fold? = none := by
      rw [Expression.fold?, if_neg computed]
    unfold fold
    dsimp only
    rw [hfold]
    exact ⟨rfl, _, rfl, fun _ _ => rfl⟩

/-- The prototype after compiled parameters is what the constant ones make of it. -/
theorem foldl_fill (input : Event) (store : Store) (parameters : List Parameter)
    (output : Event) :
    (parameters.map fold).foldl Assignment.fill output =
      writeAll input store (parameters.filter fun p => !p.isComputed) output := by
  induction parameters generalizing output with
  | nil => rfl
  | cons parameter parameters ih =>
    rw [List.map_cons, List.foldl_cons, ih]
    cases h : parameter.isComputed with
    | false =>
      rw [(fold_of_constant h input store output).1, List.filter_cons_of_pos (by simp [h])]
      rfl
    | true =>
      rw [(fold_of_computed h output).1, List.filter_cons_of_neg (by simp [h])]

/-- The clauses that are left make of an output what the computed parameters do. -/
theorem foldl_assign (input : Event) (store : Store) (parameters : List Parameter)
    (output : Event) :
    ((parameters.map fold).filterMap Assignment.computed?).foldl
        (fun output clause => clause.assign input store output) output =
      writeAll input store (parameters.filter isComputed) output := by
  induction parameters generalizing output with
  | nil => rfl
  | cons parameter parameters ih =>
    rw [List.map_cons, List.filterMap_cons]
    cases h : parameter.isComputed with
    | false =>
      rw [(fold_of_constant h input store output).2, List.filter_cons_of_neg (by simp [h])]
      exact ih output
    | true =>
      obtain ⟨clause, hclause, hassign⟩ := (fold_of_computed h output).2
      rw [hclause, List.filter_cons_of_pos h]
      dsimp only
      rw [List.foldl_cons, ih, hassign]
      rfl

/-! ## Moving the constant parameters to the front -/

/-- Two parameters on different fields can change places. -/
theorem write_comm (input : Event) (store : Store) (output : Event)
    {one other : Parameter} (h : one.field.index ≠ other.field.index) :
    write input store (write input store output one) other =
      write input store (write input store output other) one := by
  unfold write Event.setField
  dsimp only
  rw [List.set_comm _ _ h]

/-- A parameter can change places with others on other fields. -/
theorem writeAll_write (input : Event) (store : Store) {parameter : Parameter}
    {others : List Parameter}
    (h : ∀ other ∈ others, parameter.field.index ≠ other.field.index) (output : Event) :
    writeAll input store others (write input store output parameter) =
      write input store (writeAll input store others output) parameter := by
  induction others generalizing output with
  | nil => rfl
  | cons other others ih =>
    have apart := h other List.mem_cons_self
    have rest := ih fun q hq => h q (List.mem_cons_of_mem _ hq)
    unfold writeAll at rest ⊢
    rw [List.foldl_cons, List.foldl_cons, write_comm input store output apart, rest]

/-- Parameters in two lists are carried out one list after the other. -/
theorem writeAll_append (input : Event) (store : Store)
    (first second : List Parameter) (output : Event) :
    writeAll input store (first ++ second) output =
      writeAll input store second (writeAll input store first output) :=
  List.foldl_append

/-- The parameters with the constant ones first, otherwise in order. -/
def constantsFirst (parameters : List Parameter) : List Parameter :=
  (parameters.filter fun p => !p.isComputed) ++ parameters.filter isComputed

/-- Putting the constant parameters first neither adds one nor leaves one out. -/
theorem mem_constantsFirst {parameter : Parameter} {parameters : List Parameter} :
    parameter ∈ constantsFirst parameters ↔ parameter ∈ parameters := by
  cases computed : parameter.isComputed <;> simp [constantsFirst, computed]

/-- Where no parameter overrules a later one, it makes no difference that the
constant ones go first. -/
theorem writeAll_constantsFirst (input : Event) (store : Store)
    {parameters : List Parameter}
    (h : parameters.Pairwise fun earlier later => ¬earlier.Overrules later)
    (output : Event) :
    writeAll input store (constantsFirst parameters) output =
      writeAll input store parameters output := by
  induction parameters generalizing output with
  | nil => rfl
  | cons parameter parameters ih =>
    obtain ⟨hhead, htail⟩ := List.pairwise_cons.mp h
    have rest := ih htail (write input store output parameter)
    unfold constantsFirst at rest ⊢
    cases hc : parameter.isComputed with
    | false =>
      rw [List.filter_cons_of_pos (by simp [hc]), List.filter_cons_of_neg (by simp [hc])]
      exact rest
    | true =>
      have apart : ∀ other ∈ parameters.filter fun p => !p.isComputed,
          parameter.field.index ≠ other.field.index := by
        intro other hother same
        obtain ⟨hm, hconstant⟩ := List.mem_filter.mp hother
        exact hhead other hm ⟨same, hc, by simpa using hconstant⟩
      rw [List.filter_cons_of_neg (by simp [hc]), List.filter_cons_of_pos hc]
      rw [writeAll_append, writeAll_write input store apart] at rest
      rw [writeAll_append]
      exact rest

/-! ## Which parameter wins -/

/-- Parameters leave the number of fields as it was. -/
theorem length_writeAll (input : Event) (store : Store) (parameters : List Parameter)
    (output : Event) :
    (writeAll input store parameters output).fields.length = output.fields.length := by
  induction parameters generalizing output with
  | nil => rfl
  | cons parameter parameters ih =>
    have rest := ih (write input store output parameter)
    unfold write at rest
    rw [Event.length_fields_setField] at rest
    exact rest

/-- Parameters leave the type as it was. -/
theorem type_writeAll (input : Event) (store : Store) (parameters : List Parameter)
    (output : Event) : (writeAll input store parameters output).type = output.type := by
  induction parameters generalizing output with
  | nil => rfl
  | cons parameter parameters ih => exact ih (write input store output parameter)

/-- Parameters on other fields leave a field as it was. -/
theorem field_writeAll_of_ne (input : Event) (store : Store)
    {parameters : List Parameter} {index : Nat}
    (h : ∀ parameter ∈ parameters, parameter.field.index ≠ index) (output : Event) :
    (writeAll input store parameters output).field index = output.field index := by
  induction parameters generalizing output with
  | nil => rfl
  | cons parameter parameters ih =>
    have apart := h parameter List.mem_cons_self
    have rest := ih (fun q hq => h q (List.mem_cons_of_mem _ hq))
      (write input store output parameter)
    unfold write at rest
    rw [Event.field_setField_of_ne _ _ apart] at rest
    exact rest

/-- The last parameter on a field decides its value. -/
theorem field_writeAll_of_last (input : Event) (store : Store)
    (before : List Parameter) {parameter : Parameter} {after : List Parameter}
    {output : Event} (hindex : parameter.field.index < output.fields.length)
    (h : ∀ later ∈ after, later.field.index ≠ parameter.field.index) :
    (writeAll input store (before ++ parameter :: after) output).field
        parameter.field.index = parameter.value input store := by
  have inside : parameter.field.index <
      (writeAll input store before output).fields.length := by
    rw [length_writeAll]
    exact hindex
  rw [writeAll_append]
  change (writeAll input store after
    (write input store (writeAll input store before output) parameter)).field _ = _
  rw [field_writeAll_of_ne input store h]
  exact Event.field_setField_self _ _ inside

/-- A field holds a value that all parameters on it write, if there is one or the field held
the value before. -/
theorem field_writeAll_of_agree (input : Event) (store : Store) {parameters : List Parameter}
    {index : Nat} {value : Value}
    (agree : ∀ parameter ∈ parameters, parameter.field.index = index →
      parameter.value input store = value) {output : Event}
    (inside : index < output.fields.length)
    (held : (∃ parameter ∈ parameters, parameter.field.index = index) ∨
      output.field index = value) :
    (writeAll input store parameters output).field index = value := by
  induction parameters generalizing output with
  | nil => simpa [writeAll] using held
  | cons parameter parameters ih =>
    obtain ⟨first, others⟩ := List.forall_mem_cons.mp agree
    show (writeAll input store parameters (write input store output parameter)).field index =
      value
    refine ih others ?_ ?_
    · rwa [write, Event.length_fields_setField]
    · by_cases same : parameter.field.index = index
      · subst same
        exact .inr ((Event.field_setField_self _ _ inside).trans (first rfl))
      · rw [write, Event.field_setField_of_ne _ _ same]
        simpa [same] using held

/-- Where no earlier parameter overrules this one, and this one overrules every later
one on its field, it decides the value. -/
theorem field_writeAll_constantsFirst (input : Event) (store : Store)
    {before after : List Parameter} {parameter : Parameter} {output : Event}
    (hindex : parameter.field.index < output.fields.length)
    (hbefore : ∀ earlier ∈ before, ¬earlier.Overrules parameter)
    (hafter : ∀ later ∈ after, parameter.field.index = later.field.index →
      parameter.Overrules later) :
    (writeAll input store (constantsFirst (before ++ parameter :: after)) output).field
        parameter.field.index = parameter.value input store := by
  unfold constantsFirst
  rw [List.filter_append, List.filter_append]
  cases hc : parameter.isComputed with
  | true =>
    rw [List.filter_cons_of_neg (by simp [hc]), List.filter_cons_of_pos hc,
      ← List.append_assoc]
    refine field_writeAll_of_last input store _ hindex fun later hlater same => ?_
    obtain ⟨hm, hcomputed⟩ := List.mem_filter.mp hlater
    have overruled := hafter later hm same.symm
    rw [overruled.2.2] at hcomputed
    cases hcomputed
  | false =>
    rw [List.filter_cons_of_pos (by simp [hc]), List.filter_cons_of_neg (by simp [hc]),
      List.append_assoc, List.cons_append]
    refine field_writeAll_of_last input store _ hindex fun later hlater same => ?_
    have none_after : later ∉ after := by
      intro hm
      have computed := (hafter later hm same.symm).2.1
      rw [hc] at computed
      cases computed
    rcases List.mem_append.mp hlater with hm | hm
    · exact none_after (List.mem_filter.mp hm).1
    · rcases List.mem_append.mp hm with hm | hm
      · obtain ⟨hm, hcomputed⟩ := List.mem_filter.mp hm
        exact hbefore later hm ⟨same, hcomputed, hc⟩
      · exact none_after (List.mem_filter.mp hm).1

end Parameter

open Parameter

namespace Compiler

variable {compiler : Compiler} {input output : Schema}

/-- Read one parameter of an output, without carrying anything out. -/
def readParameter (compiler : Compiler) (input output : Schema) (text : String) :
    Except ConfigFault Parameter := do
  let sides ← splitClause text
  match output.find? sides.name with
  | none => .error (.unknownField output.type sides.name)
  | some field =>
    let expression ← (compiler.scope input).readExpression sides.expression false
    if field.kind = .reference then
      match expression.toVariable? with
      | some handle => return ⟨field, .reference handle⟩
      | none => .error (.referenceNotVariable sides.expression)
    else return ⟨field, .expression expression⟩

/-- The parameters of a text that are accepted, in the order written. -/
def acceptedParameters (compiler : Compiler) (input output : Schema) (text : String) :
    List Parameter :=
  (splitClauses text).filterMap fun clause =>
    (compiler.readParameter input output clause).toOption

/-- A parameter compiles exactly when it reads, and to what it folds to. -/
theorem compileAssignment_eq (text : String) :
    compiler.compileAssignment input output text =
      (compiler.readParameter input output text).map fold := by
  unfold compileAssignment readParameter
  cases splitClause text with
  | error fault => rfl
  | ok sides =>
    dsimp only [bind, Except.bind]
    cases output.find? sides.name with
    | none => rfl
    | some field =>
      dsimp only
      cases (compiler.scope input).readExpression sides.expression false with
      | error fault => rfl
      | ok expression =>
        dsimp only
        by_cases hkind : field.kind = .reference
        · rw [if_pos hkind, if_pos hkind]
          cases expression.toVariable? <;> rfl
        · rw [if_neg hkind, if_neg hkind]
          unfold fold
          dsimp only [pure, Except.pure, Except.map]
          cases expression.fold? <;> rfl

/-- The accepted parameters compile to what they fold to, in order. -/
theorem accepted_compileAssignment (text : String) :
    ((splitClauses text).map fun clause =>
        (⟨clause, compiler.compileAssignment input output clause⟩ :
          Piece Assignment)).filterMap Piece.accepted? =
      (compiler.acceptedParameters input output text).map fold := by
  unfold acceptedParameters
  rw [Piece.filterMap_accepted?, List.map_filterMap]
  refine congrArg (List.filterMap · (splitClauses text)) (funext fun clause => ?_)
  rw [compileAssignment_eq]
  cases compiler.readParameter input output clause <;> rfl

/-- A parameter that reads is about a field that the schema finds by name. -/
theorem find?_of_readParameter {text : String} {parameter : Parameter}
    (h : compiler.readParameter input output text = .ok parameter) :
    ∃ name, output.find? name = some parameter.field := by
  obtain ⟨sides, -, h⟩ := Except.bind_eq_ok.mp h
  cases hf : output.find? sides.name with
  | none => rw [hf] at h; cases h
  | some field =>
    rw [hf] at h
    obtain ⟨expression, -, h⟩ := Except.bind_eq_ok.mp h
    refine ⟨sides.name, ?_⟩
    by_cases hkind : field.kind = .reference
    · rw [if_pos hkind] at h
      cases hv : expression.toVariable? with
      | none => rw [hv] at h; cases h
      | some handle => rw [hv] at h; cases h; exact hf
    · rw [if_neg hkind] at h
      cases h
      exact hf

/-- The field of an accepted parameter is one of the schema. -/
theorem index_lt_of_mem_acceptedParameters (lawful : output.Lawful) {text : String}
    {parameter : Parameter}
    (h : parameter ∈ compiler.acceptedParameters input output text) :
    parameter.field.index < output.fields.length := by
  obtain ⟨clause, -, hclause⟩ := List.mem_filterMap.mp h
  cases hread : compiler.readParameter input output clause with
  | error fault => rw [hread] at hclause; cases hclause
  | ok read =>
    rw [hread] at hclause
    cases hclause
    obtain ⟨name, hname⟩ := find?_of_readParameter hread
    exact (List.getElem?_eq_some_iff.mp (lawful.getElem?_of_find? hname)).1

/-- The stamp leaves the number of fields as it was. -/
theorem length_stampedPrototype (schema : Schema) (interfaceId : Int32) :
    (stampedPrototype schema interfaceId).fields.length = schema.fields.length := by
  unfold stampedPrototype
  split
  · rw [Event.length_fields_setField, Schema.length_prototype]
  · exact Schema.length_prototype schema

/-- The stamp leaves the type as it was. -/
theorem type_stampedPrototype (schema : Schema) (interfaceId : Int32) :
    (stampedPrototype schema interfaceId).type = schema.type := by
  unfold stampedPrototype
  split <;> rfl

/-- An output of an unknown type does not compile. -/
theorem compileOutput_of_error {interfaceId : Int32} {text : OutputText}
    {fault : ConfigFault} (found : compiler.catalog.lookup text.event = .error fault) :
    compiler.compileOutput input interfaceId text = .error fault := by
  unfold compileOutput
  rw [found]
  rfl

/-- An output of a known type compiles, and to what its accepted parameters fold
to. -/
theorem compileOutput_eq {interfaceId : Int32} {text : OutputText} {schema : Schema}
    (found : compiler.catalog.lookup text.event = .ok schema) :
    compiler.compileOutput input interfaceId text = .ok
      { prototype := ((compiler.acceptedParameters input schema text.parameters).map
          fold).foldl Assignment.fill (stampedPrototype schema interfaceId)
        assignments := ((compiler.acceptedParameters input schema text.parameters).map
          fold).filterMap Assignment.computed?
        complaints := ((splitClauses text.parameters).map fun clause =>
          (⟨clause, compiler.compileAssignment input schema clause⟩ :
            Piece Assignment)).filterMap Piece.complaint? } := by
  unfold compileOutput
  rw [found]
  dsimp only [bind, Except.bind, pure, Except.pure]
  rw [accepted_compileAssignment]

/-- A binding whose prototype and clauses are what parameters fold to synthesizes what
they make of the prototype, the constant ones first. -/
theorem synthesize_folded (parameters : List Parameter) (echo : Bool)
    (conditions : List Clause) (event : Event) (store : Store) (start : Event) :
    (⟨(parameters.map fold).foldl Assignment.fill start, echo, conditions,
        (parameters.map fold).filterMap Assignment.computed?⟩ :
          Binding).synthesize event store =
      writeAll event store (constantsFirst parameters) start := by
  unfold Binding.synthesize constantsFirst
  rw [foldl_assign, foldl_fill event store, writeAll_append]

/-- What a binding of a compiled output synthesizes is what the accepted parameters
make of the stamped prototype, the constant ones first. Where none is overruled by an
earlier one that is what they make of it in the order written; and of the parameters
on one field the last one wins that no earlier one overrules. -/
theorem synthesize_compileOutput (compiler : Compiler)
    (built : compiler.catalog.Built) (input : Schema) (interfaceId : Int32)
    (output : OutputText) (schema : Schema)
    (found : compiler.catalog.lookup output.event = .ok schema) :
    ∃ compiled, compiler.compileOutput input interfaceId output = .ok compiled ∧
      ∀ (echo : Bool) (conditions : List Clause) (event : Event) (store : Store),
        let binding : Binding :=
          ⟨compiled.prototype, echo, conditions, compiled.assignments⟩
        let accepted := compiler.acceptedParameters input schema output.parameters
        let start := stampedPrototype schema interfaceId
        binding.synthesize event store =
            writeAll event store (constantsFirst accepted) start ∧
          ((accepted.Pairwise fun earlier later => ¬earlier.Overrules later) →
            binding.synthesize event store = writeAll event store accepted start) ∧
          ∀ before parameter after, accepted = before ++ parameter :: after →
            (∀ earlier ∈ before, ¬earlier.Overrules parameter) →
            (∀ later ∈ after, parameter.field.index = later.field.index →
              parameter.Overrules later) →
            (binding.synthesize event store).field parameter.field.index =
              parameter.value event store := by
  obtain ⟨type, hschema⟩ := Catalog.exists_schema_of_lookup found
  have lawful : schema.Lawful := by
    rw [hschema]
    exact built.lawful type
  refine ⟨_, compileOutput_eq found, fun echo conditions event store => ?_⟩
  have folded := synthesize_folded
    (compiler.acceptedParameters input schema output.parameters) echo conditions event
    store (stampedPrototype schema interfaceId)
  refine ⟨folded, fun free => ?_, fun before parameter after split hbefore hafter => ?_⟩
  · rw [folded]
    exact writeAll_constantsFirst event store free _
  · have member : parameter ∈
        compiler.acceptedParameters input schema output.parameters := by
      rw [split]
      exact List.mem_append_right _ List.mem_cons_self
    have hindex := index_lt_of_mem_acceptedParameters lawful member
    rw [← length_stampedPrototype schema interfaceId] at hindex
    rw [folded, split]
    exact field_writeAll_constantsFirst event store hindex hbefore hafter

/-- The stock catalog with one declared variable. -/
def loopCompiler : Compiler :=
  ⟨.standard 512, { entries := [⟨"LOOP", .owned ⟨.int, .int 7⟩⟩] }, .exact []⟩

/-- An output with a computed parameter and a later constant one on the same field. -/
def twiceIndexed : OutputText :=
  ⟨"trigger-loop", "index=LOOP and index=1 and engage=1"⟩

/-- The variable wins over the later constant. -/
theorem synthesize_compileOutput_twiceIndexed :
    ∃ compiled,
      loopCompiler.compileOutput ((Catalog.standard 512).schema .key) 0 twiceIndexed =
        .ok compiled ∧
      (⟨compiled.prototype, false, [], compiled.assignments⟩ : Binding).synthesize .blank
          loopCompiler.store =
        ⟨.triggerLoop, [.int 7, .float .zero, .int 1], false⟩ := by
  obtain ⟨compiled, hcompiled, law⟩ := synthesize_compileOutput loopCompiler
    (.standard 512) ((Catalog.standard 512).schema .key) 0 twiceIndexed
    ((Catalog.standard 512).schema .triggerLoop) (by rfl)
  refine ⟨compiled, hcompiled, ?_⟩
  rw [(law false [] .blank loopCompiler.store).1]
  decide +kernel

/-- Not every output is what its accepted parameters make of the prototype in the
order written. -/
theorem not_synthesize_eq_writeAll :
    ¬∀ (keyBuckets : Nat) (store : Store) (keys : KeyNames) (input schema : Schema)
        (interfaceId : Int32) (output : OutputText) (compiled : CompiledOutput)
        (echo : Bool) (conditions : List Clause) (event : Event) (current : Store),
      let compiler : Compiler := ⟨.standard keyBuckets, store, keys⟩
      compiler.catalog.lookup output.event = .ok schema →
      compiler.compileOutput input interfaceId output = .ok compiled →
      (⟨compiled.prototype, echo, conditions, compiled.assignments⟩ :
          Binding).synthesize event current =
        writeAll event current
          (compiler.acceptedParameters input schema output.parameters)
          (stampedPrototype schema interfaceId) := by
  intro all
  have found : loopCompiler.catalog.lookup twiceIndexed.event =
      .ok ((Catalog.standard 512).schema .triggerLoop) := rfl
  have inOrder := all 512 loopCompiler.store loopCompiler.keys
    ((Catalog.standard 512).schema .key) _ 0 twiceIndexed _ false [] .blank
    loopCompiler.store found (compileOutput_eq found)
  rw [synthesize_folded] at inOrder
  exact absurd inOrder (by decide +kernel)

end Compiler

end CueRouter
