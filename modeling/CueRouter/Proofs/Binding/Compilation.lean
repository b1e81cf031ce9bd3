import CueRouter.Binding.Compile
import CueRouter.Proofs.Event.Lawful

/-!
# What a compiled declaration is made of

A declaration compiles against the catalog's own schema of its input. Its
conditions are those of the accepted clauses in order, its slot is the bucket of
the first of them that has one, and the first binding of its chain carries all
the conditions. A clause on a field compares that field and may confine the
chain to a bucket; a clause on a variable never does.
-/

namespace CueRouter

/-- A bind in `Except` yields a result exactly when both of its steps do. -/
theorem Except.bind_eq_ok {ε α β : Type} {first : Except ε α} {next : α → Except ε β}
    {result : β} : (first >>= next) = .ok result ↔
      ∃ value, first = .ok value ∧ next value = .ok result := by
  cases first with
  | error fault => simp [bind, Except.bind]
  | ok value => simp [bind, Except.bind]

/-- What is accepted of pieces is what their texts were read as. -/
theorem Piece.filterMap_accepted? {α β : Type} (items : List β) (text : β → String)
    (read : β → Except ConfigFault α) :
    (items.map fun item => (⟨text item, read item⟩ : Piece α)).filterMap Piece.accepted? =
      items.filterMap fun item => (read item).toOption := by
  rw [List.filterMap_map]
  rfl

/-- The type of the input that the declaration names. -/
def Declaration.input? (declaration : Declaration) : Option EventType :=
  (declaration.get? "input").bind fun name => EventType.ofName? (Text.trim name)

namespace Compiler

variable {compiler : Compiler} {declaration : Declaration} {schema : Schema}

/-- The schema of an input is the one the catalog keeps for the type that the declaration
names, which is bindable. -/
theorem inputSchema_eq_ok_iff : compiler.inputSchema declaration = .ok schema ↔
    ∃ type, declaration.input? = some type ∧ compiler.catalog.schema type = schema ∧
      schema.type.isBindable = true := by
  unfold inputSchema Declaration.input?
  cases declaration.get? "input" with
  | none => simp
  | some input =>
    simp only [Except.bind_eq_ok, Catalog.lookup_eq_ok_iff, Option.bind_some]
    constructor
    · rintro ⟨found, ⟨type, named, rfl⟩, kept⟩
      split at kept
      · next bindable =>
        cases kept
        exact ⟨type, named, rfl, bindable⟩
      · cases kept
    · rintro ⟨type, named, rfl, bindable⟩
      exact ⟨_, ⟨type, named, rfl⟩, if_pos bindable⟩

/-- The schema of an input is the one the catalog keeps for some bindable
type. -/
theorem inputSchema_eq_ok (h : compiler.inputSchema declaration = .ok schema) :
    ∃ type, schema = compiler.catalog.schema type ∧ schema.type.isBindable = true := by
  obtain ⟨type, -, same, bindable⟩ := inputSchema_eq_ok_iff.mp h
  exact ⟨type, same.symm, bindable⟩

/-- The text of the conditions of a declaration. -/
def conditionsText (declaration : Declaration) : String :=
  (declaration.get? "conditions").getD ""

/-- The outputs of a declaration that compile, in order. -/
def acceptedOutputs (compiler : Compiler) (schema : Schema) (interfaceId : Int32)
    (outputs : List OutputText) : List CompiledOutput :=
  outputs.filterMap fun output =>
    (compiler.compileOutput schema interfaceId output).toOption

/-- A compilation is made of the schema of the input, the compiled conditions
and the outputs that compile. -/
theorem compile_eq_ok {interfaceId : Int32} {compilation : Compilation}
    (h : compiler.compile declaration interfaceId = .ok compilation) :
    compiler.inputSchema declaration = .ok compilation.schema ∧
      declaration.outputs ≠ [] ∧
      compilation.slot = (compiler.compileConditions compilation.schema
        (conditionsText declaration) interfaceId).slot ∧
      compilation.bindings = toBindings (compiler.compileConditions
          compilation.schema (conditionsText declaration) interfaceId).clauses
        declaration.wantsEcho
        (compiler.acceptedOutputs compilation.schema interfaceId
          declaration.outputs) := by
  obtain ⟨schema, hs, h⟩ := Except.bind_eq_ok.mp h
  by_cases ho : declaration.outputs.isEmpty = true
  · rw [if_pos ho] at h
    cases h
  · rw [if_neg ho] at h
    cases h
    refine ⟨hs, by simpa using ho, rfl, ?_⟩
    exact congrArg (toBindings _ _) (Piece.filterMap_accepted? _ _ _)

/-- A declaration on an input compiles if it has an output. -/
theorem exists_compile_of_inputSchema (found : compiler.inputSchema declaration = .ok schema)
    (outputs : declaration.outputs ≠ []) (interfaceId : Int32) :
    ∃ c, compiler.compile declaration interfaceId = .ok c := by
  have some : declaration.outputs.isEmpty = false := by simpa using outputs
  unfold compile
  rw [found]
  exact ⟨_, if_neg (by simp [some])⟩

/-- The first of the bindings carries the conditions. -/
theorem conditions_head?_toBindings {conditions : List Clause} {echo : Bool}
    {outputs : List CompiledOutput} {head : Binding}
    (h : (toBindings conditions echo outputs).head? = some head) :
    head.conditions = conditions := by
  cases outputs with
  | nil => cases h
  | cons first rest => cases h; rfl

/-- There is a binding for each output. -/
theorem length_toBindings (conditions : List Clause) (echo : Bool)
    (outputs : List CompiledOutput) :
    (toBindings conditions echo outputs).length = outputs.length := by
  cases outputs with
  | nil => rfl
  | cons first rest => rw [toBindings, List.length_cons, List.length_map, List.length_cons]

/-- Each of the bindings is made of one of the outputs. -/
theorem exists_output_of_mem_toBindings {conditions : List Clause} {echo : Bool}
    {outputs : List CompiledOutput} {binding : Binding}
    (h : binding ∈ toBindings conditions echo outputs) :
    ∃ output ∈ outputs, binding =
      ⟨output.prototype, binding.echo, binding.conditions, output.assignments⟩ := by
  cases outputs with
  | nil => cases h
  | cons first rest =>
    rcases List.mem_cons.mp h with rfl | hrest
    · exact ⟨first, List.mem_cons_self, rfl⟩
    · obtain ⟨output, houtput, rfl⟩ := List.mem_map.mp hrest
      exact ⟨output, List.mem_cons_of_mem _ houtput, rfl⟩

/-- Bindings apply where there is an output and all conditions hold. -/
theorem head?_any_toBindings (conditions : List Clause) (echo : Bool)
    (outputs : List CompiledOutput) (event : Event) (store : Store) :
    ((toBindings conditions echo outputs).head?.any fun head => head.applies event store) =
      (!outputs.isEmpty && conditions.all fun clause => clause.holds event store) := by
  cases outputs <;> rfl

/-- A condition that compiles is about the field its name finds, or else about
the variable, which confines nothing. -/
theorem compileCondition_cases {text : String} {condition : Condition}
    (h : compiler.compileCondition schema text = .ok condition) :
    (∃ sides field expression, splitClause text = .ok sides ∧
        schema.find? sides.name = some field ∧
        (compiler.scope schema).readExpression sides.expression field.keyNames =
          .ok expression ∧
        condition = ⟨⟨.ofField field, expression⟩,
          Condition.bucketFor field expression⟩) ∨
      ∃ sides handle expression, splitClause text = .ok sides ∧
        schema.find? sides.name = none ∧
        compiler.store.lookup sides.name = some handle ∧
        (compiler.scope schema).readExpression sides.expression false =
          .ok expression ∧
        condition = ⟨⟨.variableAt handle, expression⟩, none⟩ := by
  obtain ⟨sides, hs, h⟩ := Except.bind_eq_ok.mp h
  cases hf : schema.find? sides.name with
  | some field =>
    rw [hf] at h
    obtain ⟨expression, he, h⟩ := Except.bind_eq_ok.mp h
    cases h
    exact .inl ⟨sides, field, expression, hs, hf, he, rfl⟩
  | none =>
    rw [hf] at h
    dsimp only at h
    cases hv : compiler.store.lookup sides.name with
    | none => rw [hv] at h; cases h
    | some handle =>
      rw [hv] at h
      obtain ⟨expression, he, h⟩ := Except.bind_eq_ok.mp h
      cases h
      exact .inr ⟨sides, handle, expression, hs, hf, hv, he, rfl⟩

/-- The conditions that compile, in order. -/
def acceptedConditions (compiler : Compiler) (schema : Schema) (text : String) :
    List Condition :=
  (splitClauses text).filterMap fun clause =>
    (compiler.compileCondition schema clause).toOption

/-- An accepted condition is what one of the clauses compiles to. -/
theorem mem_acceptedConditions {text : String} {condition : Condition} :
    condition ∈ compiler.acceptedConditions schema text ↔
      ∃ clause ∈ splitClauses text,
        compiler.compileCondition schema clause = .ok condition := by
  unfold acceptedConditions
  rw [List.mem_filterMap]
  refine exists_congr fun clause => and_congr_right fun _ => ?_
  cases compiler.compileCondition schema clause <;> simp [Except.toOption]

/-- The compiled conditions are the accepted ones with the implicit one behind
them, in the bucket of the first that has one. -/
theorem compileConditions_eq (text : String) (interfaceId : Int32) :
    (compiler.compileConditions schema text interfaceId).clauses =
        (compiler.acceptedConditions schema text).map Condition.clause ++
          implicitCondition schema interfaceId
            ((compiler.acceptedConditions schema text).map Condition.clause) ∧
      (compiler.compileConditions schema text interfaceId).slot =
        (((compiler.acceptedConditions schema text).findSome?
          Condition.bucket).map Slot.indexed).getD .wildcard := by
  have accepted : ((splitClauses text).map fun clause =>
        (⟨clause, compiler.compileCondition schema clause⟩ : Piece Condition)).filterMap
      Piece.accepted? = compiler.acceptedConditions schema text :=
    Piece.filterMap_accepted? _ _ _
  unfold compileConditions
  dsimp only
  rw [accepted]
  exact ⟨rfl, rfl⟩

/-- A chain is confined to the bucket of one of its conditions. -/
theorem exists_condition_of_slot {text : String} {interfaceId : Int32} {number : Nat}
    (h : (compiler.compileConditions schema text interfaceId).slot =
      .indexed number) :
    ∃ clause ∈ splitClauses text, ∃ condition,
      compiler.compileCondition schema clause = .ok condition ∧
      condition.bucket = some number ∧
      condition.clause ∈
        (compiler.compileConditions schema text interfaceId).clauses := by
  obtain ⟨hc, hs⟩ := @compileConditions_eq compiler schema text interfaceId
  rw [hs] at h
  cases hf : (compiler.acceptedConditions schema text).findSome? Condition.bucket with
  | none => rw [hf] at h; cases h
  | some first =>
    rw [hf] at h
    cases h
    obtain ⟨condition, hm, hb⟩ := List.exists_of_findSome?_eq_some hf
    obtain ⟨clause, hcl, hcompiled⟩ := mem_acceptedConditions.mp hm
    refine ⟨clause, hcl, condition, hcompiled, hb, ?_⟩
    rw [hc]
    exact List.mem_append_left _ (List.mem_map_of_mem hm)

/-- A condition with a bucket compares a field that has buckets with a constant
number. -/
theorem bucket_eq_some {text : String} {condition : Condition} {number : Nat}
    (h : compiler.compileCondition schema text = .ok condition)
    (hb : condition.bucket = some number) :
    ∃ name field count constant n, schema.find? name = some field ∧
      field.buckets = some count ∧ condition.clause.target = .ofField field ∧
      condition.clause.expression.fold? = some constant ∧
      constant.isScalar = true ∧ constant.toWhole? = some n ∧
      number = bucketOf count n := by
  rcases compileCondition_cases h with
    ⟨sides, field, expression, -, hf, -, rfl⟩ | ⟨sides, handle, expression, -, -, -, -, rfl⟩
  · dsimp only [Condition.bucketFor] at hb
    obtain ⟨count, hcount, hb⟩ := Option.bind_eq_some_iff.mp hb
    obtain ⟨constant, hfold, hb⟩ := Option.bind_eq_some_iff.mp hb
    by_cases hscalar : constant.isScalar = true
    · rw [if_pos hscalar] at hb
      obtain ⟨n, hn, rfl⟩ := Option.map_eq_some_iff.mp hb
      exact ⟨sides.name, field, count, constant, n, hf, hcount, rfl, hfold, hscalar,
        hn, rfl⟩
    · rw [if_neg hscalar] at hb
      cases hb
  · cases hb

end Compiler

end CueRouter
