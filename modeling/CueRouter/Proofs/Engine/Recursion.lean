import CueRouter.Proofs.Dispatch.Recursion
import CueRouter.Proofs.Engine.Installing

/-!
# A subroutine that calls itself

A declaration can answer the calls of a subroutine by calls of the same subroutine. It
compiles to a chain of bindings that all broadcast one event, which the chain answers
again. In an engine with no other declaration such a call is cut off at the limit: every
call but those of the last level is answered by all outputs, and those of the last level
are reported.
-/

namespace CueRouter

open Text

/-- The call of subroutine one under interface zero, without parameters. -/
def firstCall : Event := ⟨.goSub, [.int 0, .int 1, .int 0, .int 0, .int 0], false⟩

/-- The declaration is on subroutine one and calls it `n` times, without an echo. -/
structure Declaration.CallsItself (declaration : Declaration) (n : Nat) : Prop where
  /-- It is on subroutine calls. -/
  input : declaration.get? "input" = some "go-sub"
  /-- It is on calls of subroutine one. -/
  conditions : declaration.get? "conditions" = some "sub=1"
  /-- Each output calls subroutine one. -/
  outputs : declaration.outputs = List.replicate n ⟨"go-sub", "sub=1"⟩
  /-- No echo is asked for. -/
  silent : declaration.wantsEcho = false

/-- The conditions for calls of subroutine one under interface zero. -/
def subConditions : List Clause :=
  [⟨.field 1 .int, .constant (.int 1)⟩, ⟨.field 0 .int, .constant (.int 0)⟩]

/-- The schema of subroutine calls, which is the same in every stock catalog. -/
def callSchema : Schema := Catalog.stock 0 .goSub

namespace Catalog

variable (keyBuckets : Nat)

/-- The subroutine calls of a stock catalog are not grouped by keys. -/
theorem schema_goSub : (standard keyBuckets).schema .goSub = callSchema :=
  schema_standard keyBuckets .goSub

/-- Subroutine calls are found by their name. -/
theorem lookup_goSub : (standard keyBuckets).lookup "go-sub" = .ok callSchema := by
  have named : EventType.ofName? (trim "go-sub") = some .goSub := by decide +kernel
  unfold lookup
  rw [named]
  exact congrArg Except.ok (schema_goSub keyBuckets)

/-- Reading the interface and the subroutine of a call reads its first two fields. -/
theorem read_of_goSub {call : Event} (type : call.type = .goSub) :
    (standard keyBuckets).read call interfaceField = call.field 0 ∧
      (standard keyBuckets).read call "sub" = call.field 1 := by
  unfold read read?
  rw [type, schema_goSub]
  exact ⟨rfl, rfl⟩

end Catalog

namespace Compiler

variable {compiler : Compiler} {keyBuckets : Nat} {declaration : Declaration} {n : Nat}

/-! ## What the declaration compiles to -/

/-- The only clause of the declaration names the subroutine and its number. -/
theorem splitClause_sub : splitClause "sub=1" = .ok ⟨"sub", "1"⟩ := by decide +kernel

/-- The conditions and the parameters of the declaration are one clause. -/
theorem splitClauses_sub : splitClauses "sub=1" = ["sub=1"] := by decide +kernel

/-- The subroutine is the second field of a call. -/
theorem find?_sub : callSchema.find? "sub" = some ⟨"sub", 1, .int, some 64, false⟩ := by
  decide +kernel

/-- The bucket of a call is the one of its subroutine. -/
theorem indexedField?_sub :
    callSchema.indexedField? = some ⟨"sub", 1, .int, some 64, false⟩ := by
  decide +kernel

/-- The declaration is about subroutine calls. -/
theorem inputSchema_of_callsItself (stock : compiler.catalog = .standard keyBuckets)
    (calls : declaration.CallsItself n) : compiler.inputSchema declaration = .ok callSchema := by
  unfold inputSchema
  rw [calls.input, stock]
  exact Catalog.lookup_goSub keyBuckets

section Reading

variable (numeral : compiler.store.lookup "1" = none)

include numeral

/-- Where no variable is named `1`, the token is a number. -/
theorem readToken_one :
    (compiler.scope callSchema).readToken "1" false = .ok (.constant (.int 1)) := by
  have trimmed : trim "1" = "1" := by decide +kernel
  have noField : callSchema.find? "1" = none := by decide +kernel
  have noName : ((compiler.scope callSchema).fieldToken? "1").or
      ((compiler.scope callSchema).variableToken? "1") = none := by
    unfold Scope.fieldToken? Scope.variableToken? scope
    dsimp only [Option.bind_some]
    rw [noField, numeral]
    rfl
  have literal : Value.ofLiteral "1" = .ok (.int 1) := by decide +kernel
  unfold Scope.readToken
  rw [trimmed]
  dsimp only
  rw [noName, literal]
  rfl

/-- Where no variable is named `1`, the expression is a number. -/
theorem readExpression_one :
    (compiler.scope callSchema).readExpression "1" false = .ok (.constant (.int 1)) := by
  have cut : ExpressionText.ofChars "1".toList = ⟨['1'], []⟩ := by decide +kernel
  have whole : String.ofList ['1'] = "1" := rfl
  unfold Scope.readExpression
  rw [cut]
  dsimp only
  rw [whole, readToken_one numeral]
  rfl

/-- The clause as a condition gives the bucket of the subroutine. -/
theorem compileCondition_sub :
    compiler.compileCondition callSchema "sub=1" =
      .ok ⟨⟨.field 1 .int, .constant (.int 1)⟩, some 1⟩ := by
  unfold compileCondition
  rw [splitClause_sub]
  dsimp only [bind, Except.bind]
  rw [find?_sub]
  dsimp only
  rw [readExpression_one numeral]
  rfl

/-- The clause as a parameter sets the subroutine. -/
theorem compileAssignment_sub :
    compiler.compileAssignment callSchema callSchema "sub=1" = .ok (.constant 1 (.int 1)) := by
  unfold compileAssignment
  rw [splitClause_sub]
  dsimp only [bind, Except.bind]
  rw [find?_sub]
  dsimp only
  rw [readExpression_one numeral]
  rfl

/-- The conditions are those for calls of the subroutine, in its bucket. -/
theorem compileConditions_sub :
    compiler.compileConditions callSchema "sub=1" 0 =
      ⟨subConditions, .indexed 1, []⟩ := by
  unfold compileConditions
  simp only [splitClauses_sub, List.map_cons, List.map_nil, compileCondition_sub numeral]
  rfl

/-- An output is the call, with nothing left to evaluate. -/
theorem compileOutput_sub (stock : compiler.catalog = .standard keyBuckets) :
    compiler.compileOutput callSchema 0 ⟨"go-sub", "sub=1"⟩ = .ok ⟨firstCall, [], []⟩ := by
  unfold compileOutput
  rw [stock]
  simp only [Catalog.lookup_goSub, bind, Except.bind, splitClauses_sub, List.map_cons,
    List.map_nil, compileAssignment_sub numeral]
  rfl

/-- What the declaration compiles to: as many bindings as it has outputs. -/
theorem exists_compile_eq (stock : compiler.catalog = .standard keyBuckets)
    (calls : declaration.CallsItself n) (positive : 1 ≤ n) :
    ∃ c, compiler.compile declaration 0 = .ok c ∧ c.schema = callSchema ∧
      c.slot = .indexed 1 ∧
      c.bindings = toBindings subConditions false
        (List.replicate n ⟨firstCall, [], []⟩) := by
  have nonempty : declaration.outputs.isEmpty = false := by
    rw [calls.outputs, List.isEmpty_replicate]
    exact decide_eq_false (Nat.ne_of_gt positive)
  have accepted : ((declaration.outputs.map fun output =>
      (⟨output.event, compiler.compileOutput callSchema 0 output⟩ : Piece CompiledOutput)).filterMap
        Piece.accepted?) = List.replicate n ⟨firstCall, [], []⟩ := by
    rw [calls.outputs, List.map_replicate, compileOutput_sub numeral stock]
    have kept : Piece.accepted? (⟨"go-sub", .ok ⟨firstCall, [], []⟩⟩ : Piece CompiledOutput) =
        some ⟨firstCall, [], []⟩ := rfl
    exact List.filterMap_replicate_of_some kept
  unfold compile
  rw [inputSchema_of_callsItself stock calls]
  dsimp only [bind, Except.bind]
  rw [nonempty, if_neg Bool.false_ne_true]
  refine ⟨_, rfl, rfl, ?_, ?_⟩
  · dsimp only
    rw [calls.conditions, Option.getD_some, compileConditions_sub numeral]
  · dsimp only
    rw [calls.conditions, Option.getD_some, compileConditions_sub numeral, calls.silent,
      accepted]

/-- The condition of the declaration compares no float. -/
theorem comparesNoFloat_of_callsItself (stock : compiler.catalog = .standard keyBuckets)
    (calls : declaration.CallsItself n) : compiler.ComparesNoFloat declaration := by
  intro schema field hschema _ condition member _
  rw [inputSchema_of_callsItself stock calls] at hschema
  cases hschema
  unfold conditionsText at member
  rw [calls.conditions, Option.getD_some, mem_acceptedConditions, splitClauses_sub] at member
  obtain ⟨clause, among, compiled⟩ := member
  rw [List.mem_singleton.mp among, compileCondition_sub numeral] at compiled
  cases compiled
  decide

end Reading

/-! ## What the table does with a call -/

/-- No binding of outputs without an echo asks for one. -/
theorem echo_of_mem_toBindings {conditions : List Clause} {outputs : List CompiledOutput}
    {binding : Binding} (h : binding ∈ toBindings conditions false outputs) :
    binding.echo = false := by
  cases outputs with
  | nil => cases h
  | cons first rest =>
    rcases List.mem_cons.mp h with rfl | member
    · rfl
    · obtain ⟨output, -, rfl⟩ := List.mem_map.mp member
      rfl

/-- The conditions hold of every call of the subroutine under the interface. -/
theorem holds_subConditions {call : Event} (interface : call.field 0 = .int 0)
    (sub : call.field 1 = .int 1) (store : Store) :
    subConditions.all (fun clause => clause.holds call store) = true := by
  simp only [subConditions, List.all_cons, List.all_nil, Clause.holds, Token.evaluate, sub,
    interface]
  rfl

/-- A call of the subroutine is found in a table with the declaration alone. -/
theorem exists_find_of_callsItself (stock : compiler.catalog = .standard keyBuckets)
    (numeral : compiler.store.lookup "1" = none) (calls : declaration.CallsItself n)
    (positive : 1 ≤ n) {table : Table}
    (holds : table.Holds compiler.catalog (compiler.compilations [⟨declaration, 0⟩]))
    {call : Event} (type : call.type = .goSub) (interface : call.field 0 = .int 0)
    (sub : call.field 1 = .int 1) (store : Store) :
    ∃ chain, table.find call store = .ok (some chain) ∧
      chain.toList =
        toBindings subConditions false (List.replicate n ⟨firstCall, [], []⟩) := by
  obtain ⟨c, compiled, schema, slot, bindings⟩ :=
    exists_compile_eq numeral stock calls positive
  have built : compiler.catalog.Built := .of_eq stock
  have noFloat : ∀ made ∈ [(⟨declaration, 0⟩ : Call)],
      compiler.ComparesNoFloat made.declaration := by
    intro made member
    rw [List.mem_singleton.mp member]
    exact comparesNoFloat_of_callsItself numeral stock calls
  have whole : ∀ field ∈ (compiler.catalog.schema call.type).indexedField?,
      (call.field field.index).isWhole = true := by
    intro field member
    rw [stock, type, Catalog.schema_goSub, indexedField?_sub] at member
    cases member
    rw [sub]
    rfl
  have nonempty : (List.replicate n (⟨firstCall, [], []⟩ : CompiledOutput)).isEmpty =
      false := by
    rw [List.isEmpty_replicate]
    exact decide_eq_false (Nat.ne_of_gt positive)
  have answers : c.answers call store = true := by
    unfold Compilation.answers Compilation.headApplies
    rw [bindings, head?_any_toBindings, holds_subConditions interface sub, nonempty,
      schema, type]
    rfl
  have searched : Compilation.search (compiler.compilations [⟨declaration, 0⟩]) call store =
      some c := by
    have one : compiler.compilations [⟨declaration, 0⟩] = [c] := by
      unfold compilations
      rw [List.filterMap_cons, compiled]
      rfl
    unfold Compilation.search
    rw [one, List.find?_cons, slot, answers]
    rfl
  obtain ⟨chain, hchain, listed⟩ := Compilation.exists_chain?_of_answers answers
  have found : table.find call store = _ := find_of_holds built holds whole fun c hc =>
    meetsIn_of_mem_compilations built noFloat whole hc
  rw [searched, Option.bind_some, hchain] at found
  exact ⟨chain, found, listed.trans bindings⟩

/-- A table with the declaration alone answers every call of the subroutine with the same
call, as often as the declaration has outputs. -/
theorem recurs_of_callsItself (stock : compiler.catalog = .standard keyBuckets)
    (numeral : compiler.store.lookup "1" = none) (calls : declaration.CallsItself n)
    (positive : 1 ≤ n) {router : Router}
    (holds : router.table.Holds compiler.catalog (compiler.compilations [⟨declaration, 0⟩]))
    {call : Event} (type : call.type = .goSub) (echo : call.echo = false)
    (interface : call.field 0 = .int 0) (sub : call.field 1 = .int 1) :
    router.Recurs n firstCall call where
  echo := echo
  role := by
    rw [type]
    rfl
  type_eq := type
  found store := by
    obtain ⟨chain, found, listed⟩ := exists_find_of_callsItself stock numeral calls positive
      holds type interface sub store
    refine ⟨chain, found, ?_, ?_, fun binding member => ?_⟩
    · have member : chain.head ∈ chain.toList := List.mem_cons_self
      rw [listed] at member
      exact echo_of_mem_toBindings member
    · rw [listed, length_toBindings, List.length_replicate]
    · rw [listed] at member
      obtain ⟨output, among, same⟩ := exists_output_of_mem_toBindings member
      rw [List.eq_of_mem_replicate among] at same
      rw [same]
      rfl

end Compiler

/-! ## The engine -/

namespace Setup

section Build

variable (settings : Settings) (keys : KeyNames) (sink : Sink) {steps : List Step}

/-- An engine with no other declaration answers every call of the subroutine with the same
call, as often as the declaration has outputs. -/
theorem recurs_build {declaration : Declaration} {n : Nat}
    (only : steps.flatMap Step.calls = [⟨declaration, 0⟩])
    (calls : declaration.CallsItself n) (positive : 1 ≤ n)
    (numeral : ((ofSettings settings keys sink).configure steps).setup.store.lookup "1" =
      none)
    {call : Event} (type : call.type = .goSub) (echo : call.echo = false)
    (interface : call.field 0 = .int 0) (sub : call.field 1 = .int 1) :
    ((ofSettings settings keys sink).configure steps).setup.build.router.Recurs n firstCall
      call := by
  obtain ⟨makings, made, outgrown, holds⟩ := installs_configure settings keys sink steps
  rw [only] at made
  obtain ⟨⟨compiler, _⟩, rfl, rfl⟩ := List.map_eq_singleton_iff.mp made
  obtain ⟨catalog, unknown⟩ := outgrown _ (List.mem_singleton_self _)
  have stock := catalog.trans (catalog_configure settings keys sink steps)
  rw [← catalog] at holds
  exact Compiler.recurs_of_callsItself stock (unknown "1" numeral) calls positive holds type
    echo interface sub

end Build

/-- A declaration that calls its own subroutine `n` times is cut off at the limit. Sending
a call to an engine that is ready delivers the call and `n` outputs for each call below
the limit. It leaves nothing behind but that these are heard and each output at the limit
is reported. No variable may be named `1`, or the declaration would be about its value. -/
theorem recursion_cut_off (settings : Settings) (keys : KeyNames) (sink : Sink)
    (steps : List Step) {declaration : Declaration} {n : Nat}
    (only : steps.flatMap Step.calls = [⟨declaration, 0⟩])
    (calls : declaration.CallsItself n) (positive : 1 ≤ n) (limited : 1 ≤ settings.depthLimit)
    (numeral : ((ofSettings settings keys sink).configure steps).setup.store.lookup "1" =
      none) :
    let setup := ((ofSettings settings keys sink).configure steps).setup
    let engine := setup.build
    let outputs := List.replicate
      (∑ k ∈ Finset.range settings.depthLimit, n ^ (k + 1)) firstCall
    (settings.depthLimit ≤ settings.poolSize →
      (∀ listener ∈ steps.flatMap Step.listeners, listener.Ignores .goSub) →
      engine.state.depth = 0 ∧ engine.state.Ready .goSub settings.depthLimit) ∧
    ∀ (s : State) (call : Event), s.depth = 0 → s.Ready .goSub settings.depthLimit →
      call.type = .goSub → call.echo = false →
      engine.router.catalog.read call interfaceField = .int 0 →
      engine.router.catalog.read call "sub" = .int 1 →
      engine.router.Delivers ⟨s, [.deliver call]⟩ (call :: outputs)
        ⟨engine.router.broadcast s call, []⟩ ∧
      s.Trail (engine.router.broadcast s call) (outputs ++ [call])
        (List.replicate (n ^ settings.depthLimit)
          (.dispatch (.recursionLimit settings.depthLimit .goSub))) := by
  intro setup engine outputs
  obtain ⟨catalog, same⟩ := (changes_configure (ofSettings settings keys sink) steps).fixed
  have stock : setup.catalog = .standard settings.keyBuckets := catalog
  have configured : setup.settings = settings := same
  have limit : engine.router.depthLimit = settings.depthLimit := by
    show max setup.settings.depthLimit 1 = settings.depthLimit
    rw [configured]
    exact Nat.max_eq_left limited
  refine ⟨fun enough ignored => ⟨rfl, ready_build settings keys sink
    (Nat.le_trans enough (Nat.le_max_left _ _)) ignored⟩, ?_⟩
  intro s call resting ready type echo interface sub
  have reads := Catalog.read_of_goSub settings.keyBuckets type
  rw [← stock] at reads
  have sent : engine.router.Recurs n firstCall call :=
    recurs_build settings keys sink only calls positive numeral type echo
      (reads.1.symm.trans interface) (reads.2.symm.trans sub)
  have again : engine.router.Recurs n firstCall firstCall :=
    recurs_build settings keys sink only calls positive numeral rfl rfl rfl rfl
  rw [← limit] at ready
  obtain ⟨delivers, trail⟩ := sent.delivers_broadcast again resting ready
  rw [Router.callCount_eq_sum] at delivers trail
  unfold Router.refusals at trail
  rw [limit] at delivers trail
  exact ⟨delivers, trail⟩

/-- A subroutine that calls itself twice. -/
def twiceDeclaration : Declaration :=
  ⟨[("input", "go-sub"), ("conditions", "sub=1"), ("output", "go-sub"),
    ("parameters", "sub=1"), ("output1", "go-sub"), ("parameters1", "sub=1")]⟩

/-- A variable, the subroutine in an interface, and a recorder. -/
def twiceSteps : List Step :=
  [.declare "COUNT" "int" none, .load { id := 0, bindings := [twiceDeclaration] },
    .subscribe (.recorder #[])]

/-- With three levels and a pool of three events, a call that leads to two calls is followed
by fourteen others, and the eight of them at the limit are refused. -/
theorem recursion_cut_off_twice :
    let engine := ((ofSettings { poolSize := 3, depthLimit := 3 } (.exact [])
      .collecting).configure twiceSteps).setup.build
    let call : Event := ⟨.goSub, [.int 0, .int 1, .int 7, .int 0, .int 0], false⟩
    let after := engine.router.broadcast engine.state call
    engine.router.Delivers ⟨engine.state, [.deliver call]⟩
        (call :: List.replicate 14 firstCall) ⟨after, []⟩ ∧
      after.heard = [(List.replicate 14 firstCall ++ [call]).toArray] ∧
      engine.state.journal.Gains after.journal
        (List.replicate 8 (.dispatch (.recursionLimit 3 .goSub))) ∧
      after.store = engine.state.store ∧ after.pool.available = 3 ∧ after.depth = 0 := by
  intro engine call after
  have outputs : twiceDeclaration.outputs = List.replicate 2 ⟨"go-sub", "sub=1"⟩ :=
    (Declaration.outputs_eq_of_pairwise (by decide +kernel)).trans (by decide +kernel)
  have calls : twiceDeclaration.CallsItself 2 := ⟨rfl, rfl, outputs, rfl⟩
  have numeral : ((ofSettings { poolSize := 3, depthLimit := 3 } (.exact [])
      .collecting).configure twiceSteps).setup.store.lookup "1" = none := by
    rw [store_configure]
    decide +kernel
  obtain ⟨start, sending⟩ := recursion_cut_off { poolSize := 3, depthLimit := 3 } (.exact [])
    .collecting twiceSteps rfl calls (by decide) (by decide) numeral
  obtain ⟨resting, ready⟩ := start (by decide) (by decide)
  obtain ⟨catalog, same⟩ := (changes_configure (ofSettings { poolSize := 3, depthLimit := 3 }
    (.exact []) .collecting) twiceSteps).fixed
  have stock : engine.router.catalog = .standard 512 := catalog
  have subscribed : engine.state.listeners = [.recorder #[]] :=
    listeners_configure _ twiceSteps
  have idle : engine.state.pool.available = 3 := by
    show (Pool.ofCapacity (Setup.settings _).poolSize).available = 3
    rw [same]
    rfl
  obtain ⟨delivers, trail⟩ := sending engine.state call resting ready rfl rfl
    (by rw [stock]; rfl) (by rw [stock]; rfl)
  have count : ∑ k ∈ Finset.range 3, 2 ^ (k + 1) = 14 := by decide
  rw [count] at delivers trail
  refine ⟨delivers, ?_, trail.gains, trail.store, trail.available.trans idle, trail.depth⟩
  unfold State.heard
  rw [trail.hears, subscribed]
  show [#[] ++ (List.replicate 14 firstCall ++ [call]).toArray] = _
  rw [Array.empty_append]

end Setup

end CueRouter
