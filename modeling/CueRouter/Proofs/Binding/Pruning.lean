import CueRouter.Proofs.Binding.Folding
import CueRouter.Proofs.Binding.Installation
import CueRouter.Proofs.Binding.Mapping
import CueRouter.Proofs.Journal.Growth
import CueRouter.Proofs.Text.Split

/-!
# Rejected pieces are inert

A declaration that compiles may have pieces that do not: attributes that nothing reads,
conditions, outputs and parameters. Each of them is reported once. A declaration without
them, in whatever order it lists its attributes, compiles to as many bindings in the same
bucket, with nothing to report. It compiles to the same chain if no two of its outputs have
one number, as the order of those is that of the listing.
-/

namespace CueRouter

open Text Declaration

namespace Compiler

/-! ## Clauses -/

section Clauses

variable {α : Type}

/-- Whether a clause reads. -/
def accepts (read : String → Except ConfigFault α) (clause : String) : Bool :=
  (read clause).toOption.isSome

/-- The reports on the clauses of a text that do not read, in order. -/
def rejectionsOf (read : String → Except ConfigFault α) (text : String) : List Diagnostic :=
  (splitClauses text).filterMap fun clause =>
    match read clause with
    | .ok _ => none
    | .error fault => some (.config fault (some clause))

/-- A text without the clauses that do not read. The other segments between the
separators are joined again as they are, blank ones included. -/
def pruneClauses (read : String → Except ConfigFault α) (text : String) : String :=
  String.ofList <| joinWith [' ', 'a', 'n', 'd', ' '] <|
    (splitOn ' ' ['a', 'n', 'd', ' '] text.toList).filter fun segment =>
      (String.ofList (trimChars segment)).isEmpty ||
        accepts read (String.ofList (trimChars segment))

variable (read : String → Except ConfigFault α)

/-- Nothing can be left out of an empty text. -/
theorem pruneClauses_empty : pruneClauses read "" = "" := by
  unfold pruneClauses
  rw [show "".toList = [] from rfl, splitOn_nil]
  rfl

/-- The clauses of a pruned text are those that read. -/
theorem splitClauses_pruneClauses (text : String) :
    splitClauses (pruneClauses read text) = (splitClauses text).filter (accepts read) := by
  let trimmed (segment : List Char) : String := String.ofList (trimChars segment)
  let keeps (segment : List Char) : Bool :=
    (trimmed segment).isEmpty || accepts read (trimmed segment)
  let kept := (splitOn ' ' ['a', 'n', 'd', ' '] text.toList).filter keeps
  have clauses : (splitClauses text).filter (accepts read) =
      (kept.map trimmed).filter fun clause => !clause.isEmpty := by
    unfold splitClauses
    rw [List.filter_map, List.filter_map, List.filter_map, List.filter_filter,
      List.filter_filter]
    refine congrArg (List.map trimmed) (List.filter_congr fun segment _ => ?_)
    dsimp only [Function.comp, keeps, trimmed]
    cases (String.ofList (trimChars segment)).isEmpty <;> simp
  rw [clauses]
  unfold splitClauses pruneClauses
  rw [String.toList_ofList]
  change ((splitOn ' ' ['a', 'n', 'd', ' ']
    (joinWith [' ', 'a', 'n', 'd', ' '] kept)).map trimmed).filter _ = _
  by_cases some : kept = []
  · rw [some, joinWith, splitOn_nil]
    rfl
  · have apart := (apart_splitOn ' ' ['a', 'n', 'd', ' '] text.toList).sublist
      (List.filter_sublist (p := keeps))
    rw [splitOn_joinWith apart some]

/-- What reads of a pruned text is what reads of the text. -/
theorem filterMap_splitClauses_pruneClauses {β : Type} {f : String → Option β}
    (rejects : ∀ clause, accepts read clause = false → f clause = none) (text : String) :
    (splitClauses (pruneClauses read text)).filterMap f = (splitClauses text).filterMap f := by
  rw [splitClauses_pruneClauses, List.filterMap_filter]
  refine congrArg (List.filterMap · _) (funext fun clause => ?_)
  split
  · rfl
  · next rejected => exact (rejects clause (Bool.eq_false_iff.mpr rejected)).symm

/-- There is nothing to report about a pruned text. -/
theorem rejectionsOf_pruneClauses (text : String) :
    rejectionsOf read (pruneClauses read text) = [] := by
  unfold rejectionsOf
  rw [splitClauses_pruneClauses, List.filterMap_eq_nil_iff]
  intro clause hclause
  have accepted := (List.mem_filter.mp hclause).2
  unfold accepts at accepted
  cases hread : read clause with
  | ok value => rfl
  | error fault =>
    rw [hread] at accepted
    cases accepted

end Clauses

/-! ## The declaration without rejected pieces -/

variable {compiler : Compiler} {schema : Schema} {declaration : Declaration}

/-- The schema of the event that an output names, if there is one. -/
def known? (compiler : Compiler) (event : String) : Option Schema :=
  (compiler.catalog.lookup event).toOption

/-- Whether an output names an event. -/
def knows (compiler : Compiler) (event : String) : Bool := (compiler.known? event).isSome

/-- What is left of an attribute of a declaration on inputs of the schema. A stray
attribute goes, an output without an event goes together with its parameters, and a
clause goes that does not compile. -/
def kept (compiler : Compiler) (schema : Schema) (declaration : Declaration)
    (name text : String) : Option String :=
  if declaration.isStray name then none
  else if name = "conditions" then
    some (pruneClauses (compiler.compileCondition schema) text)
  else
    match suffixAfter? "output" name with
    | some _ => if compiler.knows text then some text else none
    | none =>
      match suffixAfter? "parameters" name with
      | some suffix =>
        ((declaration.get? ("output" ++ String.ofList suffix)).bind compiler.known?).map
          fun target => pruneClauses (compiler.compileAssignment schema target) text
      | none => some text

/-- The declaration without the pieces that are rejected. -/
def pruned (compiler : Compiler) (schema : Schema) (declaration : Declaration) :
    Declaration :=
  declaration.edit (compiler.kept schema declaration)

/-- What is left of an output. -/
def prunedOutput? (compiler : Compiler) (schema : Schema) (output : OutputText) :
    Option OutputText :=
  (compiler.known? output.event).map fun target =>
    ⟨output.event, pruneClauses (compiler.compileAssignment schema target) output.parameters⟩

/-- The reports on an output: that it names no event, or else one for each of its
parameters that does not compile. -/
def outputRejections (compiler : Compiler) (schema : Schema) (output : OutputText) :
    List Diagnostic :=
  match compiler.catalog.lookup output.event with
  | .error fault => [.config fault (some output.event)]
  | .ok target => rejectionsOf (compiler.compileAssignment schema target) output.parameters

/-- The reports on a declaration: one for each stray attribute and for each condition
that does not compile, and those on the outputs. -/
def rejections (compiler : Compiler) (schema : Schema) (declaration : Declaration) :
    List Diagnostic :=
  (declaration.strays.map fun name =>
      .config (.unknownAttribute name) (some (inputText declaration))) ++
    rejectionsOf (compiler.compileCondition schema) (conditionsText declaration) ++
    declaration.outputs.flatMap (compiler.outputRejections schema)

/-! ## What is left of attributes -/

/-- An output is kept if its suffix is a number and it names an event. -/
theorem kept_output (compiler : Compiler) (schema : Schema) (declaration : Declaration)
    (suffix : List Char) (text : String) :
    compiler.kept schema declaration ("output" ++ String.ofList suffix) text =
      if (suffixNumber? suffix).isSome ∧ compiler.knows text = true then some text
      else none := by
  unfold kept
  rw [isStray_output, if_neg (append_ne_of_suffixAfter? rfl suffix), suffixAfter?_append]
  cases suffixNumber? suffix <;> simp

/-- Parameters are kept if their suffix is a number and their output names an event, and
then they are pruned. -/
theorem kept_parameters (compiler : Compiler) (schema : Schema) (declaration : Declaration)
    (suffix : List Char) (text : String) :
    compiler.kept schema declaration ("parameters" ++ String.ofList suffix) text =
      if (suffixNumber? suffix).isSome then
        ((declaration.get? ("output" ++ String.ofList suffix)).bind compiler.known?).map
          fun target => pruneClauses (compiler.compileAssignment schema target) text
      else none := by
  unfold kept
  rw [isStray_parameters, if_neg (append_ne_of_suffixAfter? rfl suffix),
    suffixAfter?_output_parameters, suffixAfter?_append]
  dsimp only
  cases suffixNumber? suffix with
  | none => rfl
  | some number =>
    cases declaration.get? ("output" ++ String.ofList suffix) <;> rfl

/-- What is left of the outputs, attribute by attribute. -/
theorem bind_kept_numberedOutput? (distinct : declaration.Distinct) {name text : String}
    (h : (name, text) ∈ declaration.attributes) :
    ((compiler.kept schema declaration name text).bind fun left =>
        (compiler.pruned schema declaration).numberedOutput? (name, left)) =
      (declaration.numberedOutput? (name, text)).bind fun numbered =>
        (compiler.prunedOutput? schema numbered.output).map
          (NumberedOutput.mk numbered.number) := by
  cases hs : suffixAfter? "output" name with
  | none =>
    rw [numberedOutput?_eq_none hs]
    cases compiler.kept schema declaration name text with
    | none => rfl
    | some left => exact numberedOutput?_eq_none hs left
  | some suffix =>
    obtain rfl := suffixAfter?_eq_some_iff.mp hs
    rw [kept_output, numberedOutput?_output]
    cases hnumber : suffixNumber? suffix with
    | none => rfl
    | some number =>
      unfold knows prunedOutput?
      cases hknown : compiler.known? text with
      | none =>
        rw [Option.map_some, Option.bind_some, hknown]
        rfl
      | some target =>
        have read := distinct.get?_of_mem h
        rw [if_pos ⟨rfl, rfl⟩, Option.bind_some, Option.map_some, Option.bind_some, hknown,
          numberedOutput?_output, hnumber, pruned, distinct.get?_edit]
        simp only [kept_parameters, hnumber, read, Option.isSome_some, if_true,
          Option.bind_some, hknown, Option.map_some]
        cases declaration.get? ("parameters" ++ String.ofList suffix) with
        | none => rw [Option.bind_none, Option.getD_none, pruneClauses_empty]
        | some parameters => rfl

/-- The outputs of the pruned declaration are those that name events, with their
parameters pruned. -/
theorem outputs_pruned (distinct : declaration.Distinct) :
    (compiler.pruned schema declaration).outputs =
      declaration.outputs.filterMap (compiler.prunedOutput? schema) := by
  refine outputs_eq_filterMap ?_
  have attributes : (compiler.pruned schema declaration).attributes =
      declaration.attributes.filterMap fun pair =>
        (compiler.kept schema declaration pair.1 pair.2).map fun left => (pair.1, left) :=
    rfl
  rw [attributes, List.filterMap_filterMap, List.filterMap_filterMap]
  refine List.filterMap_congr fun pair hpair => ?_
  rw [← bind_kept_numberedOutput? distinct hpair, Option.bind_map]
  rfl

/-- An attribute that is kept is no stray of the pruned declaration. -/
theorem isStray_pruned (distinct : declaration.Distinct) {name text left : String}
    (h : compiler.kept schema declaration name text = some left) :
    (compiler.pruned schema declaration).isStray name = false := by
  have read : declaration.isStray name = false := by
    cases stray : declaration.isStray name with
    | false => rfl
    | true =>
      unfold kept at h
      rw [if_pos stray] at h
      cases h
  cases ho : suffixAfter? "output" name with
  | some suffix =>
    obtain rfl := suffixAfter?_eq_some_iff.mp ho
    rw [isStray_output] at read ⊢
    exact read
  | none =>
    cases hp : suffixAfter? "parameters" name with
    | some suffix =>
      obtain rfl := suffixAfter?_eq_some_iff.mp hp
      rw [kept_parameters] at h
      split at h
      · next number =>
        obtain ⟨target, htarget, -⟩ := Option.map_eq_some_iff.mp h
        obtain ⟨event, hevent, hknown⟩ := Option.bind_eq_some_iff.mp htarget
        have knows : compiler.knows event = true := by
          unfold Compiler.knows
          rw [hknown]
          rfl
        rw [isStray_parameters, pruned, distinct.get?_edit, hevent, Option.bind_some,
          kept_output, if_pos ⟨number, knows⟩]
        simpa using number
      · cases h
    | none =>
      unfold isStray at read ⊢
      rw [ho, hp] at read ⊢
      exact read

/-- The pruned declaration has no strays. -/
theorem strays_pruned (distinct : declaration.Distinct) :
    (compiler.pruned schema declaration).strays = [] := by
  have none : ((compiler.pruned schema declaration).attributes.map Prod.fst).filter
      (compiler.pruned schema declaration).isStray = [] := by
    rw [List.filter_eq_nil_iff]
    intro name hname
    obtain ⟨pair, hpair, rfl⟩ := List.mem_map.mp hname
    obtain ⟨before, -, hkept⟩ := List.mem_filterMap.mp hpair
    obtain ⟨left, hleft, rfl⟩ := Option.map_eq_some_iff.mp hkept
    rw [isStray_pruned distinct hleft]
    exact Bool.false_ne_true
  unfold strays
  rw [none, List.mergeSort_nil]

/-- The input of the pruned declaration is that of the declaration. -/
theorem get?_input_pruned (distinct : declaration.Distinct) :
    (compiler.pruned schema declaration).get? "input" = declaration.get? "input" := by
  rw [pruned, distinct.get?_edit]
  cases declaration.get? "input" <;> rfl

/-- The pruned declaration asks for an echo if the declaration does. -/
theorem wantsEcho_pruned (distinct : declaration.Distinct) :
    (compiler.pruned schema declaration).wantsEcho = declaration.wantsEcho := by
  unfold wantsEcho
  rw [pruned, distinct.get?_edit]
  cases declaration.get? "echo" <;> rfl

/-- The conditions of the pruned declaration are pruned. -/
theorem conditionsText_pruned (distinct : declaration.Distinct) :
    conditionsText (compiler.pruned schema declaration) =
      pruneClauses (compiler.compileCondition schema) (conditionsText declaration) := by
  unfold conditionsText
  rw [pruned, distinct.get?_edit]
  cases declaration.get? "conditions" with
  | none => rw [Option.bind_none, Option.getD_none, pruneClauses_empty]
  | some text => rfl

/-! ## Compiling what is left -/

/-- Complaints about clauses are the reports on those that do not read. -/
theorem complaints_eq_rejectionsOf {α : Type} (read : String → Except ConfigFault α)
    (text : String) :
    ((splitClauses text).map fun clause =>
        (⟨clause, read clause⟩ : Piece α)).filterMap Piece.complaint? =
      rejectionsOf read text := by
  rw [List.filterMap_map]
  rfl

/-- Pruned conditions compile to the same clauses in the same bucket. -/
theorem compileConditions_pruneClauses (compiler : Compiler) (schema : Schema)
    (text : String) (interfaceId : Int32) :
    let left := pruneClauses (compiler.compileCondition schema) text
    (compiler.compileConditions schema left interfaceId).clauses =
        (compiler.compileConditions schema text interfaceId).clauses ∧
      (compiler.compileConditions schema left interfaceId).slot =
        (compiler.compileConditions schema text interfaceId).slot := by
  intro left
  have same : compiler.acceptedConditions schema left =
      compiler.acceptedConditions schema text := by
    refine filterMap_splitClauses_pruneClauses _ (fun clause rejected => ?_) text
    exact Option.isNone_iff_eq_none.mp (Option.isSome_eq_false_iff.mp rejected)
  rw [(compileConditions_eq left interfaceId).1, (compileConditions_eq left interfaceId).2,
    same]
  exact ⟨(compileConditions_eq text interfaceId).1.symm,
    (compileConditions_eq text interfaceId).2.symm⟩

/-- The reports on one output. -/
theorem outputComplaints_compileOutput (compiler : Compiler) (schema : Schema)
    (interfaceId : Int32) (output : OutputText) :
    outputComplaints ⟨output.event, compiler.compileOutput schema interfaceId output⟩ =
      compiler.outputRejections schema output := by
  unfold outputRejections
  cases found : compiler.catalog.lookup output.event with
  | error fault =>
    rw [compileOutput_of_error found]
    rfl
  | ok target =>
    rw [compileOutput_eq found]
    exact complaints_eq_rejectionsOf _ _

/-- A declaration on an input that can be bound and with an output compiles. Its
complaints are the reports on its pieces. -/
theorem compile_eq_of_inputSchema (input : compiler.inputSchema declaration = .ok schema)
    (nonempty : declaration.outputs ≠ []) (interfaceId : Int32) :
    compiler.compile declaration interfaceId = .ok
      { schema := schema
        slot := (compiler.compileConditions schema (conditionsText declaration)
          interfaceId).slot
        bindings := toBindings (compiler.compileConditions schema
            (conditionsText declaration) interfaceId).clauses declaration.wantsEcho
          (compiler.acceptedOutputs schema interfaceId declaration.outputs)
        complaints := compiler.rejections schema declaration } := by
  unfold compile
  rw [input]
  dsimp only [bind, Except.bind, pure, Except.pure]
  rw [if_neg fun empty => nonempty (List.isEmpty_iff.mp empty), List.flatMap_map,
    Piece.filterMap_accepted?]
  have outputs : (declaration.outputs.flatMap fun output => outputComplaints
      ⟨output.event, compiler.compileOutput schema interfaceId output⟩) = _ :=
    List.flatMap_congr fun output _ =>
      compiler.outputComplaints_compileOutput schema interfaceId output
  have conditions : (compiler.compileConditions schema (conditionsText declaration)
      interfaceId).complaints = _ := complaints_eq_rejectionsOf _ _
  unfold conditionsText at conditions ⊢
  rw [outputs, conditions]
  rfl

/-- What counts of a compiled output once its complaints are reported. -/
def essence (output : CompiledOutput) : Event × List Clause :=
  (output.prototype, output.assignments)

/-- A binding with what counts of an output and nothing else. -/
def bare (pair : Event × List Clause) : Binding := ⟨pair.1, false, [], pair.2⟩

/-- Bindings are made of what counts of the outputs. -/
theorem toBindings_eq_of_essence {conditions : List Clause} {echo : Bool}
    {outputs others : List CompiledOutput} (h : outputs.map essence = others.map essence) :
    toBindings conditions echo outputs = toBindings conditions echo others := by
  have bindings (rest : List CompiledOutput) : (rest.map fun output =>
      (⟨output.prototype, false, [], output.assignments⟩ : Binding)) =
        (rest.map essence).map bare := by
    rw [List.map_map]
    rfl
  cases outputs with
  | nil => rw [List.map_eq_nil_iff.mp h.symm]
  | cons first rest =>
    cases others with
    | nil => cases h
    | cons other more =>
      obtain ⟨heads, tails⟩ := List.cons.inj h
      obtain ⟨prototypes, assignments⟩ := Prod.mk.inj heads
      rw [toBindings, toBindings, bindings, bindings, tails, prototypes, assignments]

/-- The first binding has the conditions and the echo, the others have neither. -/
theorem toBindings_cases (conditions : List Clause) (echo : Bool)
    {outputs : List CompiledOutput} (nonempty : outputs ≠ []) :
    ∃ first rest, toBindings conditions echo outputs = first :: rest ∧
      first.conditions = conditions ∧ first.echo = echo ∧
      (∀ other ∈ rest, other.conditions = [] ∧ other.echo = false) ∧
      (first :: rest).map (fun binding => (binding.prototype, binding.assignments)) =
        outputs.map essence := by
  cases outputs with
  | nil => exact absurd rfl nonempty
  | cons output more =>
    refine ⟨_, _, rfl, rfl, rfl, fun other hother => ?_, ?_⟩
    · obtain ⟨later, -, rfl⟩ := List.mem_map.mp hother
      exact ⟨rfl, rfl⟩
    · rw [List.map_cons, List.map_map]
      rfl

/-- Pruned parameters are accepted as those that are accepted without pruning. -/
theorem acceptedParameters_pruneClauses (compiler : Compiler) (input output : Schema)
    (text : String) :
    compiler.acceptedParameters input output
        (pruneClauses (compiler.compileAssignment input output) text) =
      compiler.acceptedParameters input output text := by
  refine filterMap_splitClauses_pruneClauses _ (fun clause rejected => ?_) _
  unfold accepts at rejected
  rw [compileAssignment_eq] at rejected
  cases hread : compiler.readParameter input output clause with
  | error fault => rfl
  | ok parameter =>
    rw [hread] at rejected
    cases rejected

/-- What is left of an output compiles to the same. -/
theorem essence_prunedOutput? (compiler : Compiler) (schema : Schema) (interfaceId : Int32)
    (output : OutputText) :
    ((compiler.prunedOutput? schema output).bind fun left =>
        (compiler.compileOutput schema interfaceId left).toOption).map essence =
      (compiler.compileOutput schema interfaceId output).toOption.map essence := by
  unfold prunedOutput? known?
  cases found : compiler.catalog.lookup output.event with
  | error fault =>
    rw [compileOutput_of_error found]
    rfl
  | ok target =>
    let left : OutputText :=
      ⟨output.event, pruneClauses (compiler.compileAssignment schema target) output.parameters⟩
    have stillFound : compiler.catalog.lookup left.event = .ok target := found
    have same : compiler.acceptedParameters schema target left.parameters =
        compiler.acceptedParameters schema target output.parameters :=
      compiler.acceptedParameters_pruneClauses schema target output.parameters
    simp only [Except.toOption, Option.map_some, Option.bind_some]
    rw [compileOutput_eq found, compileOutput_eq stillFound, same]
    rfl

/-- What is left of outputs compiles to the same. -/
theorem map_essence_acceptedOutputs (compiler : Compiler) (schema : Schema)
    (interfaceId : Int32) (outputs : List OutputText) :
    (compiler.acceptedOutputs schema interfaceId
        (outputs.filterMap (compiler.prunedOutput? schema))).map essence =
      (compiler.acceptedOutputs schema interfaceId outputs).map essence := by
  unfold acceptedOutputs
  rw [List.filterMap_filterMap, List.map_filterMap, List.map_filterMap]
  exact congrArg (List.filterMap · outputs)
    (funext (compiler.essence_prunedOutput? schema interfaceId))

/-- An output compiles if it names an event. -/
theorem isSome_compileOutput (compiler : Compiler) (schema : Schema) (interfaceId : Int32)
    (output : OutputText) :
    (compiler.compileOutput schema interfaceId output).toOption.isSome =
      compiler.knows output.event := by
  unfold knows known?
  cases found : compiler.catalog.lookup output.event with
  | error fault =>
    rw [compileOutput_of_error found]
    rfl
  | ok target =>
    rw [compileOutput_eq found]
    rfl

/-- As many outputs compile as name an event. -/
theorem length_acceptedOutputs (compiler : Compiler) (schema : Schema) (interfaceId : Int32)
    (outputs : List OutputText) :
    (compiler.acceptedOutputs schema interfaceId outputs).length =
      (outputs.filter fun output => compiler.knows output.event).length := by
  unfold acceptedOutputs
  rw [List.length_filterMap_eq_countP, List.countP_eq_length_filter]
  simp only [isSome_compileOutput]

/-- An output is left of the declaration if one names an event. -/
theorem outputs_pruned_ne_nil (distinct : declaration.Distinct)
    (known : (declaration.outputs.filter fun output => compiler.knows output.event) ≠ []) :
    (compiler.pruned schema declaration).outputs ≠ [] := by
  obtain ⟨output, houtput⟩ := List.exists_mem_of_ne_nil _ known
  obtain ⟨member, knows⟩ := List.mem_filter.mp houtput
  obtain ⟨target, htarget⟩ := Option.isSome_iff_exists.mp knows
  have left : compiler.prunedOutput? schema output = some
      ⟨output.event,
        pruneClauses (compiler.compileAssignment schema target) output.parameters⟩ :=
    congrArg (Option.map _) htarget
  rw [outputs_pruned distinct]
  exact List.ne_nil_of_mem (List.mem_filterMap.mpr ⟨output, member, left⟩)

/-! ## What is left in any listing -/

/-- A declaration with the names and texts of another without its rejected pieces, in
whatever order it lists them. -/
structure Prunes (compiler : Compiler) (schema : Schema) (declaration left : Declaration) :
    Prop where
  /-- No two attributes have one name. -/
  distinct : left.Distinct
  /-- What is left is read. -/
  get?_eq : ∀ name, left.get? name = (compiler.pruned schema declaration).get? name

/-- What is left may be listed as it was. -/
theorem prunes_pruned (distinct : declaration.Distinct) :
    compiler.Prunes schema declaration (compiler.pruned schema declaration) :=
  ⟨distinct.edit _, fun _ => rfl⟩

namespace Prunes

variable {left : Declaration}

/-- What is left is listed in some order. -/
theorem perm (prunes : compiler.Prunes schema declaration left)
    (distinct : declaration.Distinct) :
    left.attributes.Perm (compiler.pruned schema declaration).attributes :=
  prunes.distinct.perm_of_get?_eq (prunes_pruned distinct).distinct prunes.get?_eq

/-- The outputs left are those that name events, with their parameters pruned. -/
theorem outputs_perm (prunes : compiler.Prunes schema declaration left)
    (distinct : declaration.Distinct) :
    left.outputs.Perm (declaration.outputs.filterMap (compiler.prunedOutput? schema)) := by
  rw [← outputs_pruned distinct]
  exact prunes.distinct.outputs_perm (prunes.perm distinct)

/-- The outputs left keep their order if no two of them have one number. -/
theorem outputs_eq (prunes : compiler.Prunes schema declaration left)
    (distinct : declaration.Distinct) (numbers : left.DistinctNumbers) :
    left.outputs = declaration.outputs.filterMap (compiler.prunedOutput? schema) := by
  rw [← outputs_pruned distinct]
  exact prunes.distinct.outputs_eq_of_perm numbers (prunes.perm distinct)

/-- An output is left if one names an event. -/
theorem outputs_ne_nil (prunes : compiler.Prunes schema declaration left)
    (distinct : declaration.Distinct)
    (known : (declaration.outputs.filter fun output => compiler.knows output.event) ≠ []) :
    left.outputs ≠ [] := by
  have same := prunes.distinct.outputs_perm (prunes.perm distinct)
  exact fun none => outputs_pruned_ne_nil distinct known (List.nil_perm.mp (none ▸ same))

/-- The input is left. -/
theorem get?_input (prunes : compiler.Prunes schema declaration left)
    (distinct : declaration.Distinct) : left.get? "input" = declaration.get? "input" :=
  (prunes.get?_eq "input").trans (get?_input_pruned distinct)

/-- The schema of the input is left. -/
theorem inputSchema (prunes : compiler.Prunes schema declaration left)
    (distinct : declaration.Distinct) :
    compiler.inputSchema left = compiler.inputSchema declaration := by
  unfold Compiler.inputSchema
  rw [prunes.get?_input distinct]

/-- The conditions left are pruned. -/
theorem conditionsText (prunes : compiler.Prunes schema declaration left)
    (distinct : declaration.Distinct) :
    Compiler.conditionsText left =
      pruneClauses (compiler.compileCondition schema)
        (Compiler.conditionsText declaration) := by
  rw [← conditionsText_pruned distinct]
  unfold Compiler.conditionsText
  rw [prunes.get?_eq]

/-- An echo is asked for if it was. -/
theorem wantsEcho (prunes : compiler.Prunes schema declaration left)
    (distinct : declaration.Distinct) : left.wantsEcho = declaration.wantsEcho := by
  rw [← @wantsEcho_pruned compiler schema declaration distinct]
  unfold Declaration.wantsEcho
  rw [prunes.get?_eq]

/-- Nothing is rejected of what is left. -/
theorem rejections (prunes : compiler.Prunes schema declaration left)
    (distinct : declaration.Distinct) : compiler.rejections schema left = [] := by
  have strays : left.strays = [] :=
    (prunes.distinct.strays_eq_of_perm (prunes.perm distinct)).trans (strays_pruned distinct)
  unfold Compiler.rejections
  rw [strays, prunes.conditionsText distinct, rejectionsOf_pruneClauses, List.map_nil,
    List.nil_append, List.nil_append, List.flatMap_eq_nil_iff]
  intro output houtput
  obtain ⟨before, -, hpruned⟩ :=
    List.mem_filterMap.mp ((prunes.outputs_perm distinct).mem_iff.mp houtput)
  obtain ⟨target, htarget, rfl⟩ := Option.map_eq_some_iff.mp hpruned
  unfold known? at htarget
  unfold outputRejections
  cases found : compiler.catalog.lookup before.event with
  | error fault =>
    rw [found] at htarget
    cases htarget
  | ok schema =>
    rw [found] at htarget
    cases htarget
    exact rejectionsOf_pruneClauses _ _

/-- As many outputs are left as name an event, and all of them compile. -/
theorem length_acceptedOutputs (prunes : compiler.Prunes schema declaration left)
    (distinct : declaration.Distinct) (interfaceId : Int32) :
    (compiler.acceptedOutputs schema interfaceId left.outputs).length =
      (compiler.acceptedOutputs schema interfaceId declaration.outputs).length := by
  have same := compiler.map_essence_acceptedOutputs schema interfaceId declaration.outputs
  have perm := (prunes.outputs_perm distinct).filterMap fun output =>
    (compiler.compileOutput schema interfaceId output).toOption
  calc (compiler.acceptedOutputs schema interfaceId left.outputs).length
      = (compiler.acceptedOutputs schema interfaceId
          (declaration.outputs.filterMap (compiler.prunedOutput? schema))).length :=
        perm.length_eq
    _ = (compiler.acceptedOutputs schema interfaceId declaration.outputs).length := by
        rw [← List.length_map essence, same, List.length_map]

/-- What is left compiles to bindings in the same bucket, without complaints. -/
theorem compile (prunes : compiler.Prunes schema declaration left)
    (distinct : declaration.Distinct) (input : compiler.inputSchema declaration = .ok schema)
    (known : (declaration.outputs.filter fun output => compiler.knows output.event) ≠ [])
    (interfaceId : Int32) :
    let conditions := compiler.compileConditions schema
      (Compiler.conditionsText declaration) interfaceId
    compiler.compile left interfaceId = .ok
      { schema := schema
        slot := conditions.slot
        bindings := toBindings conditions.clauses declaration.wantsEcho
          (compiler.acceptedOutputs schema interfaceId left.outputs)
        complaints := [] } := by
  intro conditions
  have pruned := compiler.compileConditions_pruneClauses schema
    (Compiler.conditionsText declaration) interfaceId
  rw [compile_eq_of_inputSchema ((prunes.inputSchema distinct).trans input)
      (prunes.outputs_ne_nil distinct known), prunes.rejections distinct,
    prunes.conditionsText distinct, prunes.wantsEcho distinct, pruned.1, pruned.2]

/-- A call on what is left adds as many bindings and reports nothing. If no two outputs
left have one number, it adds the same bindings. -/
theorem install (prunes : compiler.Prunes schema declaration left)
    (distinct : declaration.Distinct) (input : compiler.inputSchema declaration = .ok schema)
    (known : (declaration.outputs.filter fun output => compiler.knows output.event) ≠ [])
    (interfaceId : Int32) (table : Table) (journal : Journal) :
    let conditions := compiler.compileConditions schema
      (Compiler.conditionsText declaration) interfaceId
    let bindings := toBindings conditions.clauses declaration.wantsEcho
      (compiler.acceptedOutputs schema interfaceId declaration.outputs)
    let again := compiler.install table journal left interfaceId
    again.result = .ok bindings.length ∧
      again.journal = journal.note .trace (Compilation.message
        ⟨schema, conditions.slot, bindings, compiler.rejections schema declaration⟩
        (inputText declaration)) ∧
      (left.DistinctNumbers → again.table = table.insert schema conditions.slot bindings) := by
  intro conditions bindings again
  let others := toBindings conditions.clauses declaration.wantsEcho
    (compiler.acceptedOutputs schema interfaceId left.outputs)
  have many : others.length = bindings.length := by
    rw [length_toBindings, length_toBindings, prunes.length_acceptedOutputs distinct]
  have nonempty : others ≠ [] := by
    rw [ne_eq, ← List.length_eq_zero_iff, many, length_toBindings,
      Compiler.length_acceptedOutputs, List.length_eq_zero_iff]
    exact known
  have outcome : again = ⟨table.insert schema conditions.slot others,
      journal.note .trace (Compilation.message ⟨schema, conditions.slot, others, []⟩
        (inputText left)), .ok others.length⟩ :=
    install_of_ne_nil (prunes.compile distinct input known interfaceId) nonempty table journal
  have sameInput : inputText left = inputText declaration :=
    congrArg (·.getD "") (prunes.get?_input distinct)
  rw [outcome]
  refine ⟨congrArg Except.ok many, congrArg (journal.note .trace) ?_,
    fun numbers => congrArg (table.insert schema conditions.slot) ?_⟩
  · unfold Compilation.message
    rw [many, sameInput]
  · unfold others
    rw [prunes.outputs_eq distinct numbers]
    exact toBindings_eq_of_essence
      (compiler.map_essence_acceptedOutputs schema interfaceId _)

end Prunes

/-! ## Calls on a declaration and on what is left of it -/

/-- A call with a bindable input and with outputs reports once each stray attribute, each
condition and each parameter that does not compile and each output that names no event, and
nothing else, and it adds the other outputs. What is left of these, in any listing, adds as
many and reports nothing; it yields the same table if no two of its outputs have one number. -/
theorem install_pruned (distinct : declaration.Distinct)
    (input : compiler.inputSchema declaration = .ok schema)
    (nonempty : declaration.outputs ≠ []) (interfaceId : Int32) (table : Table)
    (journal : Journal) :
    let installed := compiler.install table journal declaration interfaceId
    let known := declaration.outputs.filter fun output => compiler.knows output.event
    let rejected := compiler.rejections schema declaration
    installed.result = .ok known.length ∧
      (journal.sink = .collecting → installed.journal.diagnostics.toList =
        journal.diagnostics.toList ++ rejected) ∧
      (known = [] → installed.table = table ∧
        installed.journal = journal.reportAll rejected) ∧
      (known ≠ [] → ∃ slot first rest text,
        installed.table = table.insert schema slot (first :: rest) ∧
        installed.journal = (journal.reportAll rejected).note .trace text ∧
        first.conditions = (compiler.compileConditions schema
          (conditionsText declaration) interfaceId).clauses ∧
        first.echo = declaration.wantsEcho ∧
        (∀ other ∈ rest, other.conditions = [] ∧ other.echo = false) ∧
        (first :: rest).map (fun binding => (binding.prototype, binding.assignments)) =
          (compiler.acceptedOutputs schema interfaceId declaration.outputs).map essence ∧
        ∀ left, compiler.Prunes schema declaration left →
          let again := compiler.install table journal left interfaceId
          again.result = installed.result ∧ again.journal = journal.note .trace text ∧
            (left.DistinctNumbers → again.table = installed.table)) := by
  intro installed known rejected
  have compiled := compile_eq_of_inputSchema input nonempty interfaceId
  have count := compiler.length_acceptedOutputs schema interfaceId declaration.outputs
  by_cases none : known = []
  · have absent : compiler.acceptedOutputs schema interfaceId declaration.outputs = [] := by
      rw [← List.length_eq_zero_iff, count]
      exact List.length_eq_zero_iff.mpr none
    rw [absent] at compiled
    have outcome : installed = ⟨table, journal.reportAll rejected, .ok 0⟩ :=
      install_of_nil compiled rfl table journal
    rw [outcome, none]
    exact ⟨rfl, fun collecting => Journal.diagnostics_reportAll collecting rejected,
      fun _ => ⟨rfl, rfl⟩, fun known => absurd rfl known⟩
  · let conditions := compiler.compileConditions schema (conditionsText declaration)
      interfaceId
    have present : compiler.acceptedOutputs schema interfaceId declaration.outputs ≠ [] := by
      rw [ne_eq, ← List.length_eq_zero_iff, count, List.length_eq_zero_iff]
      exact none
    obtain ⟨first, rest, bindings, hconditions, hecho, hrest, hall⟩ :=
      toBindings_cases conditions.clauses declaration.wantsEcho present
    have size : (first :: rest).length = known.length := by
      rw [← bindings, length_toBindings, count]
    rw [bindings] at compiled
    let text := Compilation.message ⟨schema, conditions.slot, first :: rest, rejected⟩
      (inputText declaration)
    have outcome : installed = ⟨table.insert schema conditions.slot (first :: rest),
        (journal.reportAll rejected).note .trace text, .ok (first :: rest).length⟩ :=
      install_of_ne_nil compiled (List.cons_ne_nil _ _) table journal
    rw [outcome, ← size]
    refine ⟨rfl, fun collecting => ?_, fun empty => absurd empty none, fun _ =>
      ⟨conditions.slot, first, rest, text, rfl, rfl, hconditions, hecho, hrest, hall,
        fun left prunes => ?_⟩⟩
    · rw [Journal.diagnostics_note]
      exact Journal.diagnostics_reportAll collecting rejected
    · obtain ⟨result, noted, same⟩ :=
        prunes.install distinct input none interfaceId table journal
      rw [bindings] at result noted same
      exact ⟨result, noted, same⟩

/-- A declaration with an attribute, a condition, an output and a parameter that are
rejected. -/
def faultyCall : Declaration :=
  ⟨[("input", "go-sub"), ("conditions", "nonsense and sub=3"), ("echo", "yes"),
    ("typo", "1"), ("output", "no-such-event"), ("parameters", "sub=4"),
    ("output1", "go-sub"), ("parameters1", "sub=4 and tempo=1")]⟩

/-- What is left of it, listed the other way round. -/
def soundCall : Declaration :=
  ⟨[("parameters1", "sub=4"), ("output1", "go-sub"), ("echo", "yes"),
    ("conditions", "sub=3"), ("input", "go-sub")]⟩

/-- The four pieces are reported in this order. One binding is added, and the same one
without them. -/
theorem install_pruned_faultyCall :
    let compiler : Compiler := ⟨.standard 512, .empty, .exact []⟩
    let schema : Schema := Catalog.stock 512 .goSub
    let installed := compiler.install .empty {} faultyCall 2
    let again := compiler.install .empty {} soundCall 2
    let reports : List Diagnostic :=
      [.config (.unknownAttribute "typo") (some "go-sub"),
        .config (.missingEquals "nonsense") (some "nonsense"),
        .config (.unknownEvent "no-such-event") (some "no-such-event"),
        .config (.unknownField .goSub "tempo") (some "tempo=1")]
    installed.result = .ok 1 ∧ installed.journal.diagnostics.toList = reports ∧
      compiler.Prunes schema faultyCall soundCall ∧ soundCall.DistinctNumbers ∧
      again.result = .ok 1 ∧ again.table = installed.table ∧
      again.journal.diagnostics.toList = [] := by
  intro compiler schema installed again reports
  have distinct : faultyCall.Distinct := by decide +kernel
  have outputs : faultyCall.outputs =
      [⟨"no-such-event", "sub=4"⟩, ⟨"go-sub", "sub=4 and tempo=1"⟩] :=
    (outputs_eq_of_pairwise (by decide +kernel)).trans (by decide +kernel)
  have nonempty : faultyCall.outputs ≠ [] := by
    rw [outputs]
    exact List.cons_ne_nil _ _
  have known : (faultyCall.outputs.filter fun output => compiler.knows output.event) =
      [⟨"go-sub", "sub=4 and tempo=1"⟩] := by
    rw [outputs]
    decide +kernel
  have rejected : compiler.rejections schema faultyCall = reports := by
    unfold rejections
    rw [outputs]
    decide +kernel
  have listed : Declaration.Distinct soundCall := by decide +kernel
  have perm : soundCall.attributes.Perm (compiler.pruned schema faultyCall).attributes := by
    decide +kernel
  have prunes : compiler.Prunes schema faultyCall soundCall :=
    ⟨listed, listed.get?_eq_of_perm perm⟩
  have numbers : soundCall.DistinctNumbers := by decide +kernel
  obtain ⟨count, reported, -, bound⟩ := @install_pruned compiler schema faultyCall distinct rfl
    nonempty 2 .empty {}
  obtain ⟨slot, first, rest, text, -, -, -, -, -, -, left⟩ :=
    bound (by rw [known]; exact List.cons_ne_nil _ _)
  obtain ⟨result, journal, table⟩ := left soundCall prunes
  rw [known] at count
  refine ⟨count, ?_, prunes, numbers, result.trans count, table numbers, ?_⟩
  · rw [reported rfl, rejected]
    exact List.nil_append _
  · rw [journal, Journal.diagnostics_note]

/-- A declaration with two outputs of number zero and a stray. -/
def levelCall : Declaration :=
  ⟨[("input", "key"), ("output0", "trigger-loop"), ("output000", "set-master-volume"),
    ("typo", "x")]⟩

/-- What is left of it, with the other output listed first. -/
def levelCallLeft : Declaration :=
  ⟨[("output000", "set-master-volume"), ("input", "key"), ("output0", "trigger-loop")]⟩

/-- What is left of a declaration does not always yield the same table: outputs of one
number fire in the order of the listing, which need not be the same. -/
theorem not_table_install_eq_of_prunes :
    ¬∀ (compiler : Compiler) (schema : Schema) (declaration left : Declaration)
        (interfaceId : Int32) (table : Table) (journal : Journal),
      declaration.Distinct → compiler.inputSchema declaration = .ok schema →
      (declaration.outputs.filter fun output => compiler.knows output.event) ≠ [] →
      compiler.Prunes schema declaration left →
      (compiler.install table journal left interfaceId).table =
        (compiler.install table journal declaration interfaceId).table := by
  intro all
  let compiler : Compiler := ⟨.standard 512, .empty, .exact []⟩
  let schema : Schema := Catalog.stock 512 .key
  have outputs : levelCall.outputs = [⟨"trigger-loop", ""⟩, ⟨"set-master-volume", ""⟩] :=
    (outputs_eq_of_pairwise (by decide +kernel)).trans (by decide +kernel)
  have others : levelCallLeft.outputs = [⟨"set-master-volume", ""⟩, ⟨"trigger-loop", ""⟩] :=
    (outputs_eq_of_pairwise (by decide +kernel)).trans (by decide +kernel)
  have listed : levelCallLeft.Distinct := by decide +kernel
  have perm : levelCallLeft.attributes.Perm
      (compiler.pruned schema levelCall).attributes := by decide +kernel
  have compiled := @compile_eq_of_inputSchema compiler schema levelCall rfl
    (by rw [outputs]; exact List.cons_ne_nil _ _) 1
  have again := @compile_eq_of_inputSchema compiler schema levelCallLeft rfl
    (by rw [others]; exact List.cons_ne_nil _ _) 1
  have same := all compiler schema levelCall levelCallLeft 1 .empty {} (by decide +kernel) rfl
    (by rw [outputs]; decide +kernel) ⟨listed, listed.get?_eq_of_perm perm⟩
  rw [outputs] at compiled
  rw [others] at again
  rw [install_of_ne_nil compiled (by decide +kernel),
    install_of_ne_nil again (by decide +kernel)] at same
  have heads := congrArg (fun table => (table.bucket .key .wildcard).map fun chain =>
    chain.head.prototype.type) same
  exact absurd heads (by decide +kernel)

end Compiler

end CueRouter
