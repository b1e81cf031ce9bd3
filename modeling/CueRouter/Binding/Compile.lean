import CueRouter.Binding.Declaration
import CueRouter.Binding.Table
import CueRouter.Expression.Parser
import CueRouter.Journal

/-!
# Compiling declarations

A declaration compiles to a chain of bindings and the bucket they belong in. A
fault of the declaration as a whole rejects it; a fault of one clause or one
output is a complaint, and only that piece is left out. Every input with an
interface field is bound to the interface of the declaration, unless a
condition says otherwise. Constant parameters are written into the prototype of
an output; the others are left to be computed from each input.
-/

namespace CueRouter

/-- What declarations are compiled against. -/
structure Compiler where
  /-- The schemas of the event types. -/
  catalog : Catalog
  /-- The declared variables. -/
  store : Store
  /-- The table of key names. -/
  keys : KeyNames

/-- A piece of configuration text and what became of it. -/
structure Piece (α : Type) where
  /-- The text of the piece. -/
  text : String
  /-- What it compiled to. -/
  result : Except ConfigFault α

namespace Piece

variable {α : Type}

/-- What the piece compiled to, if it did. -/
def accepted? (piece : Piece α) : Option α := piece.result.toOption

/-- The complaint about the piece, if it did not compile. -/
def complaint? (piece : Piece α) : Option Diagnostic :=
  match piece.result with
  | .ok _ => none
  | .error fault => some (.config fault (some piece.text))

end Piece

/-- A compiled condition. -/
structure Condition where
  /-- The condition as a clause. -/
  clause : Clause
  /-- The bucket it confines its chain to, where it compares the indexed field
  with a constant. -/
  bucket : Option Nat

/-- The compiled conditions of a declaration. -/
structure Conditions where
  /-- The clauses, the implicit one last. -/
  clauses : List Clause
  /-- The bucket of the chain. -/
  slot : Slot
  /-- Complaints about rejected clauses, in order. -/
  complaints : List Diagnostic

/-- A compiled parameter. -/
inductive Assignment where
  /-- A field of the prototype. -/
  | constant (index : Nat) (value : Value)
  /-- A field computed from each input. -/
  | computed (clause : Clause)

/-- A compiled output. -/
structure CompiledOutput where
  /-- The output with its constant fields filled in. -/
  prototype : Event
  /-- The fields computed from each input. -/
  assignments : List Clause
  /-- Complaints about rejected parameters, in order. -/
  complaints : List Diagnostic

/-- A compiled declaration. -/
structure Compilation where
  /-- The schema of the input. -/
  schema : Schema
  /-- The bucket of the chain. -/
  slot : Slot
  /-- The bindings in output order. -/
  bindings : List Binding
  /-- All complaints, in order. -/
  complaints : List Diagnostic

namespace Condition

/-- The bucket that a constant confines a chain to. -/
def bucketFor (field : Field) (expression : Expression) : Option Nat := do
  let buckets ← field.buckets
  let value ← expression.fold?
  if value.isScalar then value.toWhole?.map (bucketOf buckets) else none

end Condition

namespace Assignment

/-- The prototype with the constant filled in. -/
def fill (prototype : Event) : Assignment → Event
  | constant index value => prototype.setField index value
  | computed _ => prototype

/-- The clause to compute from each input. -/
def computed? : Assignment → Option Clause
  | constant _ _ => none
  | computed clause => some clause

end Assignment

namespace Compiler

/-- The scope of the clauses of a declaration on the given input. -/
def scope (compiler : Compiler) (schema : Schema) : Scope :=
  ⟨some schema, compiler.store, compiler.keys⟩

/-- Compile one condition on a field or a variable. -/
def compileCondition (compiler : Compiler) (schema : Schema) (text : String) :
    Except ConfigFault Condition := do
  let sides ← splitClause text
  match schema.find? sides.name with
  | some field =>
    let expression ← (compiler.scope schema).readExpression sides.expression
      field.keyNames
    return ⟨⟨.ofField field, expression⟩, Condition.bucketFor field expression⟩
  | none =>
    match compiler.store.lookup sides.name with
    | some handle =>
      let expression ← (compiler.scope schema).readExpression sides.expression false
      return ⟨⟨.variableAt handle, expression⟩, none⟩
    | none => .error (.unknownVariable sides.name)

/-- Whether the clause is about the given field. -/
def isAbout (field : Field) (clause : Clause) : Bool :=
  match clause.target with
  | .field index _ => index == field.index
  | _ => false

/-- The condition that ties the clauses to an interface, if the input has an
interface field and no clause is about it. -/
def implicitCondition (schema : Schema) (interfaceId : Int32) (clauses : List Clause) :
    List Clause :=
  match schema.find? interfaceField with
  | some field =>
    if clauses.any (isAbout field) then []
    else [⟨.ofField field, .constant (.int interfaceId)⟩]
  | none => []

/-- Compile the conditions of a declaration. The first condition that confines
the chain to a bucket decides the slot. -/
def compileConditions (compiler : Compiler) (schema : Schema) (text : String)
    (interfaceId : Int32) : Conditions :=
  let pieces : List (Piece Condition) :=
    (splitClauses text).map fun clause =>
      ⟨clause, compiler.compileCondition schema clause⟩
  let accepted := pieces.filterMap Piece.accepted?
  let clauses := accepted.map Condition.clause
  { clauses := clauses ++ implicitCondition schema interfaceId clauses
    slot := ((accepted.findSome? Condition.bucket).map Slot.indexed).getD .wildcard
    complaints := pieces.filterMap Piece.complaint? }

/-- Compile one parameter of an output. -/
def compileAssignment (compiler : Compiler) (input output : Schema) (text : String) :
    Except ConfigFault Assignment := do
  let sides ← splitClause text
  match output.find? sides.name with
  | none => .error (.unknownField output.type sides.name)
  | some field =>
    let expression ← (compiler.scope input).readExpression sides.expression false
    if field.kind = .reference then
      match expression.toVariable? with
      | some handle => return .constant field.index (.reference handle)
      | none => .error (.referenceNotVariable sides.expression)
    else
      match expression.fold? with
      | some value => return .constant field.index (value.convert field.kind)
      | none => return .computed ⟨.ofField field, expression⟩

/-- The prototype of an output that belongs to an interface. -/
def stampedPrototype (schema : Schema) (interfaceId : Int32) : Event :=
  match schema.find? interfaceField with
  | some field => schema.prototype.setField field.index (.int interfaceId)
  | none => schema.prototype

/-- Compile one output of a declaration on the given input. -/
def compileOutput (compiler : Compiler) (input : Schema) (interfaceId : Int32)
    (output : OutputText) : Except ConfigFault CompiledOutput := do
  let schema ← compiler.catalog.lookup output.event
  let pieces : List (Piece Assignment) :=
    (splitClauses output.parameters).map fun clause =>
      ⟨clause, compiler.compileAssignment input schema clause⟩
  let accepted := pieces.filterMap Piece.accepted?
  return {
    prototype := accepted.foldl Assignment.fill (stampedPrototype schema interfaceId)
    assignments := accepted.filterMap Assignment.computed?
    complaints := pieces.filterMap Piece.complaint? }

/-- The bindings of compiled outputs: the conditions and the echo go with the
first of them. -/
def toBindings (conditions : List Clause) (echo : Bool) :
    List CompiledOutput → List Binding
  | [] => []
  | first :: rest =>
    ⟨first.prototype, echo, conditions, first.assignments⟩ ::
      rest.map fun output => ⟨output.prototype, false, [], output.assignments⟩

/-- All complaints about one output: about its parameters, or about itself. -/
def outputComplaints (piece : Piece CompiledOutput) : List Diagnostic :=
  match piece.result with
  | .ok output => output.complaints
  | .error fault => [.config fault (some piece.text)]

/-- The schema of the input that a declaration names. -/
def inputSchema (compiler : Compiler) (declaration : Declaration) :
    Except ConfigFault Schema :=
  match declaration.get? "input" with
  | none => .error (.missingAttribute "input")
  | some input => do
    let schema ← compiler.catalog.lookup input
    if schema.type.isBindable then return schema
    else .error (.notBindable schema.type)

/-- The text that names the input of a declaration. -/
def inputText (declaration : Declaration) : String :=
  (declaration.get? "input").getD ""

/-- Complaints about the attributes that nothing reads. -/
def strayComplaints (declaration : Declaration) : List Diagnostic :=
  declaration.strays.map fun name =>
    .config (.unknownAttribute name) (some (inputText declaration))

/-- Compile a declaration made under an interface. -/
def compile (compiler : Compiler) (declaration : Declaration) (interfaceId : Int32) :
    Except ConfigFault Compilation := do
  let schema ← compiler.inputSchema declaration
  if declaration.outputs.isEmpty then .error (.missingAttribute "output")
  else
    let conditions := compiler.compileConditions schema
      ((declaration.get? "conditions").getD "") interfaceId
    let pieces : List (Piece CompiledOutput) :=
      declaration.outputs.map fun output =>
        ⟨output.event, compiler.compileOutput schema interfaceId output⟩
    return {
      schema := schema
      slot := conditions.slot
      bindings := toBindings conditions.clauses declaration.wantsEcho
        (pieces.filterMap Piece.accepted?)
      complaints := strayComplaints declaration ++ conditions.complaints ++
        pieces.flatMap outputComplaints }

end Compiler

/-- A table with one more declaration, and what was said on the way. -/
structure Installation where
  /-- The table afterwards. -/
  table : Table
  /-- The journal afterwards. -/
  journal : Journal
  /-- The number of bindings added, or why the declaration was rejected. -/
  result : Except ConfigFault Nat

/-- The message about a declaration that added bindings. -/
def Compilation.message (compilation : Compilation) (input : String) : String :=
  input ++ ": " ++ Text.Numeral.text compilation.bindings.length ++
    " binding(s) into " ++ compilation.slot.text

/-- Compile a declaration into the table. Complaints are reported first; a
declaration without bindings leaves the table alone. -/
def Compiler.install (compiler : Compiler) (table : Table) (journal : Journal)
    (declaration : Declaration) (interfaceId : Int32) : Installation :=
  match compiler.compile declaration interfaceId with
  | .error fault => ⟨table, journal, .error fault⟩
  | .ok compilation =>
    let reported := journal.reportAll compilation.complaints
    if compilation.bindings.isEmpty then ⟨table, reported, .ok 0⟩
    else
      ⟨table.insert compilation.schema compilation.slot compilation.bindings,
        reported.note .trace (compilation.message (Compiler.inputText declaration)),
        .ok compilation.bindings.length⟩

end CueRouter
