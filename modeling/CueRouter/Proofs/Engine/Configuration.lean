import CueRouter.Engine.Setup
import CueRouter.Proofs.Binding.Editing
import CueRouter.Proofs.Binding.Installation

/-!
# Configuring an engine

A setup is configured by steps in any order and number. Each of them comes down to a
few changes: something is said or remembered, the variables grow by one or one of them
is linked, or a declaration is compiled into the table. What every change keeps, any
steps keep. So the answers of the steps add up to the size of the table, and every
call that compiles extends one bucket of it, or none.
-/

namespace CueRouter

namespace Setup

/-! ## Steps and changes -/

/-- A step of configuration. -/
inductive Step where
  /-- Declare a variable. -/
  | declare (name typeName : String) (initializer : Option String)
  /-- Offer a cell that variables can be linked to. -/
  | share (cell : Cell)
  /-- Link a variable to a shared cell. -/
  | link (name : String) (shared : SharedCell)
  /-- Compile a binding declared under an interface. -/
  | bind (declaration : Declaration) (interfaceId : Int32)
  /-- Load an interface. -/
  | load (interface : Interface)
  /-- Subscribe a listener. -/
  | subscribe (listener : Listener)
  /-- Use another table of key names. -/
  | useKeys (keys : KeyNames)
  /-- Send reports elsewhere, where nothing was reported before. -/
  | useSink (sink : Sink)

/-- Take a step. The answer is the number of bindings that it added. -/
def take (setup : Setup) : Step → Outcome Nat
  | .declare name typeName initializer =>
    ⟨0, (setup.declareVariable name typeName initializer).setup⟩
  | .share cell => ⟨0, setup.share cell⟩
  | .link name shared => ⟨0, (setup.linkVariable name shared).setup⟩
  | .bind declaration interfaceId => setup.addBinding declaration interfaceId
  | .load interface => setup.loadInterface interface
  | .subscribe listener => ⟨0, setup.subscribe listener⟩
  | .useKeys keys => ⟨0, { setup with keys := keys }⟩
  | .useSink sink =>
    ⟨0, { setup with journal := { setup.journal with sink := sink, diagnostics := #[] } }⟩

/-- Take steps in order. The answer is the number of bindings that they added. -/
def configure (setup : Setup) : List Step → Outcome Nat
  | [] => ⟨0, setup⟩
  | step :: steps =>
    let first := setup.take step
    let others := first.setup.configure steps
    ⟨first.answer + others.answer, others.setup⟩

/-- The bindings that a call answers with, none where it is rejected. -/
def countOf : Except ConfigFault Nat → Nat
  | .ok count => count
  | .error _ => 0

/-- A change of a setup, with the number of bindings that it adds. -/
inductive Change (s : Setup) : Nat → Setup → Prop
  /-- Something is said or reported. -/
  | said (journal : Journal) : Change s 0 { s with journal := journal }
  /-- An interface is mentioned. -/
  | mentioned (interfaceId : Int32) : Change s 0 (s.mention interfaceId)
  /-- A listener is subscribed. -/
  | subscribed (listener : Listener) : Change s 0 (s.subscribe listener)
  /-- The key names are replaced. -/
  | renamed (keys : KeyNames) : Change s 0 { s with keys := keys }
  /-- A cell is offered. -/
  | shared (cell : Cell) : Change s 0 (s.share cell)
  /-- A variable is declared. -/
  | declared {name : String} {kind : Kind} {initial : Value} {declared : Store.Declared}
      (h : s.store.declareValue name kind initial = .ok declared) :
      Change s 0 { s with store := declared.store }
  /-- A variable is linked to a shared cell. -/
  | linked {name : String} {shared : SharedCell} {declared : Store.Declared}
      (h : s.store.link name shared = .ok declared) :
      Change s 0 { s with store := declared.store }
  /-- A declaration is compiled into the table. -/
  | installed (declaration : Declaration) (interfaceId : Int32) :
      Change s
        (countOf (s.compiler.install s.table s.journal declaration interfaceId).result)
        { s with
          table := (s.compiler.install s.table s.journal declaration interfaceId).table
          journal :=
            (s.compiler.install s.table s.journal declaration interfaceId).journal }

/-- Changes one after another, with the number of bindings that they add. -/
inductive Changes (s : Setup) : Nat → Setup → Prop
  /-- No change. -/
  | refl : Changes s 0 s
  /-- One more change. -/
  | tail {n m : Nat} {t u : Setup} (earlier : Changes s n t) (last : Change t m u) :
      Changes s (n + m) u

section Changes

variable {s t u : Setup} {n m : Nat}

/-- One change by itself. -/
theorem Change.once (h : Change s n t) : Changes s n t := by
  have one := Changes.refl.tail h
  rwa [Nat.zero_add] at one

/-- Changes may follow changes. -/
theorem Changes.trans (h : Changes s n t) (k : Changes t m u) : Changes s (n + m) u := by
  induction k with
  | refl => exact h
  | tail _ last ih =>
    rw [← Nat.add_assoc]
    exact ih.tail last

/-- What every change keeps, changes keep. -/
theorem Changes.keeps {P : Nat → Setup → Prop}
    (change : ∀ {n m s t}, P n s → Change s m t → P (n + m) t) (h : Changes s n t)
    (start : P 0 s) : P n t := by
  induction h with
  | refl => exact start
  | tail _ last ih => exact change ih last

/-- Taking over a variable that was declared, or reporting why not. -/
theorem changes_settle (name : String) {result : Except ConfigFault Store.Declared}
    (h : ∀ declared, result = .ok declared →
      Changes s 0 { s with store := declared.store }) :
    Changes s 0 (s.settle name result).setup := by
  cases result with
  | ok declared => exact h declared rfl
  | error fault => exact (Change.said _).once

/-- Declaring a variable changes the variables only. -/
theorem changes_declareVariable (s : Setup) (name typeName : String)
    (initializer : Option String) :
    Changes s 0 (s.declareVariable name typeName initializer).setup := by
  refine changes_settle name fun declared h => ?_
  unfold Store.declare at h
  obtain ⟨kind, -, h⟩ := Except.bind_eq_ok.mp h
  obtain ⟨initial, -, h⟩ := Except.bind_eq_ok.mp h
  exact (Change.declared h).once

/-- Linking a variable declares it first if need be. -/
theorem changes_linkVariable (s : Setup) (name : String) (shared : SharedCell) :
    Changes s 0 (s.linkVariable name shared).setup := by
  refine changes_settle name fun declared h => ?_
  unfold Store.declareLinked at h
  split at h
  · exact (Change.linked h).once
  · obtain ⟨first, hfirst, h⟩ := Except.bind_eq_ok.mp h
    exact (Change.declared hfirst).once.trans (Change.once (.linked h))

/-- Adding a binding mentions its interface and compiles it. -/
theorem changes_addBinding (s : Setup) (declaration : Declaration) (interfaceId : Int32) :
    Changes s (s.addBinding declaration interfaceId).answer
      (s.addBinding declaration interfaceId).setup := by
  have mentioned := (Change.mentioned (s := s) interfaceId).once
  have installed := mentioned.tail (.installed declaration interfaceId)
  unfold addBinding
  dsimp only at installed ⊢
  rw [Nat.zero_add] at installed
  split
  · next count same =>
    rw [same] at installed
    exact installed
  · next fault same =>
    rw [same] at installed
    exact installed.tail (.said _)

/-- Adding bindings adds one after another. -/
theorem changes_addBindings (s : Setup) (interfaceId : Int32)
    (declarations : List Declaration) :
    Changes s (s.addBindings interfaceId declarations).answer
      (s.addBindings interfaceId declarations).setup := by
  induction declarations generalizing s with
  | nil => exact .refl
  | cons declaration rest ih =>
    exact (s.changes_addBinding declaration interfaceId).trans (ih _)

/-- Declaring variables changes the variables only. -/
theorem changes_addVariables (s : Setup) (declarations : List VariableDeclaration) :
    Changes s 0 (declarations.foldl addVariable s) := by
  induction declarations generalizing s with
  | nil => exact .refl
  | cons declaration rest ih =>
    have first : Changes s 0 (s.addVariable declaration) := by
      unfold addVariable
      exact s.changes_declareVariable _ _ _
    rw [List.foldl_cons]
    exact first.trans (ih _)

/-- Loading an interface declares its variables and adds its bindings. -/
theorem changes_loadInterface (s : Setup) (interface : Interface) :
    Changes s (s.loadInterface interface).answer (s.loadInterface interface).setup := by
  have mentioned := (Change.mentioned (s := s) interface.id).once
  have declared := mentioned.trans (changes_addVariables _ interface.declarations)
  have bound := declared.trans (changes_addBindings _ interface.id interface.bindings)
  rw [Nat.zero_add] at bound
  exact bound.tail (.said _)

/-- Every step comes down to changes. -/
theorem changes_take (s : Setup) (step : Step) :
    Changes s (s.take step).answer (s.take step).setup := by
  cases step with
  | declare name typeName initializer =>
    simp only [take]
    exact s.changes_declareVariable name typeName initializer
  | share cell => exact (Change.shared cell).once
  | link name shared =>
    simp only [take]
    exact s.changes_linkVariable name shared
  | bind declaration interfaceId => exact s.changes_addBinding declaration interfaceId
  | load interface => exact s.changes_loadInterface interface
  | subscribe listener => exact (Change.subscribed listener).once
  | useKeys keys => exact (Change.renamed keys).once
  | useSink sink => exact (Change.said _).once

/-- All steps come down to changes. -/
theorem changes_configure (s : Setup) (steps : List Step) :
    Changes s (s.configure steps).answer (s.configure steps).setup := by
  induction steps generalizing s with
  | nil => exact .refl
  | cons step steps ih => exact (s.changes_take step).trans (ih _)

end Changes

/-! ## The table that steps make -/

/-- The table of a setup was built by its compiler and has the size that is counted. -/
structure Tabled (count : Nat) (s : Setup) : Prop where
  /-- The catalog is one there is. -/
  catalog : s.catalog.Built
  /-- The table was built by calls. -/
  table : s.table.Built
  /-- The size is the count. -/
  size_eq : s.table.size = count

/-- A call adds to the size what it answers. -/
theorem size_install (compiler : Compiler) (table : Table) (journal : Journal)
    (declaration : Declaration) (interfaceId : Int32) :
    (compiler.install table journal declaration interfaceId).table.size =
      table.size +
        countOf (compiler.install table journal declaration interfaceId).result := by
  rcases compiler.install_cases table journal declaration interfaceId with
    ⟨fault, -, same⟩ | ⟨c, -, -, same⟩ | ⟨c, -, -, same⟩
  · rw [same]
    rfl
  · rw [same]
    rfl
  · rw [same]
    rfl

/-- Every change counts what it adds to the table. -/
theorem Tabled.change {n m : Nat} {s t : Setup} (tabled : s.Tabled n)
    (h : Change s m t) : t.Tabled (n + m) := by
  obtain ⟨catalog, table, size⟩ := tabled
  cases h with
  | mentioned interfaceId =>
    unfold mention
    split <;> exact ⟨catalog, table, size⟩
  | installed declaration interfaceId =>
    have grown := size_install s.compiler s.table s.journal declaration interfaceId
    rw [size] at grown
    exact ⟨catalog, table.installed catalog s.journal declaration interfaceId, grown⟩
  | said | subscribed | renamed | shared | declared | linked =>
    exact ⟨catalog, table, size⟩

/-- Any steps make a table that was built and count its bindings. -/
theorem tabled_configure (settings : Settings) (keys : KeyNames) (sink : Sink)
    (steps : List Step) :
    ((ofSettings settings keys sink).configure steps).setup.Tabled
      ((ofSettings settings keys sink).configure steps).answer :=
  (changes_configure _ steps).keeps (P := fun n s => s.Tabled n) Tabled.change
    ⟨.standard settings.keyBuckets, .empty, rfl⟩

end Setup

namespace Compiler

variable {table : Table} {compiler : Compiler} {declaration : Declaration}
  {interfaceId : Int32} {journal : Journal}

/-- A call that adds bindings adds those that the declaration compiles to. -/
theorem install_eq_added {n : Nat} (some : 0 < n)
    (h : (compiler.install table journal declaration interfaceId).result = .ok n) :
    ∃ c, compiler.compile declaration interfaceId = .ok c ∧ c.bindings ≠ [] ∧
      c.bindings.length = n ∧
      (compiler.install table journal declaration interfaceId).table =
        table.insert c.schema c.slot c.bindings := by
  rcases compiler.install_cases table journal declaration interfaceId with
    ⟨fault, -, same⟩ | ⟨c, -, -, same⟩ | ⟨c, hc, nonempty, same⟩
  · rw [same] at h
    cases h
  · rw [same] at h
    cases h
    cases some
  · rw [same] at h ⊢
    exact ⟨c, hc, nonempty, Except.ok.inj h, rfl⟩

/-- A call that does not add bindings leaves the table as it is, and one that is
rejected reports nothing. -/
theorem install_eq_unchanged (compiler : Compiler) (table : Table) (journal : Journal)
    (declaration : Declaration) (interfaceId : Int32) :
    (∀ fault, (compiler.install table journal declaration interfaceId).result =
        .error fault →
      (compiler.install table journal declaration interfaceId).table = table ∧
      (compiler.install table journal declaration interfaceId).journal = journal) ∧
    ((compiler.install table journal declaration interfaceId).result = .ok 0 →
      (compiler.install table journal declaration interfaceId).table = table) := by
  rcases compiler.install_cases table journal declaration interfaceId with
    ⟨fault, -, same⟩ | ⟨c, -, -, same⟩ | ⟨c, -, nonempty, same⟩
  · rw [same]
    exact ⟨fun _ _ => ⟨rfl, rfl⟩, nofun⟩
  · rw [same]
    exact ⟨nofun, fun _ => rfl⟩
  · rw [same]
    refine ⟨nofun, fun h => ?_⟩
    exact absurd (List.length_eq_zero_iff.mp (Except.ok.inj h)) nonempty

end Compiler

/-- A call extends one bucket or none. A declaration that is rejected or adds no binding
leaves a table as it is. One that adds `n` bindings adds them at the end of one bucket of
its type, all continued but the last. So after any configuration the size of the table is
the number of its bindings, and no bucket ends within a chain. -/
theorem Setup.extends_configure :
    (∀ table : Table, table.Built → ∀ compiler : Compiler, compiler.catalog.Built →
      ∀ (journal : Journal) (declaration : Declaration) (interfaceId : Int32),
      let installed := compiler.install table journal declaration interfaceId
      (∀ fault, installed.result = .error fault →
        installed.table = table ∧ installed.journal = journal) ∧
      (installed.result = .ok 0 → installed.table = table) ∧
      ∀ n, 0 < n → installed.result = .ok n →
        ∃ (c : Compilation) (number : Nat) (added : List Chain.Link),
          compiler.compile declaration interfaceId = .ok c ∧
          compiler.inputSchema declaration = .ok c.schema ∧
          added.map Chain.Link.binding = c.bindings ∧ added.length = n ∧
          added.map Chain.Link.continued = List.replicate (n - 1) true ++ [false] ∧
          number < installed.table.bucketCount c.schema.type ∧
          installed.table.run c.schema.type number =
            table.run c.schema.type number ++ added ∧
          (∀ type other, (type, other) ≠ (c.schema.type, number) →
            installed.table.run type other = table.run type other) ∧
          (∀ type, type ≠ c.schema.type →
            installed.table.sets.get type = table.sets.get type) ∧
          installed.table.size = table.size + n) ∧
    ∀ (settings : Settings) (keys : KeyNames) (sink : Sink) (steps : List Setup.Step),
      let outcome := (Setup.ofSettings settings keys sink).configure steps
      outcome.setup.table.Built ∧ outcome.setup.catalog.Built ∧
        outcome.setup.table.size = outcome.answer ∧
        outcome.setup.table.size = outcome.setup.table.bindings.length ∧
        ∀ type number last, (outcome.setup.table.run type number).getLast? = some last →
          last.continued = false := by
  refine ⟨?_, fun settings keys sink steps => ?_⟩
  · intro table built compiler catalog journal declaration interfaceId installed
    have unchanged :=
      compiler.install_eq_unchanged table journal declaration interfaceId
    refine ⟨unchanged.1, unchanged.2, fun n some hn => ?_⟩
    obtain ⟨c, hc, nonempty, hlength, htable⟩ := Compiler.install_eq_added some hn
    have formed := built.formed.setFor (Compiler.lawful_of_compile catalog hc)
    have runs := Table.run_insert formed c.slot c.bindings
    have here := formed.position_lt c.slot
    refine ⟨c, (table.setFor c.schema).position c.slot, Chain.linksOf c.bindings, hc,
      (Compiler.compile_eq_ok hc).1, Chain.map_binding_linksOf _,
      (Chain.length_linksOf _).trans hlength, ?_, ?_, ?_, ?_, ?_, ?_⟩
    · rw [Chain.map_continued_linksOf nonempty, hlength]
    · rw [htable, Table.bucketCount_insert_self]
      exact here
    · rw [htable, runs, if_pos ⟨rfl, rfl⟩]
    · intro type other apart
      rw [htable, runs, if_neg (fun both => apart (Prod.ext both.1 both.2)),
        List.append_nil]
    · intro type apart
      rw [htable]
      exact Table.sets_insert_of_ne table c.slot c.bindings apart
    · rw [htable, ← hlength]
      rfl
  · obtain ⟨catalog, built, size⟩ := Setup.tabled_configure settings keys sink steps
    exact ⟨built, catalog, size, built.formed.size_eq, built.formed.ended⟩

/-- A binding, one without a known output, one without an input, and an interface with a
variable and a binding. -/
def Setup.mixedSteps : List Setup.Step :=
  [.bind ⟨[("input", "go-sub"), ("conditions", "sub=0-1"), ("output", "go-sub")]⟩ 1,
    .bind ⟨[("input", "go-sub"), ("output", "no-such-event")]⟩ 1,
    .bind ⟨[("output", "set-debug-mode")]⟩ 1,
    .load { id := 2, declarations := [⟨"LEVEL", "int", none⟩],
            bindings := [⟨[("input", "key"), ("output", "set-debug-mode")]⟩] }]

/-- Two outputs for a subroutine call. -/
def twoOutputs : Declaration :=
  ⟨[("input", "go-sub"), ("output", "set-debug-mode"), ("output1", "go-sub")]⟩

/-- Two of the bindings are added. Further calls on the table are rejected, add
nothing, or add two bindings. -/
theorem Setup.extends_configure_mixedSteps :
    let outcome :=
      (Setup.ofSettings { keyBuckets := 4 } (.exact []) .collecting).configure mixedSteps
    let install (declaration : Declaration) :=
      outcome.setup.compiler.install outcome.setup.table {} declaration 1
    outcome.answer = 2 ∧ outcome.setup.table.bindings.length = 2 ∧
      (install ⟨[]⟩).table = outcome.setup.table ∧
      (install ⟨[("input", "go-sub"), ("output", "none")]⟩).table =
        outcome.setup.table ∧
      (install twoOutputs).table.size = 4 := by
  intro outcome install
  obtain ⟨calls, configured⟩ := extends_configure
  obtain ⟨built, catalog, counted, size, -⟩ :=
    configured { keyBuckets := 4 } (.exact []) .collecting mixedSteps
  have answer : outcome.answer = 2 := by decide +kernel
  have outputs : twoOutputs.outputs = [⟨"set-debug-mode", ""⟩, ⟨"go-sub", ""⟩] :=
    (Declaration.outputs_eq_of_pairwise (by decide +kernel)).trans (by decide +kernel)
  have added : (install twoOutputs).result = .ok 2 := by
    dsimp only [install]
    unfold Compiler.install Compiler.compile
    rw [outputs]
    decide +kernel
  obtain ⟨rejects, -⟩ := calls _ built outcome.setup.compiler catalog {} ⟨[]⟩ 1
  obtain ⟨-, nothing, -⟩ := calls _ built outcome.setup.compiler catalog {}
    ⟨[("input", "go-sub"), ("output", "none")]⟩ 1
  obtain ⟨-, -, adds⟩ := calls _ built outcome.setup.compiler catalog {} twoOutputs 1
  obtain ⟨c, number, links, -, -, -, -, -, -, -, -, -, grown⟩ := adds 2 (by decide) added
  rw [counted, answer] at grown
  exact ⟨answer, size.symm.trans (counted.trans answer),
    (rejects (.missingAttribute "input") (by decide +kernel)).1,
    nothing (by decide +kernel), grown⟩

end CueRouter
