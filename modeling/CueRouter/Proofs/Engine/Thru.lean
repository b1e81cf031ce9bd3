import CueRouter.Proofs.Binding.Copying
import CueRouter.Proofs.Binding.Independence
import CueRouter.Proofs.Engine.Installing
import CueRouter.Proofs.Midi.Thru

/-!
# Sending messages on

Declarations under interface zero can copy the fields of an incoming note or controller
message to an outgoing one. Whatever else is declared for other inputs or other interfaces,
and in whatever order, the engine then finds such a declaration for every message that comes
in, so exactly one message goes out, to the same port and channel. It is the one that came in,
but for the transpose of a note.
-/

namespace CueRouter

/-- Of the calls on the input, those under interface zero copy its fields to the output, and
there is one. Those under other interfaces do not speak about interfaces. -/
structure Thru.SentBy (thru : Thru) (calls : List Compiler.Call) : Prop where
  /-- There is a call under interface zero. -/
  exists_call : ∃ call ∈ calls, call.declaration.input? = some thru.input ∧ call.interfaceId = 0
  /-- The calls under interface zero copy the fields. -/
  copies : ∀ call ∈ calls, call.declaration.input? = some thru.input → call.interfaceId = 0 →
    call.declaration.Copies thru.output thru.fields
  /-- Other calls are for other interfaces. -/
  others : ∀ call ∈ calls, call.declaration.input? = some thru.input → call.interfaceId ≠ 0 →
    call.declaration.LeavesInterface

namespace Thru

variable {thru : Thru}

/-- What a note and a controller message have in common with the outgoing ones. -/
theorem shares (known : thru = .notes ∨ thru = .controllers) (keyBuckets : Nat) :
    thru.input.role = .input ∧ thru.output.role = .action ∧ ∀ name ∈ thru.fields,
      ((Catalog.standard keyBuckets).schema thru.input).Shares
        ((Catalog.standard keyBuckets).schema thru.output) name := by
  rw [Catalog.schema_standard, Catalog.schema_standard]
  rcases known with rfl | rfl
  · have same : ∀ name ∈ Thru.notes.fields,
        (Catalog.stock 0 .midiKey).Shares (Catalog.stock 0 .midiOutNote) name := by
      decide +kernel
    exact ⟨rfl, rfl, same⟩
  · have same : ∀ name ∈ Thru.controllers.fields,
        (Catalog.stock 0 .midiController).Shares (Catalog.stock 0 .midiOutController) name := by
      decide +kernel
    exact ⟨rfl, rfl, same⟩

section Found

variable {calls : List Compiler.Call} {keyBuckets : Nat} {event : Event} {store : Store}

/-- A call that copies the fields of the input compiles to a single binding that copies them,
and answers the events under its interface. -/
theorem exists_compilation (known : thru = .notes ∨ thru = .controllers)
    {making : Compiler.Making} (stock : making.compiler.catalog = .standard keyBuckets)
    (named : making.call.declaration.input? = some thru.input)
    (copies : making.call.declaration.Copies thru.output thru.fields) :
    ∃ c binding, making.compilation? = some c ∧ c.slot = .wildcard ∧ c.bindings = [binding] ∧
      binding.Copies (.standard keyBuckets) ((Catalog.standard keyBuckets).schema thru.input)
        thru.output thru.fields ∧
      ∀ event store, event.type = thru.input →
        (Catalog.standard keyBuckets).read? event interfaceField =
          some (.int making.call.interfaceId) → c.answers event store = true := by
  have built : making.compiler.catalog.Built := .of_eq stock
  obtain ⟨input, -, shared⟩ := shares known keyBuckets
  rw [← stock] at shared ⊢
  obtain ⟨c, binding, compiled, schema, slot, bindings, conditions, copying⟩ :=
    Compiler.exists_compile_of_copies built (by simp [EventType.isBindable, input]) named copies
      shared making.call.interfaceId
  refine ⟨c, binding, Compiler.Making.compilation?_eq_some.mpr compiled, slot, bindings,
    copying, fun event store type under => ?_⟩
  have holds : binding.applies event store = true := by
    rw [Catalog.read?, type] at under
    rw [Binding.applies, conditions]
    exact Compiler.holds_implicitCondition under store
  simp [Compilation.answers, Compilation.headApplies, schema, built.type_schema, type, bindings,
    holds]

/-- What answers a message that is sent on is the declaration of a call under interface zero
that copies its fields. -/
theorem SentBy.copying_of_answers (sent : thru.SentBy calls)
    (known : thru = .notes ∨ thru = .controllers) {making : Compiler.Making}
    (stock : making.compiler.catalog = .standard keyBuckets) (member : making.call ∈ calls)
    {c : Compilation} (compiled : making.compilation? = some c)
    (type : event.type = thru.input)
    (under : (Catalog.standard keyBuckets).read? event interfaceField = some (.int 0))
    (answers : c.answers event store = true) :
    c.slot = .wildcard ∧ ∃ binding, c.bindings = [binding] ∧
      binding.Copies (.standard keyBuckets) ((Catalog.standard keyBuckets).schema thru.input)
        thru.output thru.fields := by
  have built : making.compiler.catalog.Built := .of_eq stock
  have compile := Compiler.Making.compilation?_eq_some.mp compiled
  obtain ⟨same, applies⟩ : c.schema.type = event.type ∧ c.headApplies event store = true := by
    simpa [Compilation.answers] using answers
  have named : making.call.declaration.input? = some thru.input := by
    rw [Compiler.input?_of_compile built compile, same, type]
  have zero : making.call.interfaceId = 0 := by
    by_contra other
    have bindable : event.type.isBindable = true := by
      simp [EventType.isBindable, type, (shares known keyBuckets).1]
    have agrees := Compiler.agrees_of_headApplies stock
      (sent.others making.call member named other) compile applies bindable
    have holds : making.compiler.catalog.read event interfaceField = .int 0 := by
      rw [stock, Catalog.read, under]
      rfl
    rw [holds] at agrees
    have numbers := congrArg Int64.toInt32
      (Option.some.inj (Compiler.toWhole?_eq_of_agrees_int rfl agrees))
    rw [Int32.toInt32_toInt64, Int32.toInt32_toInt64] at numbers
    exact other numbers.symm
  obtain ⟨d, binding, made, slot, bindings, copying, -⟩ :=
    exists_compilation known stock named (sent.copies making.call member named zero)
  rw [compiled] at made
  cases made
  exact ⟨slot, binding, bindings, copying⟩

/-- In a table that holds what the calls compiled to, a message that is sent on finds a single
binding, which copies its fields. -/
theorem SentBy.exists_find (sent : thru.SentBy calls)
    (known : thru = .notes ∨ thru = .controllers) {setup : Setup}
    (stock : setup.catalog = .standard keyBuckets) (installs : setup.Installs calls)
    (type : event.type = thru.input)
    (under : (Catalog.standard keyBuckets).read? event interfaceField = some (.int 0))
    (whole : ∀ field ∈ ((Catalog.standard keyBuckets).schema event.type).indexedField?,
      (event.field field.index).isWhole = true) (store : Store) :
    ∃ chain, setup.table.find event store = .ok (some chain) ∧ chain.tail = [] ∧
      chain.head.Copies (.standard keyBuckets)
        ((Catalog.standard keyBuckets).schema thru.input) thru.output thru.fields := by
  obtain ⟨makings, made, outgrown, holds⟩ := installs
  rw [stock] at holds
  have catalogs (making) (h : making ∈ makings) : making.compiler.catalog = .standard keyBuckets :=
    (outgrown making h).catalog.trans stock
  have among {making : Compiler.Making} (h : making ∈ makings) : making.call ∈ calls := by
    rw [← made]
    exact List.mem_map_of_mem h
  have copying {c : Compilation} (h : c ∈ makings.filterMap Compiler.Making.compilation?)
      (answers : c.answers event store = true) :
      c.slot = .wildcard ∧ ∃ binding, c.bindings = [binding] ∧
        binding.Copies (.standard keyBuckets)
          ((Catalog.standard keyBuckets).schema thru.input) thru.output thru.fields := by
    obtain ⟨making, member, compiled⟩ := List.mem_filterMap.mp h
    exact sent.copying_of_answers known (catalogs making member) (among member) compiled type
      under answers
  obtain ⟨call, member, named, zero⟩ := sent.exists_call
  rw [← made] at member
  obtain ⟨making, hmaking, rfl⟩ := List.mem_map.mp member
  obtain ⟨one, -, compiled, -, -, -, answering⟩ := exists_compilation known
    (catalogs making hmaking) named (sent.copies _ (among hmaking) named zero)
  have answers := answering event store type (by rw [zero]; exact under)
  obtain ⟨c, searched⟩ := Compiler.exists_search_of_answers
    (List.mem_filterMap.mpr ⟨making, hmaking, compiled⟩) answers
  obtain ⟨-, binding, bindings, copies⟩ :=
    copying (Compiler.mem_of_search searched) (Compiler.answers_of_search searched)
  have found := Compiler.find_of_holds (.standard keyBuckets) holds whole
    fun d hd answered number slot => by
      rw [(copying hd answered).1] at slot
      cases slot
  rw [searched, Option.bind_some, Compilation.chain?, bindings] at found
  exact ⟨⟨binding, []⟩, found, rfl, copies⟩

/-- The output of a binding that copies the fields carries what the input carries. -/
theorem carries_synthesize {message : MidiMessage} (h : message.thru? = some thru)
    {binding : Binding}
    (copies : binding.Copies (.standard keyBuckets)
      ((Catalog.standard keyBuckets).schema thru.input) thru.output thru.fields)
    (type : event.type = thru.input) {port : UInt8} {channel : Fin 16}
    (carries : event.Carries (.standard keyBuckets) (message.addressed port channel))
    (store : Store) :
    (binding.synthesize event store).Carries (.standard keyBuckets)
      (message.addressed port channel) := by
  intro number member
  have named : number.1 ∈ thru.fields := by
    rw [← MidiMessage.map_fst_addressed h port channel]
    exact List.mem_map_of_mem member
  have read := carries number member
  rw [Catalog.read?, type] at read
  exact (copies event store).2 number.1 named _ read

end Found

end Thru

namespace Setup

/-- A note or a controller message that comes in goes out once, changed only by the
transpose, if the declarations under interface zero on its input copy its fields. Whenever
an engine is ready, broadcasting its event leaves nothing behind but what is heard, one
event of which is an outgoing message, to the same port and channel. -/
theorem messages_sent_on (settings : Settings) (keys : KeyNames) (sink : Sink)
    (steps : List Step) (message : MidiMessage) (thru : Thru) (h : message.thru? = some thru)
    (sent : thru.SentBy (steps.flatMap Step.calls)) :
    let engine := ((ofSettings settings keys sink).configure steps).setup.build
    ((∀ listener ∈ steps.flatMap Step.listeners,
        listener.Ignores thru.input ∧ listener.Ignores thru.output) →
      engine.state.depth < engine.router.depthLimit ∧
        engine.state.Ready thru.input 1 ∧ engine.state.Ready thru.output 1) ∧
    ∀ s : State, s.depth < engine.router.depthLimit → s.Ready thru.input 1 →
      s.Ready thru.output 1 → ∀ (port : UInt8) (channel : Fin 16) (transpose : Int32),
      ∃ event heard,
        message.toEvent? engine.router.catalog port (.ofWire channel) = some event ∧
        s.Trail (engine.router.broadcast s event) heard [] ∧
        heard.filterMap (fun event => event.toMidi? engine.router.catalog transpose) =
          [⟨port, .ofWire channel, message.sentOn transpose⟩] := by
  intro engine
  have known := MidiMessage.notes_or_controllers h
  have stock : engine.router.catalog = .standard settings.keyBuckets :=
    catalog_configure settings keys sink steps
  have installs := installs_configure settings keys sink steps
  refine ⟨fun ignored => ?_, fun s level ready quiet port channel transpose => ?_⟩
  · have limit : 0 < engine.router.depthLimit := Nat.le_max_right _ _
    have room : 1 ≤ max settings.poolSize 1 := Nat.le_max_right _ _
    exact ⟨limit, ready_build settings keys sink room fun l hl => (ignored l hl).1,
      ready_build settings keys sink room fun l hl => (ignored l hl).2⟩
  · obtain ⟨event, arrives, type, plain, under, carries, whole⟩ :=
      MidiMessage.exists_toEvent? h settings.keyBuckets port channel
    obtain ⟨chain, found, single, copies⟩ :=
      sent.exists_find known stock installs type under whole s.store
    obtain ⟨input, action, -⟩ := Thru.shares known settings.keyBuckets
    have output := (copies event s.store).1
    have carried := Thru.carries_synthesize h copies type carries s.store
    rw [← type] at input ready
    rw [← output] at action quiet
    obtain ⟨-, trail⟩ := (Router.stretch_single plain input found single rfl action level ready
      quiet.ignored).broadcast
    rw [← stock] at arrives carried
    refine ⟨event, _, arrives, trail, ?_⟩
    have sends := MidiMessage.toMidi?_of_carries h output carried transpose
    have silent (other : Event) (same : other.type = event.type) :
        other.toMidi? engine.router.catalog transpose = none :=
      MidiMessage.toMidi?_of_input h (same.trans type) _ transpose
    have echoed : (Router.echoes chain event).filterMap
        (fun event => event.toMidi? engine.router.catalog transpose) = [] := by
      unfold Router.echoes
      split
      · simp [silent event.marked rfl]
      · rfl
    simp [List.filterMap_append, sends, echoed, silent event rfl]

/-- Copies a key to an outgoing note, and echoes it. -/
def noteDeclaration : Declaration :=
  ⟨[("echo", "yes"), ("input", "midi-key"), ("output", "midi-out-note"),
    ("parameters",
      "down=down and port = port and vel=vel and notenum=notenum and channel=channel")]⟩

/-- Answers one key of another interface. -/
def otherDeclaration : Declaration :=
  ⟨[("input", "midi-key"), ("conditions", "notenum=120"), ("output", "trigger-loop")]⟩

/-- A variable with the name of a field, a declaration for another interface, the declaration
that copies, and a recorder. -/
def thruSteps : List Step :=
  [.declare "vel" "int" (some "7"), .bind otherDeclaration 7,
    .load { id := 0, bindings := [noteDeclaration] }, .subscribe (.recorder #[])]

/-- The declaration copies the fields of a note. -/
theorem copies_noteDeclaration : noteDeclaration.Copies .midiOutNote Thru.notes.fields where
  unconditional := by decide +kernel
  single := by
    refine ⟨_, (Declaration.outputs_eq_of_pairwise (by decide +kernel)).trans rfl, ?_, ?_⟩
    · decide +kernel
    · exact ⟨by decide +kernel, by decide +kernel⟩

/-- With a pool of one event, a key that is to move by twenty semitones goes out as the highest
key. -/
theorem messages_sent_on_thruSteps :
    let engine := ((ofSettings { poolSize := 1 } (.exact []) .collecting).configure
      thruSteps).setup.build
    Thru.notes.SentBy (thruSteps.flatMap Step.calls) ∧
    engine.state.Ready .midiKey 1 ∧ engine.state.Ready .midiOutNote 1 ∧
    ∃ event heard,
      (MidiMessage.noteOn 120 64).toEvent? engine.router.catalog 3 (.ofWire 5) = some event ∧
      engine.state.Trail (engine.router.broadcast engine.state event) heard [] ∧
      heard.filterMap (fun event => event.toMidi? engine.router.catalog 20) =
        [⟨3, .ofWire 5, .noteOn 127 64⟩] := by
  intro engine
  have sent : Thru.notes.SentBy [⟨otherDeclaration, 7⟩, ⟨noteDeclaration, 0⟩] :=
    { exists_call := ⟨⟨noteDeclaration, 0⟩, by simp, by decide +kernel, rfl⟩
      copies := by
        simp only [List.forall_mem_cons]
        exact ⟨fun _ zero => absurd zero (by decide), fun _ _ => copies_noteDeclaration, nofun⟩
      others := by
        simp only [List.forall_mem_cons]
        exact ⟨fun _ _ => by decide +kernel, fun _ other => absurd rfl other, nofun⟩ }
  obtain ⟨start, sending⟩ := messages_sent_on { poolSize := 1 } (.exact []) .collecting thruSteps
    (.noteOn 120 64) .notes rfl sent
  obtain ⟨level, ready, quiet⟩ := start (by decide)
  exact ⟨sent, ready, quiet, sending engine.state level ready quiet 3 5 20⟩

end Setup

end CueRouter
