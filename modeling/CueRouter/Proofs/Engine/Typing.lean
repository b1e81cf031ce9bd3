import CueRouter.Proofs.Binding.Typing
import CueRouter.Proofs.Dispatch.Frame
import CueRouter.Proofs.Engine.Configuration

/-!
# Typed runs

Bindings compile to well typed ones, and what is configured later declares more
variables and takes none away, so all bindings of a setup are well typed for the
variables that its engine starts with. A run keeps those variables and fires bindings of
the table only. Hence whatever a binding broadcasts at any moment is well typed.
-/

namespace CueRouter

/-! ## Declared variables -/

namespace Store

variable {store : Store} {handle : Handle}

/-- The declared variables are those that have an outline. -/
theorem declares_iff_outline? :
    store.Declares handle ↔ (store.outline? handle).isSome = true := by
  unfold Declares outline?
  rw [Option.isSome_map]

/-- The declared variables are those at positions of the store. -/
theorem declares_iff_lt : store.Declares handle ↔ handle.index < store.entries.length := by
  simp [Declares, get?]

/-- Declaring a variable takes none away. -/
theorem Declares.declareValue (h : store.Declares handle) {name : String} {kind : Kind}
    {initial : Value} {declared : Declared}
    (added : store.declareValue name kind initial = .ok declared) :
    declared.store.Declares handle := by
  rw [declares_iff_lt] at h ⊢
  unfold Store.declareValue at added
  dsimp only at added
  split at added
  · cases added
  · split at added
    · cases added
    · split at added
      · cases added
      · cases added
        dsimp only
        rw [List.length_append]
        exact Nat.lt_add_right _ h

/-- Linking a variable takes none away. -/
theorem Declares.link (h : store.Declares handle) {name : String} {shared : SharedCell}
    {declared : Declared} (linked : store.link name shared = .ok declared) :
    declared.store.Declares handle := by
  rw [declares_iff_lt] at h ⊢
  unfold Store.link at linked
  split at linked
  · cases linked
    unfold withStorage
    dsimp only
    rw [List.length_modify]
    exact h
  · cases linked

end Store

/-! ## Typed setups -/

namespace Setup

/-- All bindings of a setup over the stock catalog are well typed for its variables. -/
structure Typed (s : Setup) : Prop where
  /-- The catalog is the stock one. -/
  standard : ∃ keyBuckets, s.catalog = .standard keyBuckets
  /-- The table was built by calls. -/
  table : s.table.Built
  /-- The bindings are well typed. -/
  bindings : ∀ binding ∈ s.table.bindings,
    binding.WellTyped (s.catalog.schema binding.prototype.type) s.store

variable {s t : Setup} {m : Nat}

/-- A setup stays typed when more variables are declared. -/
theorem Typed.withStore (typed : s.Typed) {store : Store}
    (grown : ∀ handle, s.store.Declares handle → store.Declares handle) :
    Typed { s with store := store } :=
  ⟨typed.standard, typed.table, fun binding h => (typed.bindings binding h).mono grown⟩

/-- A setup stays typed when a declaration is compiled into its table. -/
theorem Typed.install (typed : s.Typed) (declaration : Declaration) (interfaceId : Int32) :
    let installed := s.compiler.install s.table s.journal declaration interfaceId
    Typed { s with table := installed.table, journal := installed.journal } := by
  intro installed
  obtain ⟨⟨keyBuckets, standard⟩, built, bindings⟩ := typed
  have catalog : s.compiler.catalog.Built := .of_eq standard
  refine ⟨⟨keyBuckets, standard⟩, built.installed catalog s.journal declaration interfaceId,
    fun binding hbinding => ?_⟩
  rcases s.compiler.install_cases s.table s.journal declaration interfaceId with
    ⟨fault, -, same⟩ | ⟨c, -, -, same⟩ | ⟨c, hc, -, same⟩
  · rw [show installed = _ from same] at hbinding
    exact bindings binding hbinding
  · rw [show installed = _ from same] at hbinding
    exact bindings binding hbinding
  · rw [show installed = _ from same] at hbinding
    have formed := built.formed.setFor (Compiler.lawful_of_compile catalog hc)
    rcases Table.mem_or_mem_of_mem_bindings_insert formed hbinding with before | added
    · exact bindings binding before
    · exact Compiler.wellTyped_of_compile standard hc added

/-- Every change keeps a setup typed. -/
theorem Typed.change (typed : s.Typed) (h : Change s m t) : t.Typed := by
  cases h with
  | said | subscribed | renamed => exact ⟨typed.standard, typed.table, typed.bindings⟩
  | mentioned interfaceId =>
    unfold mention
    split
    · exact typed
    · exact ⟨typed.standard, typed.table, typed.bindings⟩
  | shared cell => exact typed.withStore fun _ declares => declares
  | declared added => exact typed.withStore fun _ declares => declares.declareValue added
  | linked linked => exact typed.withStore fun _ declares => declares.link linked
  | installed declaration interfaceId => exact typed.install declaration interfaceId

/-- Any steps make a typed setup. -/
theorem typed_configure (settings : Settings) (keys : KeyNames) (sink : Sink)
    (steps : List Step) : ((ofSettings settings keys sink).configure steps).setup.Typed := by
  refine (changes_configure _ steps).keeps (P := fun _ s => s.Typed) Typed.change
    ⟨⟨settings.keyBuckets, rfl⟩, .empty, fun binding h => ?_⟩
  have none := Table.formed_empty.size_eq
  exact absurd (List.length_pos_of_mem h) (Nat.not_lt.mpr none.ge)

end Setup

/-! ## Runs fire bindings of the table -/

namespace Router

variable {router : Router} {input : Event} {binding : Binding}

/-- Borrowing an event fires no binding. -/
theorem fire_notMem_lend?_getD {fill : Event → Event} {event : Event}
    (overwrites : Event.Overwrites fill event) {t u : State} :
    .fire input binding ∉ ((lend? t fill).getD ⟨u, []⟩).agenda := by
  intro fires
  rcases mem_agenda_lend?_getD overwrites fires with same | same
  · cases same
  · cases same

/-- Looking up an input fires bindings of the table only. -/
theorem mem_bindings_of_consult {s : State} {event : Event}
    (fires : .fire input binding ∈ (router.consult s event).agenda) :
    binding ∈ router.table.bindings := by
  have silent : Task.fire input binding ∉ fallback event := by
    unfold fallback
    split <;> simp
  unfold consult at fires
  split at fires
  · exact absurd fires silent
  · exact absurd fires silent
  · next chain hfind =>
    rcases List.mem_append.mp fires with output | echoed
    · obtain ⟨other, hother, same⟩ := List.mem_map.mp output
      cases same
      exact Table.mem_bindings_of_find hfind binding hother
    · split at echoed
      · cases List.mem_singleton.mp echoed
      · cases echoed

/-- A task leads to firing bindings of the table only. -/
theorem mem_bindings_of_perform {s : State} {task : Task} {m : Moment}
    (h : router.perform s task = some m) (fires : .fire input binding ∈ m.agenda) :
    binding ∈ router.table.bindings := by
  cases task with
  | deliver event => cases h; simp at fires
  | route event =>
    cases h
    unfold enter at fires
    split at fires
    · cases fires
    · split at fires
      · cases fires
      · simp at fires
  | handle event =>
    cases h
    unfold act at fires
    dsimp only at fires
    split at fires
    · unfold carry at fires
      split at fires
      · split at fires
        · cases List.mem_singleton.mp fires
        · cases fires
      · cases fires
    · split at fires
      · cases fires
      · exact mem_bindings_of_consult fires
  | splitLow event n => cases h; cases fires
  | fire other others =>
    cases h
    exact absurd fires (fire_notMem_lend?_getD (others.overwrites_synthesizeInto _ _))
  | echo event =>
    cases h
    exact absurd fires (fire_notMem_lend?_getD event.overwrites_copyFrom_marked)
  | leave => cases h; cases fires
  | hearAll event => cases h; simp at fires
  | hear event index =>
    cases h
    unfold turn at fires
    split at fires
    · cases fires
    · cases fires
    · next emit _ _ =>
      split at fires
      · cases fires
      · exact absurd fires (fire_notMem_lend?_getD emit.overwrites_copyFrom)
  | giveBack event => cases h; cases fires
  | announce interfaceId =>
    change router.proclaim s interfaceId = some m at h
    unfold proclaim at h
    split at h
    · cases h
      cases fires
    · next event _ =>
      have borrowed : Task.fire input binding ∉
          ((lend? s fun old => old.copyFrom event).getD ⟨s, []⟩).agenda :=
        fire_notMem_lend?_getD event.overwrites_copyFrom
      rw [h] at borrowed
      exact absurd fires borrowed

/-- A run fires bindings of the table only, if nothing is being fired at its start. -/
theorem Passes.mem_bindings {m n : Moment} (h : router.Passes m n)
    (start : ∀ input binding, .fire input binding ∉ m.agenda)
    (fires : .fire input binding ∈ n.agenda) : binding ∈ router.table.bindings := by
  refine h.keeps (P := fun n => ∀ input binding, .fire input binding ∈ n.agenda →
    binding ∈ router.table.bindings) ?_ (fun _ _ none => absurd none (start _ _))
    input binding fires
  intro first second hstep known input binding fires
  obtain ⟨task, rest, after, hagenda, hafter, rfl⟩ := next?_eq_some.mp hstep
  rcases List.mem_append.mp fires with new | old
  · exact mem_bindings_of_perform hafter new
  · refine known input binding ?_
    rw [hagenda]
    exact List.mem_cons_of_mem _ old

/-- A binding that is fired broadcasts what it synthesizes, or nothing. -/
theorem agenda_of_fire {m n : Moment} {rest : List Task}
    (h : m.agenda = .fire input binding :: rest) (hstep : router.next? m = some n) :
    let output := binding.synthesize input m.state.store
    n.agenda = .deliver output :: .giveBack output :: rest ∨ n.agenda = rest := by
  intro output
  obtain ⟨task, others, after, hagenda, hafter, rfl⟩ := next?_eq_some.mp hstep
  cases h.symm.trans hagenda
  cases hafter
  unfold produce
  dsimp only
  rw [Router.lend?_of_overwrites (binding.overwrites_synthesizeInto input m.state.store)]
  cases (m.state.note .trace _).pool.acquire with
  | none => exact .inr rfl
  | some loan => exact .inl rfl

end Router

/-- Whatever a binding broadcasts is well typed. An engine over the stock catalog was
configured by any steps, and its variables may have been written since. Then at every
moment of a run from any agenda that fires nothing yet, the output of the binding that
is fired next is of its schema and well typed for the variables there are, and nothing
else is broadcast for the binding. Sending any events is such a run. -/
theorem Setup.wellTyped_fired (settings : Settings) (keys : KeyNames) (sink : Sink)
    (steps : List Setup.Step) :
    let engine := ((Setup.ofSettings settings keys sink).configure steps).setup.build
    (∀ (s : State) (agenda : List Task),
      (∀ handle, s.store.outline? handle = engine.state.store.outline? handle) →
      (∀ input binding, .fire input binding ∉ agenda) →
      ∀ m, engine.router.Passes ⟨s, agenda⟩ m →
      ∀ input binding rest, m.agenda = .fire input binding :: rest →
        let output := binding.synthesize input m.state.store
        output.WellTyped (engine.router.catalog.schema output.type) m.state.store ∧
        ∀ n, engine.router.next? m = some n →
          n.agenda = .deliver output :: .giveBack output :: rest ∨ n.agenda = rest) ∧
    ∀ events : List Event,
      (∀ input binding, .fire input binding ∉ events.map Task.deliver) ∧
      engine.router.Finishes ⟨engine.state, events.map .deliver⟩
        (engine.sendAll events).state := by
  intro engine
  refine ⟨fun s agenda same start m passes input binding rest hagenda => ?_,
    fun events => ⟨fun input binding => by simp, engine.router.finishes_broadcasts _ _⟩⟩
  intro output
  have typed := Setup.typed_configure settings keys sink steps
  have fires : .fire input binding ∈ m.agenda := by
    rw [hagenda]
    exact List.mem_cons_self
  have known := passes.mem_bindings start fires
  have outlines (handle : Handle) :
      m.state.store.outline? handle = engine.state.store.outline? handle :=
    (passes.framed.outline handle).trans (same handle)
  have later := (typed.bindings binding known).mono fun handle declares => by
    rw [Store.declares_iff_outline?, outlines]
    exact Store.declares_iff_outline?.mp declares
  have suits := later.synthesize input m.state.store
  refine ⟨?_, fun n => Router.agenda_of_fire hagenda⟩
  rw [show output.type = binding.prototype.type from binding.type_synthesize _ _]
  exact suits

/-- A variable, and a key that sets it to the number of its interface and one more. -/
def Setup.levelSteps : List Setup.Step :=
  [.declare "LEVEL" "int" none,
    .bind ⟨[("input", "key"), ("output", "set-variable"),
      ("parameters", "var=LEVEL and value=interfaceid+1")]⟩ 7]

/-- The key makes an event that refers to the variable and holds the number, an int. -/
theorem Setup.wellTyped_fired_levelSteps :
    let engine := ((Setup.ofSettings { keyBuckets := 4 } (.exact []) .collecting).configure
      levelSteps).setup.build
    let press : Event := ⟨.key, [.int 7, .int 1, .int 97, .int 97], false⟩
    ∃ m binding rest, engine.router.Passes ⟨engine.state, [.deliver press]⟩ m ∧
      m.agenda = .fire press binding :: rest ∧
      (binding.synthesize press m.state.store).WellTyped
        (engine.router.catalog.schema .setVariable) m.state.store ∧
      (binding.synthesize press m.state.store).fields =
        [.reference ⟨1⟩, .int 8, .int 0, .float .zero] := by
  intro engine press
  let binding : Binding :=
    ⟨⟨.setVariable, [.reference ⟨1⟩, .int 0, .int 0, .float .zero], false⟩, false,
      [⟨.field 0 .int, .constant (.int 7)⟩],
      [⟨.field 1 .any, ⟨.field 0 .int, [⟨.add, .constant (.int 1)⟩]⟩⟩]⟩
  have found : engine.router.table.find press engine.state.store =
      .ok (some ⟨binding, []⟩) := by decide +kernel
  have limit : ¬engine.router.depthLimit ≤ engine.state.depth := by decide +kernel
  have quiet : ¬engine.state.debug = true := by decide +kernel
  have entered : engine.router.next? ⟨engine.state, [.route press, .hearAll press]⟩ =
      some ⟨{ engine.state with depth := 1 }, [.handle press, .leave, .hearAll press]⟩ := by
    refine Router.next?_eq_some.mpr ⟨_, _, _, rfl, rfl, ?_⟩
    unfold Router.enter
    rw [if_neg (by decide), if_neg limit]
    rfl
  have matched : engine.router.next?
        ⟨{ engine.state with depth := 1 }, [.handle press, .leave, .hearAll press]⟩ =
      some ⟨{ engine.state with depth := 1 },
        [.fire press binding, .leave, .hearAll press]⟩ := by
    refine Router.next?_eq_some.mpr ⟨_, _, _, rfl, rfl, ?_⟩
    unfold Router.act Router.announce Router.consult
    rw [if_neg quiet]
    dsimp only
    rw [found]
    rfl
  have passes : engine.router.Passes ⟨engine.state, [.deliver press]⟩
      ⟨{ engine.state with depth := 1 }, [.fire press binding, .leave, .hearAll press]⟩ :=
    .head rfl (.head entered (.single matched))
  have typed := (Setup.wellTyped_fired { keyBuckets := 4 } (.exact []) .collecting
    levelSteps).1 engine.state _ (fun _ => rfl) (by simp) _ passes press binding _ rfl
  exact ⟨_, binding, _, passes, rfl, typed.1, by decide +kernel⟩

end CueRouter
