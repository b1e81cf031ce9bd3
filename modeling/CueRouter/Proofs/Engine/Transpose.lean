import CueRouter.Proofs.Dispatch.Handled
import CueRouter.Proofs.Engine.Typing
import CueRouter.Proofs.Variable.Naming
import Mathlib.Algebra.Ring.Int.Defs

/-!
# The transpose

The first variable of every setup is linked to the cell that the dispatcher keeps the MIDI
transpose in. Unless configuration links its name elsewhere, variable and dispatcher agree
at every moment of a run: both have the sum of all adjustments that were handled so far,
wrapped to 32 bits. Where the adjustments are ints, no addition overflows on the way.
-/

namespace CueRouter

/-! ## What configuration does to the variables -/

namespace Setup

/-- What a step does with the variables. -/
def Step.uses : Step → List Use
  | .declare name typeName initializer => [.call (.declare name typeName initializer)]
  | .share cell => [.share cell]
  | .link name shared => [.call (.declareLinked name shared)]
  | .load interface => interface.declarations.map fun declaration =>
      .call (.declare declaration.name declaration.typeName declaration.initializer)
  | .bind .. | .subscribe _ | .useKeys _ | .useSink _ => []

variable (s : Setup)

/-- Declaring a variable uses the store for the declaration. -/
theorem store_declareVariable (name typeName : String) (initializer : Option String) :
    (s.declareVariable name typeName initializer).setup.store =
      s.store.after (.call (.declare name typeName initializer)) := by
  unfold declareVariable Store.after Call.outcome
  dsimp only
  cases s.store.declare name typeName initializer <;> rfl

/-- Linking a variable uses the store for the link. -/
theorem store_linkVariable (name : String) (shared : SharedCell) :
    (s.linkVariable name shared).setup.store =
      s.store.after (.call (.declareLinked name shared)) := by
  unfold linkVariable Store.after Call.outcome
  dsimp only
  cases s.store.declareLinked name shared <;> rfl

theorem store_mention (interfaceId : Int32) : (s.mention interfaceId).store = s.store := by
  unfold mention
  split <;> rfl

theorem store_addBinding (declaration : Declaration) (interfaceId : Int32) :
    (s.addBinding declaration interfaceId).setup.store = s.store := by
  rw [← s.store_mention interfaceId]
  unfold addBinding
  dsimp only
  split <;> rfl

theorem store_addBindings (interfaceId : Int32) (declarations : List Declaration) :
    (s.addBindings interfaceId declarations).setup.store = s.store := by
  induction declarations generalizing s with
  | nil => rfl
  | cons declaration rest ih => exact (ih _).trans (s.store_addBinding declaration interfaceId)

/-- A step does nothing with the variables besides its uses. -/
theorem store_take (step : Step) :
    (s.take step).setup.store = s.store.afterAll step.uses := by
  cases step with
  | declare name typeName initializer =>
    simp only [take, Step.uses, Store.afterAll, List.foldl_cons, List.foldl_nil]
    exact s.store_declareVariable name typeName initializer
  | share cell => rfl
  | link name shared =>
    simp only [take, Step.uses, Store.afterAll, List.foldl_cons, List.foldl_nil]
    exact s.store_linkVariable name shared
  | bind declaration interfaceId => exact s.store_addBinding declaration interfaceId
  | load interface =>
    have declared (declarations : List VariableDeclaration) (t : Setup) :
        (declarations.foldl addVariable t).store = t.store.afterAll
          (declarations.map fun declaration => .call
            (.declare declaration.name declaration.typeName declaration.initializer)) := by
      induction declarations generalizing t with
      | nil => rfl
      | cons declaration rest ih =>
        have first : (t.addVariable declaration).store = t.store.after (.call
            (.declare declaration.name declaration.typeName declaration.initializer)) := by
          unfold addVariable
          exact t.store_declareVariable _ _ _
        rw [List.foldl_cons, ih, first]
        rfl
    have bound := store_addBindings
      (interface.declarations.foldl addVariable (s.mention interface.id)) interface.id
      interface.bindings
    refine bound.trans ?_
    rw [declared, store_mention]
    rfl
  | subscribe listener => rfl
  | useKeys keys => rfl
  | useSink sink => rfl

/-- Steps do nothing with the variables besides their uses. -/
theorem store_configure (steps : List Step) :
    (s.configure steps).setup.store = s.store.afterAll (steps.flatMap Step.uses) := by
  induction steps generalizing s with
  | nil => rfl
  | cons step steps ih =>
    have folded : ∀ (store : Store) (front back : List Use),
        store.afterAll (front ++ back) = (store.afterAll front).afterAll back :=
      fun store front back => List.foldl_append
    rw [List.flatMap_cons, folded, ← store_take]
    exact ih _

/-- Steps never move the shared cell of the transpose. -/
theorem transpose_configure (steps : List Step) :
    (s.configure steps).setup.transpose = s.transpose := by
  refine (changes_configure s steps).keeps (P := fun _ t => t.transpose = s.transpose) ?_ rfl
  intro n m t u same change
  rw [← same]
  cases change with
  | mentioned interfaceId =>
    unfold mention
    split <;> rfl
  | said | subscribed | renamed | shared | declared | linked | installed => rfl

end Setup

/-! ## The variable of the transpose -/

/-- A use that writes nothing and links no variable of the name. -/
def Use.Spares (name : String) : Use → Prop
  | .call made => made.links = true → Text.trim made.name ≠ name
  | .share _ => True
  | .set _ _ | .publish _ _ => False

/-- The first variable is the transpose, on the first shared cell. -/
structure Store.Transposes (store : Store) : Prop where
  /-- The names are as they should be. -/
  named : store.Named
  /-- The variable is linked to the cell. -/
  variable_eq : store.get? ⟨0⟩ = some ⟨transposeName, .linked ⟨0⟩⟩
  /-- The cell holds zero, an int. -/
  cell_eq : store.cell? ⟨0⟩ = some ⟨.int, .int 0⟩

/-- A call changes no shared cell. -/
theorem Store.shared_of_outcome {store : Store} {call : Call} {declared : Store.Declared}
    (h : call.outcome store = .ok declared) : declared.store.shared = store.shared := by
  rcases Store.outcome_eq_ok h with ⟨storage, -, -, rfl, -⟩ | ⟨handle, shared, -, -, rfl⟩ <;> rfl

/-- The transpose stays where it is when its name is not linked. -/
theorem Store.Transposes.after {store : Store} (h : store.Transposes) {use : Use}
    (spares : use.Spares transposeName) : (store.after use).Transposes where
  named := h.named.after use
  variable_eq := by
    obtain ⟨storage, hget, kept⟩ := Store.get?_after h.variable_eq use
    rcases kept ⟨0⟩ rfl with rfl | ⟨call, other, rfl, links, found, -⟩
    · exact hget
    · rw [h.named.lookup_eq_some_iff, h.variable_eq] at found
      exact absurd (Option.some.inj found).symm (spares links)
  cell_eq := by
    have cell := h.cell_eq
    cases use with
    | call call =>
      unfold Store.after
      dsimp only
      cases houtcome : call.outcome store with
      | error fault => exact cell
      | ok declared =>
        unfold Store.cell? at cell ⊢
        rw [Store.shared_of_outcome houtcome]
        exact cell
    | share other =>
      unfold Store.cell? at cell
      have inside := (List.getElem?_eq_some_iff.mp cell).1
      unfold Store.after Store.share Store.cell?
      rw [List.getElem?_append_left inside]
      exact cell
    | set handle value => exact spares.elim
    | publish shared value => exact spares.elim

/-- The transpose stays where it is when its name is never linked. -/
theorem Store.Transposes.afterAll {store : Store} (h : store.Transposes) {uses : List Use}
    (spares : ∀ use ∈ uses, use.Spares transposeName) : (store.afterAll uses).Transposes := by
  induction uses generalizing store with
  | nil => exact h
  | cons use uses ih =>
    exact ih (h.after (spares use List.mem_cons_self)) fun other member =>
      spares other (List.mem_cons_of_mem _ member)

/-- The variables of a setup whose steps do not link the name of the transpose. -/
theorem Setup.transposes_configure (settings : Settings) (keys : KeyNames) (sink : Sink)
    {steps : List Setup.Step}
    (unlinked : ∀ name shared, .link name shared ∈ steps → Text.trim name ≠ transposeName) :
    ((ofSettings settings keys sink).configure steps).setup.store.Transposes := by
  rw [store_configure]
  have named : (ofSettings settings keys sink).store.Named :=
    Store.Named.empty.afterAll
      [.share (.ofValue (.int 0)), .call (.declareLinked transposeName ⟨0⟩)]
  have start : (ofSettings settings keys sink).store.Transposes := ⟨named, rfl, rfl⟩
  refine start.afterAll fun use member => ?_
  obtain ⟨step, hstep, huse⟩ := List.mem_flatMap.mp member
  cases step with
  | declare name typeName initializer =>
    cases List.mem_singleton.mp huse
    exact nofun
  | share cell =>
    cases List.mem_singleton.mp huse
    trivial
  | link name shared =>
    cases List.mem_singleton.mp huse
    exact fun _ => unlinked name shared hstep
  | load interface =>
    obtain ⟨declaration, -, rfl⟩ := List.mem_map.mp huse
    exact nofun
  | bind | subscribe | useKeys | useSink => cases huse

/-! ## The sum of the adjustments -/

namespace Router

variable {router : Router} {m n : Moment}

/-- The sum of what those of the events that adjust the transpose adjust it by. -/
def adjusted (router : Router) (handled : List Event) : Int :=
  ((handled.filter fun event => event.type = .adjustMidiTranspose).map fun event =>
    (router.wholeIn event "adjust").toInt).sum

theorem adjusted_append (router : Router) (first second : List Event) :
    router.adjusted (first ++ second) = router.adjusted first + router.adjusted second := by
  unfold adjusted
  rw [List.filter_append, List.map_append, List.sum_append]

/-- An int in a shared cell, after a long number was written to the cell. -/
theorem cell?_publish_long {store : Store} {shared : SharedCell} {t : Int32}
    (h : store.cell? shared = some ⟨.int, .int t⟩) (n : Int64) :
    (store.publish shared (.long n)).cell? shared = some ⟨.int, .int n.toInt32⟩ := by
  let cell : Cell := ⟨.int, .int t⟩
  have accepted : (cell.accepts (.long n)).isValid = true := rfl
  have content : (cell.write (.long n)).content = .int n.toInt32 :=
    Store.content_write_of_isDeclarable rfl accepted
  have written : cell.write (.long n) = ⟨.int, .int n.toInt32⟩ :=
    congrArg (Cell.mk .int) content
  unfold Store.cell? at h ⊢
  unfold Store.publish
  rw [List.getElem?_modify_eq, h]
  exact congrArg some written

/-- An int and a number of 64 bits, added and wrapped to 32 bits. -/
theorem toInt32_toInt64_add (t : Int32) (n : Int64) :
    (t.toInt64 + n).toInt32 = Int32.ofInt (t.toInt + n.toInt) := by
  rw [Int64.toInt32_add, Int32.toInt32_toInt64, Int32.ofInt_add, Int32.ofInt_toInt]
  rfl

/-- Adding and wrapping again is wrapping the whole sum. -/
theorem ofInt_toInt_ofInt_add (sum more : Int) :
    Int32.ofInt ((Int32.ofInt sum).toInt + more) = Int32.ofInt (sum + more) := by
  rw [Int32.ofInt_add, Int32.ofInt_toInt, ← Int32.ofInt_add]

/-- Handling an event that adjusts the transpose adds to it. -/
theorem cell?_act {s : State} {event : Event} {t : Int32}
    (adjusts : event.type = .adjustMidiTranspose)
    (h : s.store.cell? router.transpose = some ⟨.int, .int t⟩) :
    (router.act s event).state.store.cell? router.transpose =
      some ⟨.int, .int (.ofInt (t.toInt + (router.wholeIn event "adjust").toInt))⟩ := by
  have announced : (router.announce s event).store.cell? router.transpose =
      some ⟨.int, .int t⟩ := by
    rw [router.store_announce]
    exact h
  have control : event.type.isControl = true := by
    rw [adjusts]
    rfl
  have whole : event.type ≠ .splitVariableMsbLsb := by
    rw [adjusts]
    decide
  have steps : router.carryOut event = router.adjustTranspose event := by
    unfold carryOut
    rw [adjusts]
  have current : ((router.announce s event).store.sharedValue router.transpose).toWhole =
      t.toInt64 := by
    unfold Store.sharedValue
    rw [announced]
    rfl
  unfold act
  dsimp only
  rw [if_pos control, carry, if_neg whole, control_eq_settle, steps, settle,
    run_adjustTranspose, current]
  exact (cell?_publish_long announced _).trans (by rw [toInt32_toInt64_add])

/-- A step adds to the transpose what the event that it handles adjusts it by. -/
theorem cell?_of_next? {t : Int32} (h : router.next? m = some n)
    (cell : m.state.store.cell? router.transpose = some ⟨.int, .int t⟩) :
    n.state.store.cell? router.transpose =
      some ⟨.int, .int (.ofInt (t.toInt + router.adjusted m.handled))⟩ := by
  by_cases adjusts : ∃ event rest, m.agenda = .handle event :: rest ∧
      event.type = .adjustMidiTranspose
  · obtain ⟨event, rest, hagenda, htype⟩ := adjusts
    obtain ⟨task, others, after, hsame, hafter, rfl⟩ := next?_eq_some.mp h
    cases hagenda.symm.trans hsame
    cases hafter
    have single : router.adjusted m.handled = (router.wholeIn event "adjust").toInt := by
      unfold Moment.handled adjusted
      rw [hagenda]
      simp [htype]
    rw [single]
    exact cell?_act htype cell
  · have same : n.state.store.cell? router.transpose =
        m.state.store.cell? router.transpose := by
      by_contra moved
      exact adjusts (adjusts_of_next? h moved)
    have none : router.adjusted m.handled = 0 := by
      unfold Moment.handled adjusted
      split
      · next event rest hagenda =>
        have other : event.type ≠ .adjustMidiTranspose := fun htype =>
          adjusts ⟨event, rest, hagenda, htype⟩
        simp [other]
      · rfl
    rw [same, cell, none, Int.add_zero, Int32.ofInt_toInt]

/-- A run adds to the transpose what the events that it handles adjust it by. -/
theorem Handles.cell?_eq {handled : List Event} {t : Int32}
    (h : router.Handles m handled n)
    (cell : m.state.store.cell? router.transpose = some ⟨.int, .int t⟩) :
    n.state.store.cell? router.transpose =
      some ⟨.int, .int (.ofInt (t.toInt + router.adjusted handled))⟩ := by
  induction h with
  | refl =>
    unfold adjusted
    simpa using cell
  | tail run step ih =>
    rw [cell?_of_next? step ih, ofInt_toInt_ofInt_add, adjusted_append, Int.add_assoc]

/-! ## Adjustments by ints -/

/-- If the event adjusts the transpose then by an int, or by nothing. -/
def AdjustsByInt (router : Router) (event : Event) : Prop :=
  event.type = .adjustMidiTranspose →
    (router.catalog.read event "adjust").kind = .int ∨
      router.catalog.read event "adjust" = .invalid

/-- No 64 bits are needed to add an int to an int. -/
theorem toInt_add_of_adjustsByInt {event : Event} (h : router.AdjustsByInt event)
    (adjusts : event.type = .adjustMidiTranspose) (t : Int32) :
    (t.toInt64 + router.wholeIn event "adjust").toInt =
      t.toInt + (router.wholeIn event "adjust").toInt := by
  have bound : -2 ^ 31 ≤ (router.wholeIn event "adjust").toInt ∧
      (router.wholeIn event "adjust").toInt < 2 ^ 31 := by
    unfold wholeIn
    rcases h adjusts with int | invalid
    · cases hread : router.catalog.read event "adjust" with
      | int n =>
        show -2 ^ 31 ≤ n.toInt64.toInt ∧ n.toInt64.toInt < 2 ^ 31
        rw [Int32.toInt_toInt64]
        exact ⟨n.le_toInt, n.toInt_lt⟩
      | _ => rw [hread] at int; cases int
    · rw [invalid]
      decide
  have least := t.le_toInt
  have greatest := t.toInt_lt
  rw [Int64.toInt_add, Int32.toInt_toInt64]
  exact Int.bmod_eq_of_le (by omega) (by omega)

end Router

/-- Bindings over the stock catalog adjust the transpose by ints. -/
theorem Setup.Typed.spreads_adjustsByInt {s : Setup} (typed : s.Typed) :
    s.build.router.Spreads s.build.router.AdjustsByInt where
  marked _ h := h
  fired := by
    intro binding hbinding input store adjusts
    obtain ⟨keyBuckets, standard⟩ := typed.standard
    have output := (typed.bindings binding hbinding).synthesize input store
    rw [standard, Catalog.schema_standard] at output
    generalize binding.synthesize input store = event at output adjusts ⊢
    have type : binding.prototype.type = .adjustMidiTranspose := by
      rw [← Catalog.type_stock keyBuckets binding.prototype.type, ← output.type_eq, adjusts]
    rw [type] at output
    let field : Field := ⟨"adjust", 0, .int, none, false⟩
    have found : (Catalog.stock keyBuckets .adjustMidiTranspose).find? "adjust" =
        some field := rfl
    have read : s.build.router.catalog.read event "adjust" = event.field 0 := by
      show ((s.catalog.schema event.type).read? event "adjust").getD .invalid = _
      rw [standard, Catalog.schema_standard, adjusts]
      unfold Schema.read?
      rw [found]
      rfl
    rw [read]
    rcases (output.admits 0 field rfl).kind_eq with int | invalid | any
    · exact .inl int
    · exact .inr invalid
    · cases any

/-- A run keeps the names of the variables. -/
theorem Router.Passes.names_eq {router : Router} {m n : Moment} (h : router.Passes m n) :
    n.state.store.names = m.state.store.names := by
  refine List.ext_getElem? fun index => ?_
  have named (store : Store) :
      store.names[index]? = (store.outline? ⟨index⟩).map Outline.name := by
    rw [Store.outline?, Option.map_map]
    exact store.getElem?_names ⟨index⟩
  rw [named, named, h.framed.outline]

/-- A variable that is linked to a shared cell stays linked to it. -/
theorem Router.Passes.get?_linked {router : Router} {m n : Moment} (h : router.Passes m n)
    {handle : Handle} {name : String} {shared : SharedCell}
    (linked : m.state.store.get? handle = some ⟨name, .linked shared⟩) :
    n.state.store.get? handle = some ⟨name, .linked shared⟩ := by
  have outline := h.framed.outline handle
  unfold Store.outline? at outline
  rw [linked] at outline
  obtain ⟨v, hget, same⟩ := Option.map_eq_some_iff.mp outline
  obtain ⟨other, storage⟩ := v
  rw [hget]
  cases storage with
  | owned cell => cases congrArg Outline.link? same
  | linked held =>
    cases congrArg Outline.link? same
    cases congrArg Outline.name same
    rfl

/-! ## Variable and dispatcher -/

/-- The name of the transpose leads to the first variable. -/
theorem Store.Transposes.lookup_eq {store : Store} (h : store.Transposes) {name : String}
    (same : Text.trim name = transposeName) : store.lookup name = some ⟨0⟩ := by
  rw [h.named.lookup_eq_some_iff, h.variable_eq, same]
  rfl

/-- In a run from variables with a transpose, its variable stays linked to the cell, and
the cell holds the sum of the adjustments that were handled, wrapped to an int. -/
theorem Router.Handles.transposes {router : Router} {s : State} {agenda : List Task}
    {handled : List Event} {m : Moment} (run : router.Handles ⟨s, agenda⟩ handled m)
    (shared : router.transpose = ⟨0⟩) (start : s.store.Transposes) :
    m.state.store.sharedValue router.transpose = .int (.ofInt (router.adjusted handled)) ∧
      m.state.store.get? ⟨0⟩ = some ⟨transposeName, .linked router.transpose⟩ := by
  have cell := run.cell?_eq (shared ▸ start.cell_eq)
  rw [show (0 : Int32).toInt = 0 from rfl, Int.zero_add] at cell
  refine ⟨?_, run.passes.get?_linked ?_⟩
  · rw [Store.sharedValue, cell]
    rfl
  · rw [shared]
    exact start.variable_eq

/-- A declaration of a name that is taken is rejected and changes no variable. -/
theorem Setup.declareVariable_of_taken {s : Setup} {name : String} {handle : Handle}
    (taken : s.store.lookup name = some handle) (typeName : String)
    (initializer : Option String) :
    (s.declareVariable name typeName initializer).answer = none ∧
      (s.declareVariable name typeName initializer).setup.store = s.store := by
  unfold declareVariable
  cases h : s.store.declare name typeName initializer with
  | error fault => exact ⟨rfl, rfl⟩
  | ok declared =>
    obtain ⟨kind, initial, hvalue⟩ := Store.exists_declareValue_of_declare h
    obtain ⟨-, -, fresh, -⟩ := Store.declareValue_eq_ok.mp hvalue
    cases taken.symm.trans fresh

/-- The variable of the transpose and the dispatcher agree, however an engine was
configured. At every moment of a run the variable holds the transpose of the dispatcher,
the wrapped sum of the adjustments that were handled so far, and only a step that handles
one changes it. If all of them adjust by ints, nothing overflows 64 bits on the way. -/
theorem Setup.transpose_agrees (settings : Settings) (keys : KeyNames) (sink : Sink)
    (steps : List Setup.Step)
    (unlinked : ∀ name shared, .link name shared ∈ steps → Text.trim name ≠ transposeName) :
    let setup := ((Setup.ofSettings settings keys sink).configure steps).setup
    let engine := setup.build
    (∀ name typeName initializer, Text.trim name = transposeName →
      (setup.declareVariable name typeName initializer).answer = none ∧
        (setup.declareVariable name typeName initializer).setup.store = setup.store) ∧
    (∀ (s : State) (agenda : List Task) (handled : List Event) (m : Moment),
      s.store = engine.state.store → engine.router.Handles ⟨s, agenda⟩ handled m →
      m.state.store.lookup transposeName = some ⟨0⟩ ∧
      m.state.store.value ⟨0⟩ = .int (engine.router.semitones m.state) ∧
      engine.router.semitones m.state = .ofInt (engine.router.adjusted handled) ∧
      ∀ n, engine.router.next? m = some n →
        n.state.store.value ⟨0⟩ ≠ m.state.store.value ⟨0⟩ →
        ∃ event rest, m.agenda = .handle event :: rest ∧
          event.type = .adjustMidiTranspose) ∧
    ∀ events : List Event,
      (∃ handled, engine.router.Handles ⟨engine.state, events.map .deliver⟩ handled
        ⟨(engine.sendAll events).state, []⟩) ∧
      ((∀ event ∈ events, engine.router.AdjustsByInt event) →
        (∀ emit, some emit ∈ engine.state.emits → engine.router.AdjustsByInt emit) →
        ∀ m event rest, engine.router.Passes ⟨engine.state, events.map .deliver⟩ m →
          m.agenda = .handle event :: rest → event.type = .adjustMidiTranspose →
          let current := (m.state.store.sharedValue engine.router.transpose).toWhole
          let adjust := engine.router.wholeIn event "adjust"
          (current + adjust).toInt = current.toInt + adjust.toInt) := by
  intro setup engine
  have transposes : setup.store.Transposes :=
    Setup.transposes_configure settings keys sink unlinked
  have shared : engine.router.transpose = ⟨0⟩ := Setup.transpose_configure _ steps
  have trimmed : Text.trim transposeName = transposeName := by decide +kernel
  have reached {s : State} {agenda : List Task} {handled : List Event} {m : Moment}
      (same : s.store = engine.state.store)
      (run : engine.router.Handles ⟨s, agenda⟩ handled m) :=
    run.transposes shared (same ▸ transposes)
  refine ⟨fun name typeName initializer same =>
      setup.declareVariable_of_taken (transposes.lookup_eq same) typeName initializer,
    fun s agenda handled m same run => ⟨?_, ?_, ?_, fun n step moved => ?_⟩,
    fun events => ⟨(engine.router.finishes_broadcasts _ _).exists_handles,
      fun sent answers m event rest passes hagenda adjusts => ?_⟩⟩
  · rw [Store.lookup_eq, run.passes.names_eq, ← Store.lookup_eq, same]
    exact transposes.lookup_eq trimmed
  · obtain ⟨holds, linked⟩ := reached same run
    rw [Store.value, linked, Router.semitones, holds]
    show m.state.store.sharedValue engine.router.transpose = .int _
    rw [holds]
    exact congrArg Value.int (Int32.toInt32_toInt64 _).symm
  · rw [Router.semitones, (reached same run).1]
    exact Int32.toInt32_toInt64 _
  · refine Router.adjusts_of_next? step fun unmoved => moved ?_
    have before := (reached same run).2
    have after := (reached same (run.tail step)).2
    rw [Store.value, Store.value, before, after]
    show n.state.store.sharedValue _ = m.state.store.sharedValue _
    rw [Store.sharedValue, Store.sharedValue, unmoved]
  · obtain ⟨handled, run⟩ := passes.exists_handles
    have typed := Setup.typed_configure settings keys sink steps
    have carries := typed.spreads_adjustsByInt.passes passes answers fun task htask => by
      obtain ⟨event, hevent, rfl⟩ := List.mem_map.mp htask
      exact sent event hevent
    rw [hagenda] at carries
    have byInt : engine.router.AdjustsByInt event := carries _ List.mem_cons_self
    dsimp only
    rw [(reached rfl run).1]
    show ((Int32.ofInt _).toInt64 + _).toInt = (Int32.ofInt _).toInt64.toInt + _
    rw [Router.toInt_add_of_adjustsByInt byInt adjusts, Int32.toInt_toInt64]

/-- A key that adjusts the transpose by the largest int, and a variable of its name that
is declared in vain. -/
def Setup.raisingSteps : List Setup.Step :=
  [.declare " SYSTEM_midi_transpose" "float" none,
    .bind ⟨[("input", "key"), ("output", "adjust-midi-transpose"),
      ("parameters", "adjust=2147483647")]⟩ 7]

/-- An adjustment by three and then the key: the sum wraps. -/
theorem Setup.transpose_agrees_raisingSteps :
    let engine := ((Setup.ofSettings { keyBuckets := 4 } (.exact []) .collecting).configure
      raisingSteps).setup.build
    let adjust : Event := ⟨.adjustMidiTranspose, [.int 3], false⟩
    let press : Event := ⟨.key, [.int 7, .int 1, .int 97, .int 97], false⟩
    let after := (engine.sendAll [adjust, press]).state
    after.store.value ⟨0⟩ = .int (engine.router.semitones after) ∧
      engine.router.semitones after = -2147483646 := by
  intro engine adjust press after
  obtain ⟨-, moments, runs⟩ := Setup.transpose_agrees { keyBuckets := 4 } (.exact [])
    .collecting raisingSteps fun name shared member => by simp [raisingSteps] at member
  obtain ⟨⟨handled, run⟩, -⟩ := runs [adjust, press]
  exact ⟨(moments _ _ _ _ rfl run).2.1, by decide +kernel⟩

end CueRouter
