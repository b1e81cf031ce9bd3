import CueRouter.Engine.Setup
import CueRouter.Proofs.Dispatch.Balance
import CueRouter.Proofs.Variable.Outline

/-!
# What a run may change

Variables change only where a control event is carried out. Whatever is written, every
variable keeps its outline, the variables with cells of their own keep values of their
kinds, and the cells that other subsystems share keep their values, but for that of the
transpose, which moves only where an event says so.
-/

namespace CueRouter

namespace Router

open State Handling

/-! ## Steps that write -/

/-- What performing a task does to the variables. -/
inductive Effect (router : Router) (s : State) (task : Task) (m : Moment) : Prop
  /-- The variables stay as they are. -/
  | idle (h : m.state.store = s.store)
  /-- A control event is carried out. -/
  | carried {t : State} {event : Event} (h : task = .handle event)
      (control : event.type.isControl = true) (before : t.store = s.store)
      (same : m = router.carry t event)
  /-- The second half of a split is written. -/
  | halved {event : Event} {n : Int64} (h : task = .splitLow event n)
      (same : m.state = settle (router.splitLow event n) s)

section Steps

variable {router : Router} {s : State} {task : Task} {m : Moment}

/-- Borrowing an event leaves the variables alone. -/
theorem store_lend? {fill : Event → Event} (h : lend? s fill = some m) :
    m.state.store = s.store := by
  unfold lend? at h
  obtain ⟨loan, -, rfl⟩ := Option.map_eq_some_iff.mp h
  rfl

/-- Borrowing an event, or else dropping the output, leaves the variables alone. -/
theorem store_lend?_getD {t u : State} (fill : Event → Event) (lent : t.store = s.store)
    (instead : u.store = s.store) :
    ((lend? t fill).getD ⟨u, []⟩).state.store = s.store := by
  cases h : lend? t fill with
  | none => exact instead
  | some m => exact (store_lend? h).trans lent

/-- Describing an event leaves the variables alone. -/
theorem store_announce (router : Router) (s : State) (event : Event) :
    (router.announce s event).store = s.store := by
  unfold announce
  split <;> rfl

/-- Every task that is performed has one of these effects. -/
theorem effect_of_perform (h : router.perform s task = some m) :
    Effect router s task m := by
  cases task with
  | deliver event => cases h; exact .idle rfl
  | route event =>
    cases h
    refine .idle ?_
    unfold enter
    split
    · rfl
    · split <;> rfl
  | handle event =>
    cases h
    have announced := router.store_announce s event
    unfold act
    dsimp only
    split
    · next control => exact .carried rfl control announced rfl
    · refine .idle ?_
      split
      · exact announced
      · unfold consult
        split <;> exact announced
  | splitLow event n => cases h; exact .halved rfl rfl
  | fire input binding => cases h; exact .idle (store_lend?_getD _ rfl rfl)
  | echo input => cases h; exact .idle (store_lend?_getD _ rfl rfl)
  | leave => cases h; exact .idle rfl
  | hearAll event => cases h; exact .idle rfl
  | hear event index =>
    cases h
    refine .idle ?_
    unfold turn
    split
    · rfl
    · rfl
    · split
      · rfl
      · exact store_lend?_getD _ rfl rfl
  | giveBack event => cases h; exact .idle rfl
  | announce interfaceId =>
    refine .idle ?_
    change router.proclaim s interfaceId = some m at h
    unfold proclaim at h
    split at h
    · cases h
      rfl
    · exact store_lend? h

/-- A relation between variables that steps keep holds where they are settled. -/
theorem rel_store_settle {Q : Store → Store → Prop}
    (kept : WriteKept fun s t => Q s.store t.store) {steps : Handling Unit}
    (keeps : steps.Keeps fun s t => Q s.store t.store) (s : State) :
    Q s.store (settle steps s).store :=
  rel_settle (R := fun s t => Q s.store t.store) (F := fun _ => True) s kept.trans keeps
    (fun _ _ _ _ => trivial) fun s _ _ => kept.refl s

/-- A relation between variables that the steps of a control event keep holds where it
is carried out. -/
theorem rel_carry {Q : Store → Store → Prop} {event : Event} {t : State}
    (kept : WriteKept fun s t => Q s.store t.store)
    (all : (router.carryOut event).Keeps fun s t => Q s.store t.store) :
    Q t.store (router.carry t event).state.store := by
  unfold carry
  split
  · have high : Q t.store ((router.splitHigh event).final t).store :=
      kept.keeps_splitHigh event t
    unfold Handling.final at high
    split <;> next heq => rw [heq] at high; exact high
  · rw [control_eq_settle]
    exact rel_store_settle kept all t

/-- A relation between variables that writes keep is kept by every step that does not
handle an event whose steps do not keep it. -/
theorem rel_of_perform {Q : Store → Store → Prop}
    (kept : WriteKept fun s t => Q s.store t.store)
    (all : ∀ event, task = .handle event →
      (router.carryOut event).Keeps fun s t => Q s.store t.store)
    (h : router.perform s task = some m) : Q s.store m.state.store := by
  cases effect_of_perform h with
  | idle same =>
    rw [same]
    exact kept.refl s
  | @carried t event hhandle _ before same =>
    rw [same, ← before]
    exact rel_carry kept (all event hhandle)
  | @halved event n _ same =>
    rw [same]
    exact rel_store_settle kept (kept.keeps_splitLow event n) s

end Steps

/-! ## Frames -/

/-- What no run changes about the variables of a store. -/
structure Framed (router : Router) (s t : Store) : Prop where
  /-- Every variable keeps its outline. -/
  outline : ∀ handle, t.outline? handle = s.outline? handle
  /-- Variables with cells of their own keep values of their kinds. -/
  sound : s.Sound → t.Sound
  /-- The cells that other subsystems share keep their values. -/
  cell : ∀ shared, shared ≠ router.transpose → t.cell? shared = s.cell? shared

/-- Control events stay within the frame. -/
theorem controlKept_framed (router : Router) :
    ControlKept router fun s t => router.Framed s.store t.store where
  refl _ := ⟨fun _ => rfl, id, fun _ _ => rfl⟩
  trans _ _ _ h k :=
    { outline := fun handle => (k.outline handle).trans (h.outline handle)
      sound := fun sound => k.sound (h.sound sound)
      cell := fun shared other => (k.cell shared other).trans (h.cell shared other) }
  write s handle value written h :=
    { outline := Store.outline?_of_set h
      sound := fun sound => sound.set h
      cell := fun shared _ => by
        unfold Store.cell?
        rw [Store.shared_of_set h] }
  publish s value :=
    { outline := s.store.outline?_publish router.transpose value
      sound := id
      cell := fun shared other =>
        s.store.cell?_publish_of_ne router.transpose value other }
  debug _ _ := ⟨fun _ => rfl, id, fun _ _ => rfl⟩
  note _ _ _ _ := ⟨fun _ => rfl, id, fun _ _ => rfl⟩

/-- Writes of events change no shared cell. -/
theorem writeKept_shared : WriteKept fun s t => t.store.shared = s.store.shared where
  refl _ := rfl
  trans _ _ _ h k := k.trans h
  write _ _ _ _ h := Store.shared_of_set h
  debug _ _ := rfl
  note _ _ _ _ := rfl

variable {router : Router} {m n : Moment}

/-- A run stays within the frame. -/
theorem Passes.framed (h : router.Passes m n) : router.Framed m.state.store n.state.store := by
  have kept := controlKept_framed router
  refine h.keeps (P := fun n => router.Framed m.state.store n.state.store) ?_ (kept.refl _)
  intro first second hstep framed
  obtain ⟨task, rest, after, -, hafter, rfl⟩ := next?_eq_some.mp hstep
  exact kept.trans m.state first.state after.state framed <|
    rel_of_perform kept.toWriteKept (fun event _ => kept.keeps_carryOut event) hafter

/-- The transpose moves only where an event says so. -/
theorem adjusts_of_next? (h : router.next? m = some n)
    (moved : n.state.store.cell? router.transpose ≠ m.state.store.cell? router.transpose) :
    ∃ event rest, m.agenda = .handle event :: rest ∧ event.type = .adjustMidiTranspose := by
  obtain ⟨task, rest, after, hagenda, hafter, rfl⟩ := next?_eq_some.mp h
  by_cases adjusts : ∃ event, task = .handle event ∧ event.type = .adjustMidiTranspose
  · obtain ⟨event, rfl, htype⟩ := adjusts
    exact ⟨event, rest, hagenda, htype⟩
  · have same : after.state.store.shared = m.state.store.shared :=
      rel_of_perform (Q := fun s t => t.shared = s.shared) writeKept_shared
        (fun event hhandle => writeKept_shared.keeps_carryOut event
          fun htype => adjusts ⟨event, hhandle, htype⟩) hafter
    exact absurd (congrArg (·[router.transpose.index]?) same) moved

end Router

/-! ## Runs without control events -/

/-- The task leads to no control event, unless the table does. -/
def Task.Free : Task → Prop
  | .deliver event | .route event | .handle event | .echo event =>
    event.type.isControl = false
  | .fire _ binding => binding.prototype.type.isControl = false
  | .splitLow _ _ | .announce _ => False
  | .leave | .hearAll _ | .hear _ _ | .giveBack _ => True

namespace Router

open State Handling

/-- Borrowing an event for an output without control, or else dropping the output, is
free. -/
theorem free_lend?_getD {t u : State} {fill : Event → Event} {event : Event}
    (overwrites : Event.Overwrites fill event) (free : event.type.isControl = false) :
    ∀ next ∈ ((lend? t fill).getD ⟨u, []⟩).agenda, Task.Free next := by
  intro next hnext
  rcases mem_agenda_lend?_getD overwrites hnext with rfl | rfl
  · exact free
  · trivial

/-- Echoing an input without control is free. -/
theorem free_of_mem_fallback {input : Event} (free : input.type.isControl = false)
    {next : Task} (h : next ∈ fallback input) : Task.Free next := by
  unfold fallback at h
  split at h
  · cases h
  · rw [List.mem_singleton.mp h]
    exact free

/-- The outputs of a chain without control are free. -/
theorem free_of_mem_outputs {input : Event} (free : input.type.isControl = false)
    {chain : Chain}
    (plain : ∀ binding ∈ chain.toList, binding.prototype.type.isControl = false)
    {next : Task} (h : next ∈ outputs input chain) : Task.Free next := by
  rcases List.mem_append.mp h with output | echoed
  · obtain ⟨binding, hbinding, rfl⟩ := List.mem_map.mp output
    exact plain binding hbinding
  · split at echoed
    · rw [List.mem_singleton.mp echoed]
      exact free
    · cases echoed

section Free

variable {router : Router}
  (plain : ∀ binding ∈ router.table.bindings, binding.prototype.type.isControl = false)

include plain

/-- Looking up an input without control leads to free tasks. -/
theorem free_consult {s : State} {input : Event} (free : input.type.isControl = false) :
    ∀ next ∈ (router.consult s input).agenda, Task.Free next := by
  intro next hnext
  unfold consult at hnext
  split at hnext
  · exact free_of_mem_fallback free hnext
  · exact free_of_mem_fallback free hnext
  · next chain hfind =>
    refine free_of_mem_outputs free (fun binding hbinding => ?_) hnext
    exact plain binding (Table.mem_bindings_of_find hfind binding hbinding)

/-- Free tasks lead to free tasks, as long as listeners only record. -/
theorem free_of_perform {s : State} {task : Task} {m : Moment} (recorders : s.OnlyRecords)
    (free : task.Free) (h : router.perform s task = some m) :
    ∀ next ∈ m.agenda, Task.Free next := by
  intro next hnext
  cases task with
  | deliver event =>
    cases h
    rcases List.mem_cons.mp hnext with rfl | hnext
    · exact free
    · rw [List.mem_singleton.mp hnext]
      trivial
  | route event =>
    cases h
    unfold enter at hnext
    split at hnext
    · cases hnext
    · split at hnext
      · cases hnext
      · rcases List.mem_cons.mp hnext with rfl | hnext
        · exact free
        · rw [List.mem_singleton.mp hnext]
          trivial
  | handle event =>
    cases h
    have input : event.type.isControl = false := free
    unfold act at hnext
    dsimp only at hnext
    rw [if_neg (by rw [input]; exact Bool.false_ne_true)] at hnext
    split at hnext
    · cases hnext
    · exact free_consult plain input next hnext
  | splitLow event n => exact free.elim
  | fire input binding =>
    cases h
    refine free_lend?_getD (binding.overwrites_synthesizeInto _ _) ?_ next hnext
    rw [Binding.type_synthesize]
    exact free
  | echo input =>
    cases h
    have marked : input.marked.type.isControl = false := free
    exact free_lend?_getD input.overwrites_copyFrom_marked marked next hnext
  | leave =>
    cases h
    cases hnext
  | hearAll event =>
    cases h
    obtain ⟨index, -, rfl⟩ := List.mem_map.mp hnext
    trivial
  | hear event index =>
    cases h
    unfold turn at hnext
    cases hl : s.listeners[index]? with
    | none =>
      rw [hl] at hnext
      cases hnext
    | some listener =>
      obtain ⟨heard, rfl⟩ := recorders _ (List.mem_of_getElem? hl)
      rw [hl] at hnext
      cases hnext
  | giveBack event =>
    cases h
    cases hnext
  | announce interfaceId => exact free.elim

/-- A run of free tasks changes no variable. -/
theorem Passes.store_eq {m n : Moment} (h : router.Passes m n)
    (recorders : m.state.OnlyRecords) (free : ∀ task ∈ m.agenda, Task.Free task) :
    n.state.store = m.state.store := by
  suffices kept : n.state.store = m.state.store ∧ n.state.OnlyRecords ∧
      ∀ task ∈ n.agenda, Task.Free task from kept.1
  refine h.keeps (P := fun n => n.state.store = m.state.store ∧ n.state.OnlyRecords ∧
    ∀ task ∈ n.agenda, Task.Free task) ?_ ⟨rfl, recorders, free⟩
  rintro first second hstep ⟨same, still, freed⟩
  have recording := onlyRecords_of_next? hstep still
  obtain ⟨task, rest, after, hagenda, hafter, rfl⟩ := next?_eq_some.mp hstep
  rw [hagenda] at freed
  have hfree := freed task List.mem_cons_self
  refine ⟨?_, recording, fun next hnext => ?_⟩
  · rw [← same]
    cases effect_of_perform hafter with
    | idle unchanged => exact unchanged
    | @carried _ event hhandle control _ _ =>
      subst hhandle
      have input : event.type.isControl = false := hfree
      rw [input] at control
      cases control
    | halved hhalf _ =>
      subst hhalf
      exact hfree.elim
  · rcases List.mem_append.mp hnext with new | old
    · exact free_of_perform plain still hfree hafter next new
    · exact freed next (List.mem_cons_of_mem _ old)

end Free

end Router

/-- The engine after events were sent one after another. -/
def Engine.sendAll (engine : Engine) (events : List Event) : Engine :=
  { engine with state := events.foldl engine.router.broadcast engine.state }

/-- What a run may change. At every moment of sending events, every variable has its
outline, one with a cell of its own a valid value of its kind, and every shared cell but
the transpose its value; that one changes only where an event that adjusts it is handled.
The bindings stay, and so do all variables where no event is a control event. -/
theorem Engine.sendAll_framed (engine : Engine) (events : List Event)
    (built : engine.state.store.Built) :
    (∀ m, engine.router.Passes ⟨engine.state, events.map .deliver⟩ m →
      (∀ handle, m.state.store.outline? handle = engine.state.store.outline? handle) ∧
      (∀ handle v, m.state.store.get? handle = some v → v.isSystem = false →
        (m.state.store.value handle).kind = m.state.store.kindOf v ∧
          (m.state.store.value handle).isValid = true) ∧
      (∀ shared, shared ≠ engine.router.transpose →
        m.state.store.cell? shared = engine.state.store.cell? shared) ∧
      (∀ n, engine.router.next? m = some n →
        n.state.store.cell? engine.router.transpose ≠
          m.state.store.cell? engine.router.transpose →
        ∃ event rest, m.agenda = .handle event :: rest ∧
          event.type = .adjustMidiTranspose) ∧
      ((∀ listener ∈ engine.state.listeners, ∃ heard, listener = .recorder heard) →
        (∀ event ∈ events, event.type.isControl = false) →
        (∀ binding ∈ engine.router.table.bindings,
          binding.prototype.type.isControl = false) →
        m.state.store = engine.state.store)) ∧
    engine.router.Finishes ⟨engine.state, events.map .deliver⟩
      (engine.sendAll events).state ∧
    (engine.sendAll events).router.table = engine.router.table := by
  refine ⟨fun m passes => ?_, engine.router.finishes_broadcasts _ _, rfl⟩
  have framed := passes.framed
  refine ⟨framed.outline, fun handle v hget howned => ?_, framed.cell, fun n hstep => ?_,
    fun recorders free plain => ?_⟩
  · obtain ⟨name, storage⟩ := v
    cases storage with
    | linked shared => cases howned
    | owned cell =>
      obtain ⟨declarable, hkind⟩ := framed.sound built.sound handle name cell hget
      rw [Store.value_of_owned hget]
      refine ⟨hkind, Value.isValid_iff.mpr fun invalid => ?_⟩
      rw [invalid] at hkind
      rw [← hkind] at declarable
      cases declarable
  · exact Router.adjusts_of_next? hstep
  · refine Router.Passes.store_eq plain passes recorders fun task htask => ?_
    obtain ⟨event, hevent, rfl⟩ := List.mem_map.mp htask
    exact free event hevent

/-- A store with the transpose and one variable more. -/
def levelStore : Store where
  entries := [⟨transposeName, .linked ⟨0⟩⟩, ⟨"LEVEL", .owned ⟨.int, .int 0⟩⟩]
  shared := [⟨.int, .int 0⟩]

/-- The store is what declaring its two variables yields. -/
theorem built_levelStore : levelStore.Built := by
  let offered := Store.empty.share (.ofValue (.int 0))
  let transposed : Store := { offered with entries := [⟨transposeName, .linked ⟨0⟩⟩] }
  have transpose : offered.declareLinked transposeName ⟨0⟩ = .ok ⟨⟨0⟩, transposed⟩ := rfl
  have level : transposed.declare "LEVEL" "int" none = .ok ⟨⟨1⟩, levelStore⟩ := rfl
  have built : offered.Built := .share .empty _
  exact (built.declareLinked transpose).declare level

/-- A variable that is set to a long number keeps its outline and holds an int, the
transpose moves by its own event, and a subroutine call changes neither. -/
theorem Engine.sendAll_framed_runawayRouter :
    let engine : Engine :=
      { router := Router.runawayRouter
        state :=
          { store := levelStore
            pool := .ofCapacity 3
            journal := {}
            listeners := [.recorder #[]]
            debug := false } }
    let set : Event := ⟨.setVariable, [.reference ⟨1⟩, .long 5, .int 0, .int 0], false⟩
    let adjust : Event := ⟨.adjustMidiTranspose, [.int 3], false⟩
    let call : Event := ⟨.goSub, [.int 1, .int 0, .int 0, .int 0], false⟩
    (engine.sendAll [set, adjust]).state.store.outline? ⟨1⟩ = some ⟨"LEVEL", .int, none⟩ ∧
    (engine.sendAll [set, adjust]).state.store.value ⟨1⟩ = .int 5 ∧
    (engine.sendAll [set, adjust]).state.store.value ⟨0⟩ = .int 3 ∧
    (engine.sendAll [call]).state.store = levelStore := by
  intro engine set adjust call
  obtain ⟨moments, finishes, -⟩ :=
    Engine.sendAll_framed engine [set, adjust] built_levelStore
  obtain ⟨outline, -⟩ := moments _ finishes
  obtain ⟨quiet, called, -⟩ := Engine.sendAll_framed engine [call] built_levelStore
  obtain ⟨-, -, -, -, unchanged⟩ := quiet _ called
  refine ⟨outline ⟨1⟩, by decide +kernel, by decide +kernel, ?_⟩
  exact unchanged (fun listener hl => ⟨#[], List.mem_singleton.mp hl⟩) (by decide)
    (by decide +kernel)

end CueRouter
