import CueRouter.Proofs.Binding.Answer
import CueRouter.Proofs.Dispatch.Course

/-!
# What a step changes

A step enters a dispatch or ends it, borrows an event or gives it back, drops an
output because no event is idle, or leaves pool and depth alone and goes on in its
place. What runs keep of pool, depth and agenda follows from this list of cases.
-/

namespace CueRouter

/-- What a task is to the loans and dispatches around it. -/
inductive Place where
  /-- It belongs to a broadcast, outside the dispatch of its event. -/
  | outside
  /-- It belongs to a dispatch. -/
  | inside
  /-- It ends a dispatch. -/
  | leaving
  /-- It gives an event back. -/
  | returning
  /-- It waits to start a broadcast. -/
  | starting
  deriving DecidableEq

/-- The place of a task. -/
def Task.place : Task → Place
  | deliver _ | route _ | hearAll _ | hear _ _ => .outside
  | handle _ | splitLow _ _ | fire _ _ | echo _ => .inside
  | leave => .leaving
  | giveBack _ => .returning
  | announce _ => .starting

namespace Moment

/-- The number of tasks of a place on an agenda. -/
def count (place : Place) (agenda : List Task) : Nat :=
  agenda.countP fun task => task.place == place

@[simp] theorem count_nil (place : Place) : count place [] = 0 := rfl

@[simp] theorem count_cons (place : Place) (task : Task) (rest : List Task) :
    count place (task :: rest) = count place rest + if task.place = place then 1 else 0 := by
  simp [count, List.countP_cons]

@[simp] theorem count_append (place : Place) (tasks rest : List Task) :
    count place (tasks ++ rest) = count place tasks + count place rest :=
  List.countP_append

/-- Tasks of another place do not count. -/
theorem count_eq_zero {place : Place} {tasks : List Task}
    (h : ∀ task ∈ tasks, task.place ≠ place) : count place tasks = 0 := by
  refine List.countP_eq_zero.mpr fun task htask => ?_
  rw [beq_iff_eq]
  exact h task htask

/-- Tasks in one place do not count for another. -/
theorem count_within {place other : Place} {tasks : List Task}
    (within : ∀ task ∈ tasks, task.place = place) (h : place ≠ other) :
    count other tasks = 0 :=
  count_eq_zero fun task htask => by rw [within task htask]; exact h

end Moment

namespace State

/-- Every listener only records what it hears. -/
def OnlyRecords (s : State) : Prop :=
  ∀ listener ∈ s.listeners, ∃ heard, listener = .recorder heard

/-- Pool and depth stay as they are, recorders stay recorders, and the journal grows
without a report that no event was idle. -/
structure Quiet (s t : State) : Prop where
  /-- The pool is the same. -/
  pool : t.pool = s.pool
  /-- The depth is the same. -/
  depth : t.depth = s.depth
  /-- The journal grows. -/
  journal : s.journal.Extends t.journal
  /-- Nothing was dropped for want of an idle event. -/
  spared : ∀ type, ¬s.journal.Reports t.journal (.dispatch (.poolExhausted type))
  /-- Listeners that only record go on recording. -/
  recorders : s.OnlyRecords → t.OnlyRecords

/-- What changes neither journal, pool, depth nor listeners is quiet. -/
theorem quiet_of_eq {s t : State} (journal : t.journal = s.journal)
    (pool : t.pool = s.pool) (depth : t.depth = s.depth)
    (listeners : t.listeners = s.listeners) : s.Quiet t where
  pool := pool
  depth := depth
  journal := by rw [journal]; exact .refl _
  spared _ := by rw [journal]; exact Journal.not_reports_self _ _
  recorders h := by unfold OnlyRecords; rw [listeners]; exact h

theorem Quiet.refl (s : State) : s.Quiet s := quiet_of_eq rfl rfl rfl rfl

theorem Quiet.trans {s t u : State} (h : s.Quiet t) (k : t.Quiet u) : s.Quiet u where
  pool := k.pool.trans h.pool
  depth := k.depth.trans h.depth
  journal := h.journal.trans k.journal
  spared type reported := by
    rcases reported.split h.journal k.journal with early | late
    · exact h.spared type early
    · exact k.spared type late
  recorders only := k.recorders (h.recorders only)

/-- A message that is no warning is quiet. -/
theorem quiet_note (s : State) {level : Level} (h : level ≠ .warn) (text : String) :
    s.Quiet (s.note level text) where
  pool := rfl
  depth := rfl
  journal := Journal.extends_note _ _ _
  spared _ := Journal.not_reports_note _ h _ _
  recorders only := only

/-- A report of another wording than that no event was idle is quiet. -/
theorem quiet_reported (s : State) {diagnostic : Diagnostic}
    (h : ∀ type, (Diagnostic.dispatch (.poolExhausted type)).message ≠ diagnostic.message) :
    s.Quiet { s with journal := s.journal.report diagnostic } where
  pool := rfl
  depth := rfl
  journal := Journal.extends_report _ _
  spared type reported := h type (Journal.message_of_reports_report reported)
  recorders only := only

/-- A report of a fault of another kind is quiet. -/
theorem quiet_report (s : State) {fault : DispatchFault} (h : fault.initial ≠ 'e') :
    s.Quiet (s.report fault) :=
  s.quiet_reported fun _ same => h (DispatchFault.initial_eq same).symm

/-- A report of a fault that is no overrun is quiet. -/
theorem quiet_report_of_not_isOverrun (s : State) {fault : DispatchFault}
    (h : fault.isOverrun = false) : s.Quiet (s.report fault) := by
  refine s.quiet_report ?_
  cases fault with
  | poolExhausted | recursionLimit => cases h
  | indexNotScalar | systemVariable | missingReference | invalidValue =>
    simp [DispatchFault.initial]

/-- Recorders stay recorders where one listener becomes a recorder. -/
theorem quiet_recorder (s : State) (index : Nat) (heard : Array Event) :
    s.Quiet { s with listeners := s.listeners.set index (.recorder heard) } where
  pool := rfl
  depth := rfl
  journal := .refl _
  spared _ := Journal.not_reports_self _ _
  recorders only listener h := by
    rcases List.mem_or_eq_of_mem_set h with before | rfl
    · exact only listener before
    · exact ⟨heard, rfl⟩

/-- A change of something that is no recorder is quiet where there is such a
thing. -/
theorem quiet_of_not_onlyRecords {s : State} (h : ¬s.OnlyRecords)
    (listeners : List Listener) : s.Quiet { s with listeners := listeners } where
  pool := rfl
  depth := rfl
  journal := .refl _
  spared _ := Journal.not_reports_self _ _
  recorders only := absurd only h

end State

namespace Router

open State

/-- The steps of control events are quiet. -/
theorem controlKept_quiet (router : Router) : ControlKept router Quiet where
  refl := Quiet.refl
  trans _ _ _ := Quiet.trans
  write _ _ _ _ _ := quiet_of_eq rfl rfl rfl rfl
  debug _ _ := quiet_of_eq rfl rfl rfl rfl
  note _ _ _ h := quiet_note _ h _
  publish _ _ := quiet_of_eq rfl rfl rfl rfl

/-- Steps that are quiet and never fail for lack of room are quiet where they are
settled. -/
theorem quiet_settle {steps : Handling Unit} (keeps : steps.Keeps Quiet)
    (fails : steps.FailsWith fun fault => fault.isOverrun = false) (s : State) :
    s.Quiet (settle steps s) :=
  rel_settle (R := Quiet) s (fun _ _ _ => Quiet.trans) keeps fails
    fun _ _ => quiet_report_of_not_isOverrun _

/-- What performing a task does to pool, depth and agenda. -/
inductive Change (router : Router) (s : State) (task : Task) : Moment → Prop
  /-- Pool and depth stay as they are, and what comes next is in the same place. -/
  | within {t : State} {tasks : List Task} (quiet : s.Quiet t)
      (plain : task.place ≠ .leaving ∧ task.place ≠ .returning)
      (follow : ∀ next ∈ tasks, next.place = task.place) : Change router s task ⟨t, tasks⟩
  /-- An output is dropped, as no event is idle. -/
  | dropped (inside : task.place = .inside) (dry : s.pool.available = 0)
      (type : EventType) : Change router s task ⟨s.report (.poolExhausted type), []⟩
  /-- A dispatch is entered below the limit. -/
  | entered {event : Event} (h : task = .route event) (below : s.depth < router.depthLimit) :
      Change router s task ⟨{ s with depth := s.depth + 1 }, [.handle event, .leave]⟩
  /-- The dispatch under way ends. -/
  | left (h : task = .leave) : Change router s task ⟨{ s with depth := s.depth - 1 }, []⟩
  /-- An event is borrowed. -/
  | borrowed {t : State} {loan : Pool.Loan} {event : Event} (quiet : s.Quiet t)
      (borrower : task.place = .inside ∨ task.place = .starting ∨
        task.place = .outside ∧ ¬s.OnlyRecords)
      (h : s.pool.acquire = some loan) :
      Change router s task ⟨{ t with pool := loan.pool }, [.deliver event, .giveBack event]⟩
  /-- An event is given back. -/
  | returned {event : Event} (h : task = .giveBack event) :
      Change router s task ⟨{ s with pool := s.pool.release event }, []⟩

section Changes

variable {router : Router} {s : State} {task : Task}

/-- Tasks in the place of the one performed are within it. -/
theorem change_nil {t : State} (quiet : s.Quiet t)
    (plain : task.place ≠ .leaving ∧ task.place ≠ .returning) :
    Change router s task ⟨t, []⟩ :=
  .within quiet plain fun _ h => absurd h List.not_mem_nil

/-- Inside a dispatch an event is borrowed, or else the output is dropped. -/
theorem change_lend?_getD {t : State} (quiet : s.Quiet t) (fill : Event → Event)
    (type : EventType) (inside : task.place = .inside) :
    Change router s task ((lend? t fill).getD ⟨s.report (.poolExhausted type), []⟩) := by
  unfold lend?
  rw [quiet.pool]
  cases hloan : s.pool.acquire with
  | none => exact .dropped inside (Pool.acquire_eq_none_iff.mp hloan) type
  | some loan => exact .borrowed quiet (.inl inside) hloan

/-- Carrying out a control event happens inside its dispatch. -/
theorem change_carry {t : State} (quiet : s.Quiet t) (event : Event)
    (inside : task.place = .inside) : Change router s task (router.carry t event) := by
  have plain : task.place ≠ .leaving ∧ task.place ≠ .returning := by
    rw [inside]
    decide
  unfold carry
  split
  · have high : t.Quiet ((router.splitHigh event).final t) :=
      (controlKept_quiet router).keeps_splitHigh event t
    unfold Handling.final at high
    cases hrun : (router.splitHigh event).run t with
    | ok n after =>
      rw [hrun] at high
      refine .within (quiet.trans high) plain fun next h => ?_
      rw [List.mem_singleton.mp h, inside]
      rfl
    | error fault after =>
      rw [hrun] at high
      have notOverrun := router.failsWith_splitHigh event _ _ _ hrun
      exact change_nil
        ((quiet.trans high).trans (quiet_report_of_not_isOverrun _ notOverrun)) plain
  · rw [control_eq_settle]
    have carried := quiet_settle ((controlKept_quiet router).keeps_carryOut event)
      (router.failsWith_carryOut event) t
    exact change_nil (quiet.trans carried) plain

/-- What answers an input is broadcast inside its dispatch. -/
theorem place_of_mem_outputs {input : Event} {chain : Chain} {next : Task}
    (h : next ∈ outputs input chain) : next.place = .inside := by
  rcases List.mem_append.mp h with output | echoed
  · obtain ⟨binding, -, rfl⟩ := List.mem_map.mp output
    rfl
  · split at echoed
    · rw [List.mem_singleton.mp echoed]
      rfl
    · cases echoed

/-- The echo of an input is broadcast inside its dispatch. -/
theorem place_of_mem_fallback {input : Event} {next : Task}
    (h : next ∈ fallback input) : next.place = .inside := by
  unfold fallback at h
  split at h
  · cases h
  · rw [List.mem_singleton.mp h]
    rfl

/-- Acting on an event happens inside its dispatch. -/
theorem change_act (event : Event) (inside : task.place = .inside) :
    Change router s task (router.act s event) := by
  have plain : task.place ≠ .leaving ∧ task.place ≠ .returning := by
    rw [inside]
    decide
  have announced : s.Quiet (router.announce s event) := by
    unfold announce
    split
    · exact quiet_note _ (by decide) _
    · exact .refl s
  unfold act
  dsimp only
  split
  · exact change_carry announced event inside
  · split
    · exact change_nil (announced.trans (quiet_note _ (by decide) _)) plain
    · unfold consult
      split
      · next fault hfind =>
        have scalar : fault.isOverrun = false := by
          rw [Table.find_eq_error hfind]
          rfl
        exact .within (announced.trans (quiet_report_of_not_isOverrun _ scalar)) plain
          fun next h => (place_of_mem_fallback h).trans inside.symm
      · exact .within announced plain fun next h =>
          (place_of_mem_fallback h).trans inside.symm
      · exact .within announced plain fun next h =>
          (place_of_mem_outputs h).trans inside.symm

/-- Having a turn happens outside of dispatches, and only what does not just record
borrows an event. -/
theorem change_turn (event : Event) (index : Nat) (outside : task.place = .outside) :
    Change router s task (turn s event index) := by
  have plain : task.place ≠ .leaving ∧ task.place ≠ .returning := by
    rw [outside]
    decide
  unfold turn
  cases hlistener : s.listeners[index]? with
  | none => exact change_nil (.refl s) plain
  | some listener =>
    cases listener with
    | recorder heard => exact change_nil (quiet_recorder s index _) plain
    | relay on emit dropped =>
      have relays : ¬s.OnlyRecords := by
        intro only
        obtain ⟨heard, hheard⟩ := only _ (List.mem_of_getElem? hlistener)
        cases hheard
      dsimp only
      split
      · exact change_nil (.refl s) plain
      · unfold lend?
        cases hloan : s.pool.acquire with
        | none => exact change_nil (quiet_of_not_onlyRecords relays _) plain
        | some loan => exact .borrowed (.refl s) (.inr (.inr ⟨outside, relays⟩)) hloan

/-- Announcing an interface borrows an event, or reports. -/
theorem change_proclaim {interfaceId : Int32} {m : Moment}
    (h : router.proclaim s interfaceId = some m) (starting : task.place = .starting) :
    Change router s task m := by
  unfold proclaim at h
  split at h
  · cases h
    refine change_nil (s.quiet_reported fun type same => ?_) (by rw [starting]; decide)
    exact Diagnostic.message_config_ne _ _ _ same.symm
  · unfold lend? at h
    cases hloan : s.pool.acquire with
    | none => rw [hloan] at h; cases h
    | some loan =>
      rw [hloan] at h
      cases h
      exact .borrowed (.refl s) (.inr (.inl starting)) hloan

/-- Every task that is performed makes one of these changes. -/
theorem change_of_perform {m : Moment} (h : router.perform s task = some m) :
    Change router s task m := by
  cases task with
  | deliver event =>
    cases h
    refine .within (.refl s) ⟨nofun, nofun⟩ fun next hnext => ?_
    rcases List.mem_cons.mp hnext with rfl | hnext
    · rfl
    · rw [List.mem_singleton.mp hnext]
      rfl
  | route event =>
    cases h
    unfold enter
    split
    · exact change_nil (.refl s) ⟨nofun, nofun⟩
    · split
      · exact change_nil (quiet_report _ (by simp [DispatchFault.initial])) ⟨nofun, nofun⟩
      · next below => exact .entered rfl (Nat.lt_of_not_le below)
  | handle event =>
    cases h
    exact change_act event rfl
  | splitLow event n =>
    cases h
    have settled := quiet_settle ((controlKept_quiet router).keeps_splitLow event n)
      (router.failsWith_splitLow event n) s
    exact change_nil settled ⟨nofun, nofun⟩
  | fire input binding =>
    cases h
    exact change_lend?_getD (quiet_note _ (by decide) _) _ _ rfl
  | echo input =>
    cases h
    exact change_lend?_getD (.refl s) _ _ rfl
  | leave =>
    cases h
    exact .left rfl
  | hearAll event =>
    cases h
    refine .within (.refl s) ⟨nofun, nofun⟩ fun next hnext => ?_
    obtain ⟨index, -, rfl⟩ := List.mem_map.mp hnext
    rfl
  | hear event index =>
    cases h
    exact change_turn event index rfl
  | giveBack event =>
    cases h
    exact .returned rfl
  | announce interfaceId => exact change_proclaim h rfl

end Changes

/-! ## What every step keeps -/

variable {router : Router} {m n : Moment}

/-- A step only adds to the journal. -/
theorem extends_of_next? (h : router.next? m = some n) :
    m.state.journal.Extends n.state.journal := by
  obtain ⟨task, rest, after, -, hafter, rfl⟩ := next?_eq_some.mp h
  cases change_of_perform hafter with
  | within quiet => exact quiet.journal
  | dropped => exact Journal.extends_report _ _
  | entered => exact .refl _
  | left => exact .refl _
  | borrowed quiet => exact quiet.journal
  | returned => exact .refl _

/-- A run only adds to the journal. -/
theorem Passes.extends (h : router.Passes m n) :
    m.state.journal.Extends n.state.journal :=
  h.keeps (P := fun n => m.state.journal.Extends n.state.journal)
    (fun _ _ hstep ih => ih.trans (extends_of_next? hstep)) (.refl _)

/-- A step keeps listeners that only record. -/
theorem onlyRecords_of_next? (h : router.next? m = some n)
    (recorders : m.state.OnlyRecords) : n.state.OnlyRecords := by
  obtain ⟨task, rest, after, -, hafter, rfl⟩ := next?_eq_some.mp h
  cases change_of_perform hafter with
  | within quiet => exact quiet.recorders recorders
  | dropped => exact recorders
  | entered => exact recorders
  | left => exact recorders
  | borrowed quiet => exact quiet.recorders recorders
  | returned => exact recorders

end Router

end CueRouter
