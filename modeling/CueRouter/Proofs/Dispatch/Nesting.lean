import CueRouter.Proofs.Dispatch.Balance

/-!
# A pool as large as the depth limit

Where listeners only record, events are borrowed inside dispatches only, and each
dispatch has given its event back before it borrows the next one. So every event on
loan belongs to a dispatch of its own, and the dispatch that is about to borrow one
holds none. A pool with as many events as dispatches may nest therefore never runs
dry.
-/

namespace CueRouter.Router

open State

/-- An agenda whose next tasks are in the place. Behind a broadcast on loan the
dispatch goes on that borrowed its event, and behind a dispatch the broadcast that it
belongs to. -/
inductive Nested : Place → List Task → Prop
  /-- The broadcast from outside ends. -/
  | done : Nested .outside []
  /-- A task in the place comes first. -/
  | within {place : Place} {task : Task} {rest : List Task} (h : task.place = place)
      (k : Nested place rest) : Nested place (task :: rest)
  /-- A broadcast ends by giving its event back to a dispatch. -/
  | giveBack {event : Event} {rest : List Task} (k : Nested .inside rest) :
      Nested .outside (.giveBack event :: rest)
  /-- A dispatch ends within a broadcast. -/
  | leave {rest : List Task} (k : Nested .outside rest) : Nested .inside (.leave :: rest)

namespace Nested

variable {place : Place} {task : Task} {tasks rest : List Task}

/-- The next tasks belong to a broadcast or a dispatch. -/
theorem plain (h : Nested place tasks) : place = .outside ∨ place = .inside := by
  induction h with
  | done => exact .inl rfl
  | within _ _ ih => exact ih
  | giveBack _ _ => exact .inl rfl
  | leave _ _ => exact .inr rfl

/-- More tasks in the place may come first. -/
theorem append (h : ∀ task ∈ tasks, task.place = place) (k : Nested place rest) :
    Nested place (tasks ++ rest) := by
  induction tasks with
  | nil => exact k
  | cons task tasks ih =>
    refine .within (h task List.mem_cons_self) (ih fun other hother => ?_)
    exact h other (List.mem_cons_of_mem _ hother)

/-- Behind a task of a broadcast or a dispatch that one goes on. -/
theorem tail (h : Nested place (task :: rest)) (leaving : task.place ≠ .leaving)
    (returning : task.place ≠ .returning) : place = task.place ∧ Nested task.place rest := by
  cases h with
  | within same k => exact ⟨same.symm, same ▸ k⟩
  | giveBack => exact absurd rfl returning
  | leave => exact absurd rfl leaving

/-- Behind the end of a dispatch a broadcast goes on. -/
theorem tail_leave (h : Nested place (.leave :: rest)) : Nested .outside rest := by
  cases h with
  | leave k => exact k
  | within same k =>
    rcases k.plain with hp | hp <;> rw [hp] at same <;> cases same

/-- Behind the return of an event a dispatch goes on. -/
theorem tail_giveBack {event : Event} (h : Nested place (.giveBack event :: rest)) :
    Nested .inside rest := by
  cases h with
  | giveBack k => exact k
  | within same k =>
    rcases k.plain with hp | hp <;> rw [hp] at same <;> cases same

/-- Every event on loan belongs to a dispatch under way, and one more dispatch is
under way where a dispatch goes on. -/
theorem count (h : Nested place tasks) :
    Moment.count .leaving tasks =
      Moment.count .returning tasks + if place = .inside then 1 else 0 := by
  induction h with
  | done => rfl
  | @within place task rest same k ih =>
    have hplain := k.plain
    have leaving : place ≠ .leaving := by rintro rfl; simp at hplain
    have returning : place ≠ .returning := by rintro rfl; simp at hplain
    rw [Moment.count_cons, Moment.count_cons, same, if_neg leaving, if_neg returning, ih]
    omega
  | giveBack _ ih =>
    simp only [Moment.count_cons, Task.place, reduceCtorEq, ite_true, ite_false] at ih ⊢
    omega
  | leave _ ih =>
    simp only [Moment.count_cons, Task.place, reduceCtorEq, ite_true, ite_false] at ih ⊢
    omega

end Nested

/-- A moment of a run in which no output had to be dropped for want of an event. -/
structure Supplied (router : Router) (s : State) (m : Moment) : Prop where
  /-- Loans and dispatches are balanced. -/
  balanced : router.Balanced s m
  /-- Every listener only records. -/
  recorders : m.state.OnlyRecords
  /-- Loans and dispatches alternate. -/
  nested : ∃ place, Nested place m.agenda
  /-- The journal grew. -/
  journal : s.journal.Extends m.state.journal
  /-- Nothing was dropped for want of an event. -/
  spared : ∀ type, ¬s.journal.Reports m.state.journal (.dispatch (.poolExhausted type))

variable {router : Router} {s : State}

/-- While a dispatch goes on, an event is idle. -/
theorem Supplied.idle {m : Moment} (supplied : router.Supplied s m)
    (idle : s.pool.available = s.pool.capacity)
    (room : router.depthLimit ≤ s.pool.capacity) (nested : Nested .inside m.agenda) :
    0 < m.state.pool.available := by
  have counts := nested.count
  rw [if_pos rfl] at counts
  have loans := supplied.balanced.idle
  have depth := supplied.balanced.depth
  have bounded := supplied.balanced.bounded
  omega

/-- Every step keeps a run supplied. -/
theorem Supplied.next? (built : s.pool.Built) (idle : s.pool.available = s.pool.capacity)
    (room : router.depthLimit ≤ s.pool.capacity) {m n : Moment}
    (h : router.next? m = some n) (supplied : router.Supplied s m) :
    router.Supplied s n := by
  have grown := extends_of_next? h
  suffices step : (∃ place, Nested place n.agenda) ∧ ∀ type,
      ¬m.state.journal.Reports n.state.journal (.dispatch (.poolExhausted type)) by
    refine ⟨supplied.balanced.next? built h, onlyRecords_of_next? h supplied.recorders,
      step.1, supplied.journal.trans grown, fun type reported => ?_⟩
    rcases reported.split supplied.journal grown with early | late
    · exact supplied.spared type early
    · exact step.2 type late
  obtain ⟨place, nested⟩ := supplied.nested
  obtain ⟨task, rest, after, hagenda, hafter, rfl⟩ := next?_eq_some.mp h
  rw [hagenda] at nested
  cases change_of_perform hafter with
  | within quiet plain follow =>
    have behind := (nested.tail plain.1 plain.2).2
    exact ⟨⟨_, behind.append follow⟩, quiet.spared⟩
  | dropped inside dry type =>
    have here := (nested.tail (by rw [inside]; decide) (by rw [inside]; decide)).1
    rw [inside] at here
    rw [here, ← hagenda] at nested
    have some_idle := supplied.idle idle room nested
    omega
  | entered hroute below =>
    subst hroute
    have behind := (nested.tail nofun nofun).2
    exact ⟨⟨_, .within rfl (.leave behind)⟩, fun _ => Journal.not_reports_self _ _⟩
  | left hleave =>
    subst hleave
    exact ⟨⟨_, nested.tail_leave⟩, fun _ => Journal.not_reports_self _ _⟩
  | borrowed quiet borrower hloan =>
    refine ⟨?_, quiet.spared⟩
    rcases borrower with inside | starting | ⟨-, relays⟩
    · have behind := (nested.tail (by rw [inside]; decide) (by rw [inside]; decide)).2
      rw [inside] at behind
      exact ⟨_, .within rfl (.giveBack behind)⟩
    · have behind := (nested.tail (by rw [starting]; decide) (by rw [starting]; decide)).2
      rw [starting] at behind
      have unplain := behind.plain
      simp at unplain
    · exact absurd supplied.recorders relays
  | returned hback =>
    subst hback
    exact ⟨⟨_, nested.tail_giveBack⟩, fun _ => Journal.not_reports_self _ _⟩

/-- Where all events of a pool at least as large as the depth limit are idle and the
listeners only record, no output of a sent event is dropped for want of an event. At
every moment no more events are on loan than dispatches were entered, and never more
than the depth limit. -/
theorem broadcast_supplied (router : Router) (s : State) (event : Event)
    (recorders : ∀ listener ∈ s.listeners, ∃ heard, listener = .recorder heard)
    (built : s.pool.Built) (idle : s.pool.available = s.pool.capacity)
    (room : router.depthLimit ≤ s.pool.capacity) :
    router.Finishes ⟨s, [.deliver event]⟩ (router.broadcast s event) ∧
    (∀ type, ¬s.journal.Reports (router.broadcast s event).journal
      (.dispatch (.poolExhausted type))) ∧
    ∀ m, router.Passes ⟨s, [.deliver event]⟩ m →
      s.depth + m.state.pool.lent ≤ m.state.depth ∧
        m.state.pool.lent ≤ router.depthLimit := by
  have start : router.Supplied s ⟨s, [.deliver event]⟩ :=
    { balanced := balanced_start built rfl rfl
      recorders := recorders
      nested := ⟨.outside, .within rfl .done⟩
      journal := .refl _
      spared := fun _ => Journal.not_reports_self _ _ }
  have finishes := router.finishes_broadcast s event
  have supplied : ∀ m, router.Passes ⟨s, [.deliver event]⟩ m → router.Supplied s m :=
    fun m passes => passes.keeps (fun _ _ => Supplied.next? built idle room) start
  refine ⟨finishes, (supplied _ finishes).spared, fun m passes => ?_⟩
  obtain ⟨place, nested⟩ := (supplied m passes).nested
  have counts := nested.count
  have balanced := (supplied m passes).balanced
  have loans := balanced.idle
  have capacity := balanced.capacity
  have depth := balanced.depth
  have bounded := balanced.bounded
  unfold Pool.lent
  omega

/-- A runaway subroutine is supplied by a pool of as many events as its calls may
nest. -/
theorem broadcast_supplied_runawayRouter :
    let s : State :=
      { store := { entries := [] }
        pool := .ofCapacity 2
        journal := {}
        listeners := [.recorder #[]]
        debug := false }
    let call : Event := ⟨.goSub, [.int 1, .int 0, .int 0, .int 0], false⟩
    (∀ type, ¬s.journal.Reports (runawayRouter.broadcast s call).journal
      (.dispatch (.poolExhausted type))) ∧
    (∀ m, runawayRouter.Passes ⟨s, [.deliver call]⟩ m → m.state.pool.lent ≤ 2) ∧
    (runawayRouter.broadcast s call).journal.diagnostics.toList =
      [.dispatch (.recursionLimit 2 .goSub)] := by
  intro s call
  have recorders : ∀ listener ∈ s.listeners, ∃ heard, listener = .recorder heard := by
    intro listener hl
    exact ⟨#[], List.mem_singleton.mp hl⟩
  obtain ⟨-, spared, bounded⟩ := broadcast_supplied runawayRouter s call recorders
    (.fresh 2) (by decide) (by decide)
  exact ⟨spared, fun m passes => (bounded m passes).2, by decide +kernel⟩

end CueRouter.Router
