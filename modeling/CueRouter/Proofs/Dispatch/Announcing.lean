import CueRouter.Proofs.Dispatch.Balance
import CueRouter.Proofs.Dispatch.Recursion

/-!
# What a run announces

A run announces an event where it performs the task of announcing an interface. Only the run
that was asked to announce has such tasks: whatever is broadcast puts other tasks on the
agenda. So what was announced, followed by what has still to be announced, is the same at
every moment, and a run that was asked to announce interfaces and has come to its end has
announced each of them once and in order, among any number of other broadcasts.
-/

namespace CueRouter

/-- The interface that a task announces. -/
def Task.interface? : Task → Option Int32
  | .announce interfaceId => some interfaceId
  | .deliver _ | .route _ | .handle _ | .splitLow .. | .fire .. | .echo _ | .leave | .hearAll _
  | .hear .. | .giveBack _ => none

/-- The event that is announced where the task leads to the moment, if one is. -/
def Task.announced : Task → Moment → List Event
  | .announce _, after => after.delivered
  | .deliver _, _ | .route _, _ | .handle _, _ | .splitLow .., _ | .fire .., _ | .echo _, _
  | .leave, _ | .hearAll _, _ | .hear .., _ | .giveBack _, _ => []

namespace Router

/-- A run from the first moment to the last that announces these events in this order. -/
inductive Announces (router : Router) : Moment → List Event → Moment → Prop
  /-- No step. -/
  | refl (m : Moment) : Announces router m [] m
  /-- One step before the others. -/
  | head {s : State} {task : Task} {rest : List Task} {after m : Moment} {events : List Event}
      (performed : router.perform s task = some after)
      (run : Announces router ⟨after.state, after.agenda ++ rest⟩ events m) :
      Announces router ⟨s, task :: rest⟩ (task.announced after ++ events) m

/-- The event that announces an interface, if the catalog has it. -/
def announcement? (router : Router) (interfaceId : Int32) : Option Event :=
  (router.catalog.build .startInterface [(interfaceField, .int interfaceId)]).toOption

/-- The events that announce what has still to be announced. -/
def owed (router : Router) (agenda : List Task) : List Event :=
  (agenda.filterMap Task.interface?).filterMap router.announcement?

variable {router : Router} {s : State} {m n : Moment} {task : Task} {events : List Event}

/-- Every run announces something, if only nothing. -/
theorem Passes.exists_announces (h : router.Passes m n) :
    ∃ events, router.Announces m events n := by
  induction h using Relation.ReflTransGen.head_induction_on with
  | refl => exact ⟨[], .refl _⟩
  | @head m _ step _ ih =>
    obtain ⟨events, run⟩ := ih
    obtain ⟨s, agenda⟩ := m
    obtain ⟨task, rest, after, rfl, performed, rfl⟩ := next?_eq_some.mp step
    exact ⟨_, .head performed run⟩

/-- Only tasks of announcing wait to start a broadcast. -/
theorem interface?_of_place (h : task.place ≠ .starting) : task.interface? = none := by
  cases task with
  | announce interfaceId => exact absurd rfl h
  | deliver | route | handle | splitLow | fire | echo | leave | hearAll | hear | giveBack => rfl

/-- What is done for a broadcast puts no task of announcing on the agenda. -/
theorem interface?_of_perform (plain : task.place ≠ .starting)
    (h : router.perform s task = some m) : ∀ next ∈ m.agenda, next.interface? = none := by
  intro next member
  refine interface?_of_place ?_
  cases change_of_perform h with
  | within _ _ follow => rwa [follow next member]
  | dropped | left | returned => exact absurd member List.not_mem_nil
  | entered | borrowed =>
    rcases List.mem_pair.mp member with rfl | rfl
    · exact Place.noConfusion
    · exact Place.noConfusion

/-- Nothing is owed for other tasks. -/
theorem owed_append_of_plain {tasks : List Task} (h : ∀ next ∈ tasks, next.interface? = none)
    (rest : List Task) : router.owed (tasks ++ rest) = router.owed rest := by
  have none : tasks.filterMap Task.interface? = [] := List.filterMap_eq_nil_iff.mpr h
  rw [owed, List.filterMap_append, none, List.nil_append, owed]

/-- Announcing an interface hands out its announcement, and what follows is no announcing. -/
theorem announced_of_proclaim {interfaceId : Int32}
    (h : router.proclaim s interfaceId = some m) :
    m.delivered = (router.announcement? interfaceId).toList ∧
      ∀ next ∈ m.agenda, next.interface? = none := by
  unfold proclaim at h
  unfold announcement?
  split at h
  · next fault failed =>
    cases h
    rw [failed]
    exact ⟨rfl, fun next member => absurd member List.not_mem_nil⟩
  · next event made =>
    obtain ⟨loan, -, rfl⟩ := Option.map_eq_some_iff.mp h
    rw [made]
    refine ⟨rfl, fun next member => ?_⟩
    rcases List.mem_pair.mp member with rfl | rfl <;> rfl

/-- A step announces what it takes off what is owed. -/
theorem owed_cons (h : router.perform s task = some m) (rest : List Task) :
    router.owed (task :: rest) = task.announced m ++ router.owed (m.agenda ++ rest) := by
  cases task with
  | announce interfaceId =>
    obtain ⟨delivered, plain⟩ := announced_of_proclaim h
    have announced : (Task.announce interfaceId).announced m = m.delivered := rfl
    rw [owed_append_of_plain plain, announced, delivered]
    simp only [owed, List.filterMap_cons, Task.interface?]
    cases router.announcement? interfaceId <;> rfl
  | deliver | route | handle | splitLow | fire | echo | leave | hearAll | hear | giveBack =>
    rw [owed_append_of_plain (interface?_of_perform Place.noConfusion h)]
    rfl

/-- What a run has announced, and what is owed after it, is what was owed before it. -/
theorem Announces.owed_eq (h : router.Announces m events n) :
    router.owed m.agenda = events ++ router.owed n.agenda := by
  induction h with
  | refl => rfl
  | head performed _ ih => rw [owed_cons performed, ih, List.append_assoc]

/-- What is owed at first for announcing interfaces is their announcements. -/
theorem owed_announce (ids : List Int32) :
    router.owed (ids.map .announce) = ids.filterMap router.announcement? := by
  have ofIds : (ids.map Task.announce).filterMap Task.interface? = ids := by
    rw [List.filterMap_map]
    exact List.filterMap_some
  rw [owed, ofIds]

/-- While an event is idle, announcing interfaces announces each of them once and in order,
and nothing else, whatever else is broadcast. -/
theorem announces_startInterfaces (router : Router) (built : s.pool.Built)
    (hidle : 0 < s.pool.available) :
    router.Announces ⟨s, router.interfaces.map .announce⟩ events
        ⟨router.startInterfaces s, []⟩ ↔
      events = router.interfaces.filterMap router.announcement? := by
  have listed {announced : List Event}
      (run : router.Announces ⟨s, router.interfaces.map .announce⟩ announced
        ⟨router.startInterfaces s, []⟩) :
      announced = router.interfaces.filterMap router.announcement? := by
    have settled := run.owed_eq
    dsimp only at settled
    rw [owed_announce] at settled
    rw [settled]
    exact (List.append_nil announced).symm
  refine ⟨listed, ?_⟩
  rintro rfl
  obtain ⟨announced, run⟩ :=
    (router.finishes_announcements s built hidle router.interfaces).exists_announces
  rwa [listed run] at run

end Router

end CueRouter
