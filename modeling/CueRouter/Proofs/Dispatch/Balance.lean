import CueRouter.Proofs.Dispatch.Change
import CueRouter.Proofs.Event.Lending

/-!
# Loans and dispatches are balanced

Every task that ends a dispatch was put on the agenda when the dispatch was entered,
and every task that gives an event back when the event was borrowed. So at every
moment the events that are idle and those still to be given back are those that were
idle at first, and the depth exceeds that at first by the dispatches still to be
ended. Where a run returns, nothing is left to be given back or ended.
-/

namespace CueRouter.Router

open State

/-- Loans and dispatches since the state are balanced by tasks of the agenda. -/
structure Balanced (router : Router) (s : State) (m : Moment) : Prop where
  /-- The pool only lent and took back. -/
  built : m.state.pool.Built
  /-- What is to be given back was idle. -/
  idle : m.state.pool.available + Moment.count .returning m.agenda = s.pool.available
  /-- The pool has its size. -/
  capacity : m.state.pool.capacity = s.pool.capacity
  /-- What is to be ended was entered. -/
  depth : m.state.depth = s.depth + Moment.count .leaving m.agenda
  /-- No dispatch was entered beyond the limit. -/
  bounded : m.state.depth ≤ max s.depth router.depthLimit

variable {router : Router} {s : State}

/-- At first there is nothing to balance. -/
theorem balanced_start (built : s.pool.Built) {agenda : List Task}
    (leaving : Moment.count .leaving agenda = 0)
    (returning : Moment.count .returning agenda = 0) : router.Balanced s ⟨s, agenda⟩ where
  built := built
  idle := by rw [returning, Nat.add_zero]
  capacity := rfl
  depth := by rw [leaving, Nat.add_zero]
  bounded := Nat.le_max_left _ _

/-- Every step keeps the balance. -/
theorem Balanced.next? (room : s.pool.Built) {m n : Moment}
    (h : router.next? m = some n) (balanced : router.Balanced s m) :
    router.Balanced s n := by
  obtain ⟨t, agenda⟩ := m
  obtain ⟨task, rest, after, hagenda, hafter, rfl⟩ := next?_eq_some.mp h
  dsimp only at hagenda hafter ⊢
  subst hagenda
  obtain ⟨built, idle, capacity, depth, bounded⟩ := balanced
  simp only [Moment.count_cons] at idle depth
  dsimp only at built capacity bounded
  cases change_of_perform hafter with
  | within quiet plain follow =>
    have hleaving := Moment.count_within follow plain.1
    have hreturning := Moment.count_within follow plain.2
    rw [if_neg plain.2] at idle
    rw [if_neg plain.1] at depth
    constructor <;> simp only [Moment.count_append, quiet.pool, quiet.depth, hleaving,
      hreturning, Nat.zero_add]
    · exact built
    · exact idle
    · exact capacity
    · exact depth
    · exact bounded
  | dropped inside dry type =>
    rw [inside] at idle depth
    exact ⟨built, idle, capacity, depth, bounded⟩
  | entered hroute below =>
    subst hroute
    constructor <;> simp only [Moment.count_append, Moment.count_cons, Moment.count_nil,
      Task.place, reduceCtorEq, ite_true, ite_false] at idle depth ⊢
    · exact built
    · omega
    · exact capacity
    · omega
    · omega
  | left hleave =>
    subst hleave
    constructor <;> simp only [List.nil_append, Task.place, reduceCtorEq, ite_true,
      ite_false] at idle depth ⊢
    · exact built
    · exact idle
    · exact capacity
    · omega
    · omega
  | borrowed quiet borrower hloan =>
    have plain : task.place ≠ .leaving ∧ task.place ≠ .returning := by
      rcases borrower with h | h | ⟨h, -⟩ <;> rw [h] <;> decide
    have taken := Pool.available_of_acquire hloan
    rw [if_neg plain.2] at idle
    rw [if_neg plain.1] at depth
    constructor <;> simp only [Moment.count_append, Moment.count_cons, Moment.count_nil,
      Task.place, reduceCtorEq, ite_true, ite_false, quiet.depth]
    · exact built.borrowed hloan
    · omega
    · exact taken.2.trans capacity
    · omega
    · exact bounded
  | @returned event hback =>
    subst hback
    simp only [Task.place, reduceCtorEq, ite_true, ite_false] at idle depth
    have hroom : t.pool.available < t.pool.capacity := by
      have least := room.available_le
      omega
    have given := Pool.available_release event hroom
    constructor <;> simp only [List.nil_append]
    · exact built.returned event
    · rw [given]
      omega
    · exact (Pool.capacity_release _ _).trans capacity
    · exact depth
    · exact bounded

/-- Every moment of a run is balanced. -/
theorem Balanced.of_passes (built : s.pool.Built) {agenda : List Task} {m : Moment}
    (start : router.Balanced s ⟨s, agenda⟩) (h : router.Passes ⟨s, agenda⟩ m) :
    router.Balanced s m :=
  h.keeps (fun _ _ => Balanced.next? built) start

/-! ## Restoration -/

/-- A run returns and has restored what it borrowed. -/
structure Restored (router : Router) (start : Moment) (after : State) : Prop where
  /-- The run returns in this state. -/
  returns : router.Finishes start after
  /-- As many events are idle as before. -/
  available : after.pool.available = start.state.pool.available
  /-- As many dispatches are under way as before. -/
  depth : after.depth = start.state.depth
  /-- No idle event is marked as an echo. -/
  unmarked : ∀ event ∈ after.pool.idle, event.echo = false
  /-- At no moment are dispatches nested beyond the limit, unless they were at first. -/
  bounded : ∀ m, router.Passes start m →
    m.state.depth ≤ max start.state.depth router.depthLimit

/-- A run that starts with nothing to give back or end restores what it borrows. -/
theorem restored_of_finishes (built : s.pool.Built) {agenda : List Task} {after : State}
    (leaving : Moment.count .leaving agenda = 0)
    (returning : Moment.count .returning agenda = 0)
    (h : router.Finishes ⟨s, agenda⟩ after) :
    router.Restored ⟨s, agenda⟩ after ∧ after.pool.Built := by
  have start : router.Balanced s ⟨s, agenda⟩ := balanced_start built leaving returning
  have finish := start.of_passes built h
  refine ⟨⟨h, finish.idle, finish.depth, finish.built.unmarked, fun m passes => ?_⟩,
    finish.built⟩
  exact (start.of_passes built passes).bounded

/-- While an event is idle, interfaces are announced step by step. -/
theorem finishes_announcements (router : Router) (s : State) (built : s.pool.Built)
    (hidle : 0 < s.pool.available) (ids : List Int32) :
    router.Finishes ⟨s, ids.map .announce⟩ (ids.foldl router.startInterface s) := by
  induction ids generalizing s with
  | nil => exact finishes_nil s
  | cons id rest ih =>
    have first := router.finishes_startInterface s id hidle
    obtain ⟨restored, still⟩ := restored_of_finishes built rfl rfl first
    exact first.cons (ih _ still (restored.available ▸ hidle))

/-- Sending an event, and announcing the interfaces while an event is idle, restores
the idle events and the depth, whatever the listeners, the hook and the bindings do.
A dispatch at the limit makes one report and nothing else. -/
theorem broadcast_restores (router : Router) (s : State) (built : s.pool.Built) :
    (∀ event, router.Restored ⟨s, [.deliver event]⟩ (router.broadcast s event)) ∧
    (0 < s.pool.available →
      router.Restored ⟨s, router.interfaces.map .announce⟩ (router.startInterfaces s)) ∧
    ∀ send t event, event.echo = false → event.type.role ≠ .action →
      router.depthLimit ≤ t.depth →
      router.dispatch send t event =
          t.report (.recursionLimit router.depthLimit event.type) ∧
        (t.journal.sink = .collecting →
          (router.dispatch send t event).journal.diagnostics =
            t.journal.diagnostics.push
              (.dispatch (.recursionLimit router.depthLimit event.type))) := by
  refine ⟨fun event => ?_, fun hidle => ?_, fun send t event hecho hrole hdepth => ?_⟩
  · exact (restored_of_finishes built rfl rfl (router.finishes_broadcast s event)).1
  · have plain : ∀ task ∈ router.interfaces.map Task.announce, task.place = .starting := by
      intro task htask
      obtain ⟨id, -, rfl⟩ := List.mem_map.mp htask
      rfl
    exact (restored_of_finishes built (Moment.count_within plain (by decide))
      (Moment.count_within plain (by decide))
      (router.finishes_announcements s built hidle router.interfaces)).1
  · have refused : router.dispatch send t event =
        t.report (.recursionLimit router.depthLimit event.type) := by
      unfold dispatch
      rw [hecho, if_neg (by simp [hrole]), if_pos hdepth]
    refine ⟨refused, fun collecting => ?_⟩
    rw [refused]
    exact Journal.diagnostics_report collecting _

/-- A router whose subroutine calls itself. -/
def runawayRouter : Router where
  catalog := .standard 512
  table :=
    let call : Event := ⟨.goSub, [.int 1, .int 0, .int 0, .int 0], false⟩
    Table.empty.insert ((Catalog.standard 512).schema .goSub) .wildcard
      [⟨call, false, [], []⟩]
  transpose := ⟨0⟩
  interfaces := [3, 4]
  depthLimit := 2

/-- The runaway subroutine is cut off at the limit, and everything is restored. -/
theorem broadcast_restores_runawayRouter :
    let s : State :=
      { store := { entries := [] }
        pool := .ofCapacity 3
        journal := {}
        listeners := [.recorder #[]]
        debug := false }
    let call : Event := ⟨.goSub, [.int 1, .int 0, .int 0, .int 0], false⟩
    runawayRouter.Restored ⟨s, [.deliver call]⟩ (runawayRouter.broadcast s call) ∧
    runawayRouter.Restored ⟨s, [.announce 3, .announce 4]⟩
      (runawayRouter.startInterfaces s) ∧
    (runawayRouter.dispatch (fun t _ => t) { s with depth := 2 } call).journal.diagnostics =
      #[.dispatch (.recursionLimit 2 .goSub)] ∧
    (runawayRouter.broadcast s call).journal.diagnostics.toList =
      [.dispatch (.recursionLimit 2 .goSub)] := by
  intro s call
  obtain ⟨sent, announced, refused⟩ := broadcast_restores runawayRouter s (.fresh 3)
  refine ⟨sent call, announced (by decide), ?_, by decide +kernel⟩
  exact (refused (fun t _ => t) { s with depth := 2 } call rfl (by decide) (by decide)).2 rfl

end CueRouter.Router
