import CueRouter.Proofs.Dispatch.Stretch
import Mathlib.Algebra.BigOperators.Group.Finset.Basic
import Mathlib.Algebra.BigOperators.Ring.Finset

/-!
# Recursion is cut off at the limit

An event that is answered by outputs of its own sort calls itself without end, but for the
limit on how deeply dispatches may nest. A call with `r` levels left is answered by `n`
outputs, each of them a call with one level less, and a call with none left makes one
report. What a call leaves behind is therefore known by induction on the levels that are
left and, within one, on the outputs that are still to be broadcast: the events that were
heard and the reports, and nothing else.
-/

namespace CueRouter

namespace Router

open State

variable {router : Router} {s : State}

/-! ## Calls -/

/-- Whatever the variables are, the event is an input that is answered by `n` outputs. All of
them are the same event, of the type of the input, and there is no echo. -/
structure Recurs (router : Router) (n : Nat) (output event : Event) : Prop where
  /-- The event is no echo. -/
  echo : event.echo = false
  /-- The event is an input. -/
  role : event.type.role = .input
  /-- The output has the type of the event. -/
  type_eq : event.type = output.type
  /-- A chain of `n` bindings answers. -/
  found : ∀ store, ∃ chain, router.table.find event store = .ok (some chain) ∧
    chain.head.echo = false ∧ chain.toList.length = n ∧
    ∀ binding ∈ chain.toList, binding.synthesize event store = output

/-- The number of outputs of a call with `r` levels left, and of all the calls that it leads
to, with `n` outputs each. -/
def callCount (n : Nat) : (r : Nat) → Nat
  | 0 => 0
  | r + 1 => n * (1 + callCount n r)

/-- There are as many outputs at each level as calls there. -/
theorem callCount_eq_sum (n r : Nat) :
    callCount n r = ∑ k ∈ Finset.range r, n ^ (k + 1) := by
  induction r with
  | zero => rfl
  | succ r ih =>
    rw [callCount, ih, Finset.sum_range_succ', Nat.mul_add, Finset.mul_sum, Nat.add_comm,
      Nat.mul_one, Nat.zero_add, Nat.pow_one]
    refine congrArg (· + n) (Finset.sum_congr rfl fun k _ => ?_)
    rw [Nat.pow_succ n (k + 1), Nat.mul_comm]

/-- The reports of `count` events of the type that found no level left. -/
def refusals (router : Router) (type : EventType) (count : Nat) : List Diagnostic :=
  List.replicate count (.dispatch (.recursionLimit router.depthLimit type))

/-- The reports of some events and of others are those of all of them. -/
theorem refusals_add (router : Router) (type : EventType) (count more : Nat) :
    router.refusals type (count + more) =
      router.refusals type count ++ router.refusals type more :=
  List.replicate_add count more _

/-- The event is cut off with `r` levels left: it is delivered with all the outputs that it
leads to, every listener hears them before it, and there is a report for each call that
finds no level left. -/
def CutsOff (router : Router) (n : Nat) (output event : Event) (r : Nat) : Prop :=
  ∀ s : State, s.depth + r = router.depthLimit → s.Ready output.type r →
    router.Stretch s [.deliver event]
      (event :: List.replicate (callCount n r) output)
      (List.replicate (callCount n r) output ++ [event])
      (router.refusals output.type (n ^ r))

section Levels

variable {count r : Nat} {output event : Event}

/-- Without a level left, routing an event makes one report. -/
theorem stretch_refused (recurs : router.Recurs count output event)
    (limit : s.depth = router.depthLimit) :
    router.Stretch s [.route event] [] [] (router.refusals output.type 1) := by
  have refused : router.perform s (.route event) =
      some ⟨s.report (.recursionLimit router.depthLimit output.type), []⟩ := by
    refine congrArg some ?_
    unfold enter
    rw [recurs.echo, recurs.role, recurs.type_eq, if_neg (by decide),
      if_pos (Nat.le_of_eq limit.symm)]
  exact ⟨_, .perform refused (.refl _), hears_nil rfl,
    Journal.gains_report _ _, rfl, rfl, rfl, rfl, rfl⟩

section Below

variable (below : router.CutsOff count output output r)

include below

/-- The output of a binding is a call with one level less. -/
theorem stretch_fire {binding : Binding} (depth : s.depth + r = router.depthLimit)
    (ready : s.Ready output.type (r + 1))
    (synthesizes : binding.synthesize event s.store = output) :
    router.Stretch s [.fire event binding]
      (List.replicate (1 + callCount count r) output)
      (List.replicate (1 + callCount count r) output)
      (router.refusals output.type (count ^ r)) := by
  obtain ⟨loan, borrowed, lent⟩ := ready.exists_loan
  rw [Nat.add_comm, List.replicate_succ]
  have fired : router.Stretch s [.fire event binding] _ _ _ :=
    .fire borrowed ready.bounded synthesizes fun journal =>
      below _ depth ⟨lent.ignored, lent.unclaimed, lent.room, lent.bounded⟩
  rwa [← List.replicate_succ', List.replicate_succ] at fired

/-- The outputs of bindings are calls with one level less, one after another. -/
theorem stretch_fires {bindings : List Binding} (depth : s.depth + r = router.depthLimit)
    (ready : s.Ready output.type (r + 1))
    (synthesize : ∀ binding ∈ bindings, binding.synthesize event s.store = output) :
    router.Stretch s (bindings.map (.fire event))
      (List.replicate (bindings.length * (1 + callCount count r)) output)
      (List.replicate (bindings.length * (1 + callCount count r)) output)
      (router.refusals output.type (bindings.length * count ^ r)) := by
  induction bindings generalizing s with
  | nil =>
    rw [List.length_nil, Nat.zero_mul, Nat.zero_mul]
    exact ⟨s, .refl _, .refl s⟩
  | cons binding bindings ih =>
    obtain ⟨first, others⟩ := List.forall_mem_cons.mp synthesize
    have fired := stretch_fire below depth ready first
    have first_of (each : Nat) :
        (binding :: bindings).length * each = each + bindings.length * each := by
      rw [List.length_cons, Nat.succ_mul, Nat.add_comm]
    rw [first_of, first_of, refusals_add, List.replicate_add (1 + callCount count r)]
    refine fired.append fun t trail => ?_
    refine ih ?_ (ready.of_trail trail) fun other member => ?_
    · rw [trail.depth]
      exact depth
    · rw [trail.store]
      exact others other member

/-- An event of the type is handled by calls with one level less. -/
theorem stretch_handle (recurs : router.Recurs count output event)
    (depth : s.depth + r = router.depthLimit) (ready : s.Ready output.type (r + 1)) :
    router.Stretch s [.handle event]
      (List.replicate (callCount count (r + 1)) output)
      (List.replicate (callCount count (r + 1)) output)
      (router.refusals output.type (count ^ (r + 1))) := by
  obtain ⟨chain, found, silent, length, synthesize⟩ := recurs.found s.store
  refine .handle recurs.role (ready.unclaimed event) found fun journal => ?_
  have fired := stretch_fires (s := { s with journal := journal }) below depth
    ⟨ready.ignored, ready.unclaimed, ready.room, ready.bounded⟩ synthesize
  unfold outputs
  rw [silent, if_neg Bool.false_ne_true, List.append_nil, Nat.pow_succ']
  rwa [length] at fired

/-- With a level left, an event is answered by calls with one level less. -/
theorem stretch_answered (recurs : router.Recurs count output event)
    (depth : s.depth + (r + 1) = router.depthLimit)
    (ready : s.Ready output.type (r + 1)) :
    router.Stretch s [.route event]
      (List.replicate (callCount count (r + 1)) output)
      (List.replicate (callCount count (r + 1)) output)
      (router.refusals output.type (count ^ (r + 1))) := by
  have level : s.depth + 1 + r = router.depthLimit := by omega
  exact .route recurs.echo recurs.role (by omega)
    (stretch_handle (s := { s with depth := s.depth + 1 }) below recurs level
      ⟨ready.ignored, ready.unclaimed, ready.room, ready.bounded⟩)

end Below

/-- An event that recurs is cut off, if its outputs are with one level less. -/
theorem Recurs.cutsOff (recurs : router.Recurs count output event)
    (below : ∀ k, r = k + 1 → router.CutsOff count output output k) :
    router.CutsOff count output event r := by
  intro s depth ready
  have ignored := ready.ignored
  rw [← recurs.type_eq] at ignored
  refine .deliver ignored ?_
  cases r with
  | zero => exact stretch_refused recurs depth
  | succ r => exact stretch_answered (below r rfl) recurs depth ready

/-- An output that recurs is cut off, however many levels are left. -/
theorem Recurs.cutsOff_self (recurs : router.Recurs count output output) (r : Nat) :
    router.CutsOff count output output r := by
  induction r with
  | zero => exact recurs.cutsOff nofun
  | succ r ih =>
    refine recurs.cutsOff fun k same => ?_
    cases same
    exact ih

/-- Where no dispatch is under way, the broadcast of a call delivers it and the outputs of
all levels, and leaves behind that they were heard and a report for each output of the
last level. -/
theorem Recurs.delivers_broadcast (recurs : router.Recurs count output event)
    (again : router.Recurs count output output) (resting : s.depth = 0)
    (ready : s.Ready output.type router.depthLimit) :
    router.Delivers ⟨s, [.deliver event]⟩
        (event :: List.replicate (callCount count router.depthLimit) output)
        ⟨router.broadcast s event, []⟩ ∧
      s.Trail (router.broadcast s event)
        (List.replicate (callCount count router.depthLimit) output ++ [event])
        (router.refusals output.type (count ^ router.depthLimit)) := by
  have depth : s.depth + router.depthLimit = router.depthLimit := by omega
  exact (recurs.cutsOff (fun k _ => again.cutsOff_self k) s depth ready).broadcast

end Levels

end Router

end CueRouter
