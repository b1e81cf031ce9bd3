import CueRouter.Binding.Table

/-!
# What a table can answer

Whatever chain answers an event, its bindings were put in the table, and each output
has the type that its binding was compiled for. A lookup fails for one reason only.
-/

namespace CueRouter

/-- An output has the type that its binding was compiled for. -/
theorem Binding.type_synthesize (binding : Binding) (input : Event) (store : Store) :
    (binding.synthesize input store).type = binding.prototype.type := by
  have assigned : ∀ (clauses : List Clause) (output : Event),
      (clauses.foldl (fun output clause => clause.assign input store output) output).type =
        output.type := by
    intro clauses
    induction clauses with
    | nil => exact fun _ => rfl
    | cons clause rest ih =>
      intro output
      rw [List.foldl_cons, ih]
      unfold Clause.assign
      split <;> rfl
  exact assigned binding.assignments binding.prototype

/-- What follows a binding in its chain follows it in the run. -/
theorem Chain.exists_link_of_mem_follow {continued : Bool} {links : List Chain.Link}
    {binding : Binding} (h : binding ∈ follow continued links) :
    ∃ link ∈ links, link.binding = binding := by
  induction links generalizing continued with
  | nil =>
    unfold follow at h
    cases h
  | cons link rest ih =>
    cases continued with
    | false => cases h
    | true =>
      rcases List.mem_cons.mp h with rfl | later
      · exact ⟨link, List.mem_cons_self, rfl⟩
      · obtain ⟨other, hother, same⟩ := ih later
        exact ⟨other, List.mem_cons_of_mem _ hother, same⟩

/-- The bindings of the chains in a run are those of the run. -/
theorem Chain.exists_link_of_mem_chainsFrom {within : Bool} {links : List Chain.Link}
    {chain : Chain} (h : chain ∈ chainsFrom within links) {binding : Binding}
    (hbinding : binding ∈ chain.toList) : ∃ link ∈ links, link.binding = binding := by
  induction links generalizing within with
  | nil =>
    unfold chainsFrom at h
    cases h
  | cons link rest ih =>
    have later : chain ∈ chainsFrom link.continued rest →
        ∃ other ∈ link :: rest, other.binding = binding := fun hrest => by
      obtain ⟨other, hother, same⟩ := ih hrest
      exact ⟨other, List.mem_cons_of_mem _ hother, same⟩
    cases within with
    | true => exact later h
    | false =>
      rcases List.mem_cons.mp h with rfl | hrest
      · rcases List.mem_cons.mp hbinding with rfl | hfollow
        · exact ⟨link, List.mem_cons_self, rfl⟩
        · obtain ⟨other, hother, same⟩ := exists_link_of_mem_follow hfollow
          exact ⟨other, List.mem_cons_of_mem _ hother, same⟩
      · exact later hrest

/-- All bindings of the set, bucket by bucket. -/
def BucketSet.bindings (set : BucketSet) : List Binding :=
  set.buckets.toList.flatMap fun links => links.map Chain.Link.binding

/-- All bindings of the table, type by type. -/
def Table.bindings (table : Table) : List Binding :=
  EventType.all.flatMap fun type =>
    ((table.sets.get type).map BucketSet.bindings).getD []

/-- The chain found in a bucket is made of bindings of the set. -/
theorem BucketSet.mem_bindings_of_scan {set : BucketSet} {number : Nat} {event : Event}
    {store : Store} {chain : Chain} (h : set.scan number event store = some chain) :
    ∀ binding ∈ chain.toList, binding ∈ set.bindings := by
  intro binding hbinding
  obtain ⟨link, hlink, rfl⟩ :=
    Chain.exists_link_of_mem_chainsFrom (List.mem_of_find?_eq_some h) hbinding
  unfold run at hlink
  cases hrun : set.buckets[number]? with
  | none =>
    rw [hrun] at hlink
    cases hlink
  | some links =>
    rw [hrun] at hlink
    have member : links ∈ set.buckets.toList :=
      Array.mem_toList_iff.mpr (Array.mem_of_getElem? hrun)
    exact List.mem_flatMap.mpr ⟨links, member, List.mem_map_of_mem hlink⟩

/-- A lookup fails only for an indexed field without a plain number. -/
theorem BucketSet.primary_eq_error {set : BucketSet} {event : Event}
    {fault : DispatchFault} (h : set.primary event = .error fault) :
    fault = .indexNotScalar event.type := by
  unfold primary at h
  split at h
  · cases h
  · dsimp only at h
    split at h
    · cases h
    · cases h
      rfl

namespace Table

variable {table : Table} {event : Event} {store : Store}

/-- A lookup fails only for an indexed field without a plain number. -/
theorem find_eq_error {fault : DispatchFault} (h : table.find event store = .error fault) :
    fault = .indexNotScalar event.type := by
  unfold find at h
  split at h
  · next set _ =>
    unfold BucketSet.find at h
    cases hp : set.primary event with
    | error reason =>
      rw [hp] at h
      cases h
      exact BucketSet.primary_eq_error hp
    | ok selected =>
      rw [hp] at h
      cases h
  · cases h

/-- The chain that answers an event is made of bindings of the table. -/
theorem mem_bindings_of_find {chain : Chain}
    (h : table.find event store = .ok (some chain)) :
    ∀ binding ∈ chain.toList, binding ∈ table.bindings := by
  unfold find at h
  split at h
  · next set hset =>
    suffices found : ∃ number, set.scan number event store = some chain by
      obtain ⟨number, hscan⟩ := found
      intro binding hbinding
      refine List.mem_flatMap.mpr ⟨event.type, event.type.mem_all, ?_⟩
      rw [hset]
      exact BucketSet.mem_bindings_of_scan hscan binding hbinding
    unfold BucketSet.find at h
    cases hp : set.primary event with
    | error reason =>
      rw [hp] at h
      cases h
    | ok selected =>
      rw [hp] at h
      have either : (selected.bind fun number => set.scan number event store).or
          (set.scan set.wildcard event store) = some chain := Except.ok.inj h
      rcases Option.or_eq_some_iff.mp either with indexed | ⟨-, wildcard⟩
      · obtain ⟨number, -, hscan⟩ := Option.bind_eq_some_iff.mp indexed
        exact ⟨number, hscan⟩
      · exact ⟨_, wildcard⟩
  · cases h

end Table

end CueRouter
