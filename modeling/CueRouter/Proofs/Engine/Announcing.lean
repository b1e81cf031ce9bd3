import CueRouter.Proofs.Dispatch.Announcing
import CueRouter.Proofs.Engine.Steps

/-!
# Every interface is announced once

A setup lists the interfaces that its steps mention, each where it is mentioned first, whether
or not anything of it is accepted. An engine announces what its setup lists. A pool has room
for one event at least, and a broadcast gives back what it borrows, so every announcement
finds an idle event, whatever those before it brought about.
-/

namespace CueRouter

/-- The interfaces are those that are mentioned, in the order of their first mentions. -/
structure ListsFirst (mentions interfaces : List Int32) : Prop where
  /-- What is mentioned is listed, and nothing else. -/
  mem_iff : ∀ id, id ∈ interfaces ↔ id ∈ mentions
  /-- What is listed earlier was mentioned earlier. -/
  ordered : interfaces.Pairwise fun a b => mentions.idxOf a < mentions.idxOf b

namespace ListsFirst

variable {mentions interfaces : List Int32} {id : Int32}

/-- Each interface is listed once. -/
theorem nodup (h : ListsFirst mentions interfaces) : interfaces.Nodup :=
  h.ordered.imp fun earlier same => by simp [same] at earlier

/-- There is one such list. -/
theorem unique {other : List Int32} (h : ListsFirst mentions interfaces)
    (k : ListsFirst mentions other) : interfaces = other := by
  have perm : interfaces.Perm other := (List.perm_ext_iff_of_nodup h.nodup k.nodup).mpr fun id =>
    (h.mem_iff id).trans (k.mem_iff id).symm
  exact perm.eq_of_pairwise (fun a b _ _ before after => absurd before (Nat.lt_asymm after))
    h.ordered k.ordered

/-- More mentions leave the order of the first ones as it is. -/
theorem ordered_append (h : ListsFirst mentions interfaces) (more : List Int32) :
    interfaces.Pairwise fun a b => (mentions ++ more).idxOf a < (mentions ++ more).idxOf b := by
  refine h.ordered.imp_of_mem fun {a b} ha hb earlier => ?_
  rwa [List.idxOf_append_of_mem ((h.mem_iff a).mp ha),
    List.idxOf_append_of_mem ((h.mem_iff b).mp hb)]

/-- Mentioning what is listed lists nothing more. -/
theorem mention_listed (h : ListsFirst mentions interfaces) (listed : id ∈ interfaces) :
    ListsFirst (mentions ++ [id]) interfaces where
  mem_iff other := by
    have mentioned := (h.mem_iff id).mp listed
    rw [h.mem_iff, List.mem_append, List.mem_singleton]
    exact ⟨.inl, fun either => either.elim (fun before => before) fun same => same ▸ mentioned⟩
  ordered := h.ordered_append [id]

/-- Mentioning what is not listed lists it last. -/
theorem mention_new (h : ListsFirst mentions interfaces) (new : id ∉ interfaces) :
    ListsFirst (mentions ++ [id]) (interfaces ++ [id]) where
  mem_iff other := by
    rw [List.mem_append, List.mem_append, h.mem_iff]
  ordered := by
    have absent : id ∉ mentions := mt (h.mem_iff id).mpr new
    have last : (mentions ++ [id]).idxOf id = mentions.length := by
      rw [List.idxOf_append_of_notMem absent]
      simp
    refine List.pairwise_append.mpr ⟨h.ordered_append [id], List.pairwise_singleton _ _, ?_⟩
    intro a ha b hb
    have mentioned := (h.mem_iff a).mp ha
    rw [List.mem_singleton.mp hb, last, List.idxOf_append_of_mem mentioned]
    exact List.idxOf_lt_length_of_mem mentioned

end ListsFirst

namespace Setup

variable (s : Setup)

/-! ## The list of a setup -/

/-- The interface that a step mentions. -/
def Step.mentions : Step → List Int32
  | .bind _ interfaceId => [interfaceId]
  | .load interface => [interface.id]
  | .declare .. | .share _ | .link .. | .subscribe _ | .useKeys _ | .useSink _ => []

/-- An interface that is mentioned is listed. -/
theorem mem_interfaces_mention (interfaceId : Int32) :
    interfaceId ∈ (s.mention interfaceId).interfaces := by
  unfold mention
  split
  · next listed => exact List.contains_iff_mem.mp listed
  · exact List.mem_append_right _ (List.mem_singleton_self _)

/-- Mentioning an interface that is listed does nothing. -/
theorem mention_of_mem {interfaceId : Int32} (listed : interfaceId ∈ s.interfaces) :
    s.mention interfaceId = s :=
  if_pos (List.contains_iff_mem.mpr listed)

/-- Mentioning an interface keeps the order of first mentions. -/
theorem listsFirst_mention {mentions : List Int32} (h : ListsFirst mentions s.interfaces)
    (interfaceId : Int32) :
    ListsFirst (mentions ++ [interfaceId]) (s.mention interfaceId).interfaces := by
  by_cases listed : interfaceId ∈ s.interfaces
  · rw [s.mention_of_mem listed]
    exact h.mention_listed listed
  · have new : (s.mention interfaceId).interfaces = s.interfaces ++ [interfaceId] := by
      unfold mention
      rw [if_neg (mt List.contains_iff_mem.mp listed)]
    rw [new]
    exact h.mention_new listed

/-- Adding a binding lists what mentioning its interface lists. -/
theorem interfaces_addBinding (declaration : Declaration) (interfaceId : Int32) :
    (s.addBinding declaration interfaceId).setup.interfaces =
      (s.mention interfaceId).interfaces := by
  obtain ⟨table, journal, added⟩ := s.exists_addBinding_eq declaration interfaceId
  rw [added]

/-- Adding bindings of an interface that is listed lists nothing. -/
theorem interfaces_addBindings {interfaceId : Int32} (listed : interfaceId ∈ s.interfaces)
    (declarations : List Declaration) :
    (s.addBindings interfaceId declarations).setup.interfaces = s.interfaces := by
  induction declarations generalizing s with
  | nil => rfl
  | cons declaration rest ih =>
    have first : (s.addBinding declaration interfaceId).setup.interfaces = s.interfaces := by
      rw [interfaces_addBinding, s.mention_of_mem listed]
    have still : interfaceId ∈ (s.addBinding declaration interfaceId).setup.interfaces := by
      rwa [first]
    exact (ih _ still).trans first

/-- A step keeps the order of first mentions. -/
theorem listsFirst_take {mentions : List Int32} (h : ListsFirst mentions s.interfaces)
    (step : Step) :
    ListsFirst (mentions ++ step.mentions) (s.take step).setup.interfaces := by
  have quiet {t : Setup} (same : t.interfaces = s.interfaces) :
      ListsFirst (mentions ++ []) t.interfaces := by
    rwa [List.append_nil, same]
  cases step with
  | bind declaration interfaceId =>
    simp only [take, interfaces_addBinding]
    exact s.listsFirst_mention h interfaceId
  | load interface =>
    obtain ⟨store, journal, declared⟩ :=
      (s.mention interface.id).exists_addVariables_eq interface.declarations
    have bound := interfaces_addBindings
      { s.mention interface.id with store := store, journal := journal }
      (s.mem_interfaces_mention interface.id) interface.bindings
    simp only [take, loadInterface, declared, bound]
    exact s.listsFirst_mention h interface.id
  | declare name typeName initializer =>
    obtain ⟨store, journal, declared⟩ := s.exists_declareVariable_eq name typeName initializer
    simp only [take, declared]
    exact quiet rfl
  | link name shared =>
    obtain ⟨store, journal, linked⟩ := s.exists_linkVariable_eq name shared
    simp only [take, linked]
    exact quiet rfl
  | share | subscribe | useKeys | useSink => exact quiet rfl

/-- Steps keep the order of first mentions. -/
theorem listsFirst_configure {mentions : List Int32} (h : ListsFirst mentions s.interfaces)
    (steps : List Step) :
    ListsFirst (mentions ++ steps.flatMap Step.mentions)
      (s.configure steps).setup.interfaces := by
  induction steps generalizing s mentions with
  | nil => rwa [List.flatMap_nil, List.append_nil]
  | cons step steps ih =>
    rw [List.flatMap_cons, ← List.append_assoc]
    exact ih (s.take step).setup (s.listsFirst_take h step)

/-! ## The announcements of an engine -/

/-- The event that announces an interface. -/
def announcement (interfaceId : Int32) : Event := ⟨.startInterface, [.int interfaceId], false⟩

section Build

variable (settings : Settings) (keys : KeyNames) (sink : Sink) (steps : List Step)

/-- In an engine, every interface has its announcement. -/
theorem announcement?_build (interfaceId : Int32) :
    ((ofSettings settings keys sink).configure steps).setup.build.router.announcement?
      interfaceId = some (announcement interfaceId) := by
  unfold Router.announcement? build
  dsimp only
  rw [catalog_configure, Catalog.build, Catalog.schema_standard]
  rfl

/-- The announcement of an interface holds it in its interface field. -/
theorem read_announcement (interfaceId : Int32) :
    ((ofSettings settings keys sink).configure steps).setup.build.router.catalog.read
      (announcement interfaceId) interfaceField = .int interfaceId := by
  unfold build
  dsimp only
  rw [catalog_configure, Catalog.read, Catalog.read?, Catalog.schema_standard]
  rfl

end Build

/-- Whatever steps configured an engine, it lists the interfaces that they mention in the order
of their first mentions, and it starts with an idle event. While an event is idle, announcing
the interfaces announces each of them once, in this order and by an event that is no echo and
holds the interface, and announces nothing else, whatever the listeners, the hook and the
bindings do. -/
theorem interfaces_announced_once (settings : Settings) (keys : KeyNames) (sink : Sink)
    (steps : List Step) :
    let engine := ((ofSettings settings keys sink).configure steps).setup.build
    ListsFirst (steps.flatMap Step.mentions) engine.router.interfaces ∧
      (∀ id, (announcement id).type = .startInterface ∧ (announcement id).echo = false ∧
        engine.router.catalog.read (announcement id) interfaceField = .int id) ∧
      (engine.state.pool.Built ∧ 0 < engine.state.pool.available) ∧
      ∀ s : State, s.pool.Built → 0 < s.pool.available → ∀ events,
        engine.router.Announces ⟨s, engine.router.interfaces.map .announce⟩ events
            ⟨engine.router.startInterfaces s, []⟩ ↔
          events = engine.router.interfaces.map announcement := by
  intro engine
  have bare : (ofSettings settings keys sink).interfaces = [] := rfl
  have first : ListsFirst [] (ofSettings settings keys sink).interfaces := by
    rw [bare]
    exact ⟨fun id => Iff.rfl, .nil⟩
  have available : 0 < engine.state.pool.available := by
    show 0 < (Pool.ofCapacity _).available
    rw [Pool.available_ofCapacity]
    omega
  refine ⟨listsFirst_configure _ first steps, fun id => ⟨rfl, rfl, ?_⟩,
    ⟨.fresh _, available⟩, fun s built idle events => ?_⟩
  · exact read_announcement settings keys sink steps id
  · have each : engine.router.announcement? = some ∘ announcement :=
      funext (announcement?_build settings keys sink steps)
    rw [engine.router.announces_startInterfaces built idle, each, List.filterMap_eq_map]

/-- Three interfaces in turn. Two declarations are at fault, and the announcement of the third
interface is answered by two outputs. -/
def announcingSteps : List Step :=
  [.bind ⟨[("output", "trigger-loop")]⟩ 7,
    .load { id := 3, bindings := [⟨[("input", "no-such-event")]⟩, ⟨[("input", "key")]⟩] },
    .bind ⟨[("input", "key"), ("output", "trigger-loop")]⟩ 7,
    .load { id := 5, bindings := [⟨[("input", "start-interface"), ("output", "trigger-loop"),
      ("output1", "trigger-loop")]⟩] },
    .bind ⟨[("input", "key"), ("output", "set-debug-mode")]⟩ 3,
    .subscribe (.recorder #[])]

/-- With a pool of one event, the three interfaces are announced in the order of their first
mentions. -/
theorem interfaces_announced_once_announcingSteps :
    let engine := ((ofSettings { poolSize := 1 } (.exact []) .collecting).configure
      announcingSteps).setup.build
    engine.router.interfaces = [7, 3, 5] ∧
      (engine.state.pool.Built ∧ 0 < engine.state.pool.available) ∧
      engine.router.Announces ⟨engine.state, [.announce 7, .announce 3, .announce 5]⟩
        [announcement 7, announcement 3, announcement 5]
        ⟨engine.router.startInterfaces engine.state, []⟩ := by
  intro engine
  obtain ⟨lists, -, ⟨built, idle⟩, announces⟩ := interfaces_announced_once { poolSize := 1 }
    (.exact []) .collecting announcingSteps
  have order : ListsFirst (announcingSteps.flatMap Step.mentions) [7, 3, 5] := by
    have mentions : announcingSteps.flatMap Step.mentions = [7, 3, 7, 5, 3] := rfl
    rw [mentions]
    refine ⟨fun id => ?_, by decide⟩
    simp only [List.mem_cons, List.not_mem_nil, or_false]
    grind
  have listed : engine.router.interfaces = [7, 3, 5] := lists.unique order
  have run := (announces engine.state built idle _).mpr rfl
  rw [listed] at run
  exact ⟨listed, ⟨built, idle⟩, run⟩

end Setup

end CueRouter
