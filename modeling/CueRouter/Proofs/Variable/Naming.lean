import CueRouter.Proofs.Text.Trim
import CueRouter.Proofs.Variable.Outline
import Mathlib.Data.List.Nodup

/-!
# Names and handles

A store finds a variable by searching the names in order. The names are trimmed, not
empty and distinct, so a handle and the name of its variable determine each other. Neither
later calls nor writes move a variable or give a system variable a cell of its own again.
-/

namespace CueRouter

open Text

/-! ## Calls -/

/-- The calls that give a variable to a name. -/
inductive Call where
  /-- Declare a variable from configuration text. -/
  | declare (name typeName : String) (initializer : Option String)
  /-- Declare a variable of a kind with a first value. -/
  | declareValue (name : String) (kind : Kind) (initial : Value)
  /-- Turn a declared variable into a system variable. -/
  | link (name : String) (shared : SharedCell)
  /-- Link a variable, declaring it first if need be. -/
  | declareLinked (name : String) (shared : SharedCell)

namespace Call

/-- The name as it was passed. -/
def name : Call → String
  | declare name _ _ | declareValue name _ _ | link name _ | declareLinked name _ => name

/-- Whether the call makes a system variable. -/
def links : Call → Bool
  | declare .. | declareValue .. => false
  | link .. | declareLinked .. => true

/-- What the call answers and makes of a store. -/
def outcome : Call → Store → Except ConfigFault Store.Declared
  | declare name typeName initializer, store => store.declare name typeName initializer
  | declareValue name kind initial, store => store.declareValue name kind initial
  | link name shared, store => store.link name shared
  | declareLinked name shared, store => store.declareLinked name shared

end Call

/-- What is done with a store. -/
inductive Use where
  /-- A declaration or a link. -/
  | call (call : Call)
  /-- Another subsystem offers a shared cell. -/
  | share (cell : Cell)
  /-- An event writes to a variable. -/
  | set (handle : Handle) (value : Value)
  /-- An owner writes to its shared cell. -/
  | publish (shared : SharedCell) (value : Value)

namespace Store

/-- The store after it was used. A call or a write that fails leaves it alone. -/
def after (store : Store) : Use → Store
  | .call call =>
    match call.outcome store with
    | .ok declared => declared.store
    | .error _ => store
  | .share cell => store.share cell
  | .set handle value =>
    match store.set handle value with
    | .ok written => written.store
    | .error _ => store
  | .publish shared value => store.publish shared value

/-- The store after it was used a number of times. -/
def afterAll (store : Store) (uses : List Use) : Store := uses.foldl after store

/-- The names of the variables in order. -/
def names (store : Store) : List String := store.entries.map Variable.name

variable {store : Store} {name : String}

/-! ## Searching the names -/

/-- The search looks at nothing but the names. -/
theorem lookup_eq (store : Store) (name : String) :
    store.lookup name = (store.names.findIdx? (· == trim name)).map Handle.mk := by
  unfold lookup names
  rw [List.findIdx?_map]
  rfl

/-- A name is not found exactly when it is the name of no variable. -/
theorem lookup_eq_none_iff :
    store.lookup name = none ↔ trim name ∉ store.names := by
  rw [lookup_eq, Option.map_eq_none_iff, List.findIdx?_eq_none_iff]
  constructor
  · intro none member
    have other := none (trim name) member
    rw [beq_self_eq_true] at other
    cases other
  · intro absent held member
    rw [beq_eq_false_iff_ne]
    rintro rfl
    exact absent member

/-- The name of the variable at a handle. -/
theorem getElem?_names (store : Store) (handle : Handle) :
    store.names[handle.index]? = (store.get? handle).map Variable.name :=
  List.getElem?_map

/-- Replacing the storage of a variable keeps all names. -/
@[simp] theorem names_withStorage (store : Store) (handle : Handle) (storage : Storage) :
    (store.withStorage handle storage).names = store.names := by
  unfold names withStorage
  refine List.ext_getElem? fun i => ?_
  rw [List.getElem?_map, List.getElem?_map, List.getElem?_modify]
  cases store.entries[i]? with
  | none => rfl
  | some v =>
    rw [Option.map_eq_map, Option.map_map]
    dsimp only [Option.map_some, Function.comp]
    split <;> rfl

/-! ## Names that were declared -/

/-- The names are trimmed, not empty and distinct. -/
structure Named (store : Store) : Prop where
  /-- No name is empty. -/
  nonempty : ∀ name ∈ store.names, name ≠ ""
  /-- Every name is trimmed. -/
  trimmed : ∀ name ∈ store.names, trim name = name
  /-- No two variables have the same name. -/
  distinct : store.names.Nodup

/-- Where the names are distinct, the variable that is found is the one of the name. -/
theorem Named.lookup_eq_some_iff (named : store.Named) {handle : Handle} :
    store.lookup name = some handle ↔
      (store.get? handle).map Variable.name = some (trim name) := by
  rw [lookup_eq, ← getElem?_names]
  obtain ⟨index⟩ := handle
  rw [Option.map_eq_some_iff]
  constructor
  · rintro ⟨found, hfound, ⟨⟩⟩
    obtain ⟨inside, same, -⟩ := List.findIdx?_eq_some_iff_getElem.mp hfound
    rw [List.getElem?_eq_getElem inside, eq_of_beq same]
  · intro held
    obtain ⟨inside, same⟩ := List.getElem?_eq_some_iff.mp held
    refine ⟨index, List.findIdx?_eq_some_iff_getElem.mpr ⟨inside, ?_, ?_⟩, rfl⟩
    · rw [same]
      exact beq_self_eq_true _
    · intro earlier before twice
      have within : earlier < store.names.length := Nat.lt_trans before inside
      have twin : store.names[earlier] = store.names[index] := by
        rw [same]
        exact eq_of_beq twice
      exact absurd ((List.Nodup.getElem_inj_iff named.distinct).mp twin) (Nat.ne_of_lt before)

/-- A store without variables has no names to repeat. -/
theorem Named.empty : Store.empty.Named :=
  ⟨fun _ member => (List.not_mem_nil member).elim,
    fun _ member => (List.not_mem_nil member).elim, List.nodup_nil⟩

/-- The store with another variable at the end. -/
def push (store : Store) (v : Variable) : Store :=
  { store with entries := store.entries ++ [v] }

/-- Another variable brings its name. -/
@[simp] theorem names_push (store : Store) (v : Variable) :
    (store.push v).names = store.names ++ [v.name] :=
  List.map_append

/-- A variable under a trimmed name that was not found keeps the names as they should
be. -/
theorem Named.push (named : store.Named) (nonempty : trim name ≠ "")
    (fresh : store.lookup name = none) (storage : Storage) :
    (store.push ⟨trim name, storage⟩).Named := by
  have absent := lookup_eq_none_iff.mp fresh
  refine ⟨?_, ?_, ?_⟩ <;> rw [names_push]
  · intro held member
    rcases List.mem_append.mp member with old | new
    · exact named.nonempty held old
    · rw [List.mem_singleton.mp new]
      exact nonempty
  · intro held member
    rcases List.mem_append.mp member with old | new
    · exact named.trimmed held old
    · rw [List.mem_singleton.mp new]
      exact trim_trim name
  · refine List.nodup_append.mpr ⟨named.distinct, List.nodup_singleton _, ?_⟩
    intro held old other new
    rw [List.mem_singleton.mp new]
    rintro rfl
    exact absent old

/-- With another variable at the end, its name is found there and every other name where
it was. -/
theorem lookup_push (fresh : store.lookup name = none) (storage : Storage)
    (other : String) :
    (store.push ⟨trim name, storage⟩).lookup other =
      if trim other = trim name then some ⟨store.size⟩ else store.lookup other := by
  by_cases same : trim other = trim name
  · rw [if_pos same, lookup_eq, names_push, List.findIdx?_append]
    have before : store.names.findIdx? (· == trim other) = none := by
      rw [lookup_eq, Option.map_eq_none_iff, ← same] at fresh
      exact fresh
    rw [before, same]
    simp [names, size]
  · rw [if_neg same, lookup_eq, lookup_eq, names_push, List.findIdx?_append]
    have last : [trim name].findIdx? (· == trim other) = none := by
      rw [List.findIdx?_eq_none_iff]
      intro held member
      rw [List.mem_singleton.mp member, beq_eq_false_iff_ne]
      exact Ne.symm same
    rw [last, Option.map_none, Option.or_none]

/-! ## What a call can do -/

/-- A declaration goes through exactly for a new name that is not empty and a kind that
can be declared, and adds the variable at the end. -/
theorem declareValue_eq_ok {kind : Kind} {initial : Value}
    {declared : Declared} :
    store.declareValue name kind initial = .ok declared ↔
      trim name ≠ "" ∧ kind.isDeclarable = true ∧ store.lookup name = none ∧
        declared =
          ⟨⟨store.size⟩, store.push ⟨trim name, .owned (.ofKind kind initial)⟩⟩ := by
  have again : store.lookup (trim name) = store.lookup name := by
    rw [lookup_eq, lookup_eq, trim_trim]
  unfold declareValue
  dsimp only
  rw [again]
  by_cases empty : trim name = ""
  · simp [empty]
  · have filled : (trim name).isEmpty = false := by
      rw [Bool.eq_false_iff]
      exact fun none => empty (String.isEmpty_iff.mp none)
    rw [filled]
    cases kind.isDeclarable with
    | false => simp
    | true =>
      cases store.lookup name with
      | some handle => simp
      | none => simp [empty, push, eq_comm]

/-- A link goes through exactly for a name that is found, and replaces the storage of that
variable. -/
theorem link_eq_ok {shared : SharedCell} {declared : Declared} :
    store.link name shared = .ok declared ↔
      ∃ handle, store.lookup name = some handle ∧
        declared = ⟨handle, store.withStorage handle (.linked shared)⟩ := by
  unfold link
  cases store.lookup name with
  | none => simp
  | some handle => simp [eq_comm]

/-- A declaration from text that goes through is one of a kind and a value. -/
theorem exists_declareValue_of_declare {typeName : String} {initializer : Option String}
    {declared : Declared} (h : store.declare name typeName initializer = .ok declared) :
    ∃ kind initial, store.declareValue name kind initial = .ok declared := by
  unfold declare at h
  simp only [bind, Except.bind] at h
  split at h
  · cases h
  · split at h
    · cases h
    · exact ⟨_, _, h⟩

/-- Linking the variable that was added last puts it on the shared cell. -/
theorem withStorage_push (store : Store) (v : Variable) (storage : Storage) :
    (store.push v).withStorage ⟨store.size⟩ storage = store.push ⟨v.name, storage⟩ := by
  unfold withStorage push size
  dsimp only
  simp [List.modify_eq_take_cons_drop]

/-- The variable that a declaration added can be linked. -/
theorem link_of_declareValue {kind : Kind} {initial : Value} {declared : Declared}
    (h : store.declareValue name kind initial = .ok declared) (shared : SharedCell) :
    declared.store.link name shared =
      .ok ⟨⟨store.size⟩, store.push ⟨trim name, .linked shared⟩⟩ := by
  obtain ⟨-, -, fresh, rfl⟩ := declareValue_eq_ok.mp h
  refine link_eq_ok.mpr ⟨⟨store.size⟩, ?_, ?_⟩
  · rw [lookup_push fresh, if_pos rfl]
  · rw [withStorage_push]

/-- A new name is linked exactly if it is not empty and the shared cell has a kind that
can be declared: once the variable was declared, nothing can go wrong. -/
theorem declareLinked_eq_ok_of_new {shared : SharedCell} {declared : Declared}
    (fresh : store.lookup name = none) :
    store.declareLinked name shared = .ok declared ↔
      trim name ≠ "" ∧ (store.sharedKind shared).isDeclarable = true ∧
        declared = ⟨⟨store.size⟩, store.push ⟨trim name, .linked shared⟩⟩ := by
  unfold declareLinked
  rw [fresh]
  dsimp only
  generalize hfirst : store.declareValue name (store.sharedKind shared)
    (store.sharedKind shared).zero = first
  cases first with
  | error fault =>
    constructor
    · intro h
      cases h
    · rintro ⟨nonempty, declarable, -⟩
      cases hfirst.symm.trans
        (declareValue_eq_ok.mpr ⟨nonempty, declarable, fresh, rfl⟩)
  | ok first =>
    obtain ⟨nonempty, declarable, -, -⟩ := declareValue_eq_ok.mp hfirst
    simp only [bind, Except.bind, link_of_declareValue hfirst, Except.ok.injEq]
    exact ⟨fun same => ⟨nonempty, declarable, same.symm⟩, fun ⟨_, _, same⟩ => same.symm⟩

/-- A call that goes through either adds a variable under a new name that is not empty or
links the variable of a name that is found. A call that links leaves it a system
variable either way. -/
theorem outcome_eq_ok {call : Call} {declared : Declared}
    (h : call.outcome store = .ok declared) :
    (∃ storage, trim call.name ≠ "" ∧ store.lookup call.name = none ∧
      declared = ⟨⟨store.size⟩, store.push ⟨trim call.name, storage⟩⟩ ∧
      (call.links = true → ∃ shared, storage = .linked shared)) ∨
    (∃ handle shared, call.links = true ∧ store.lookup call.name = some handle ∧
      declared = ⟨handle, store.withStorage handle (.linked shared)⟩) := by
  cases call with
  | declare name typeName initializer =>
    obtain ⟨kind, initial, hvalue⟩ := exists_declareValue_of_declare h
    obtain ⟨nonempty, -, fresh, same⟩ := declareValue_eq_ok.mp hvalue
    exact .inl ⟨_, nonempty, fresh, same, fun links => nomatch links⟩
  | declareValue name kind initial =>
    have direct : store.declareValue name kind initial = .ok declared := h
    obtain ⟨nonempty, -, fresh, same⟩ := declareValue_eq_ok.mp direct
    exact .inl ⟨_, nonempty, fresh, same, fun links => nomatch links⟩
  | link name shared =>
    obtain ⟨handle, found, same⟩ := link_eq_ok.mp h
    exact .inr ⟨handle, shared, rfl, found, same⟩
  | declareLinked name shared =>
    cases hfound : store.lookup name with
    | none =>
      obtain ⟨nonempty, -, same⟩ := (declareLinked_eq_ok_of_new hfound).mp h
      exact .inl ⟨_, nonempty, hfound, same, fun _ => ⟨shared, rfl⟩⟩
    | some handle =>
      have through : store.link name shared = .ok declared := by
        unfold Call.outcome declareLinked at h
        dsimp only at h
        rw [hfound] at h
        exact h
      obtain ⟨found, hlinked, same⟩ := link_eq_ok.mp through
      exact .inr ⟨found, shared, rfl, hlinked, same⟩

/-! ## What every use keeps -/

/-- Every use keeps the names as they should be. -/
theorem Named.after (named : store.Named) (use : Use) : (store.after use).Named := by
  have of_names {other : Store} (same : other.names = store.names) : other.Named := by
    obtain ⟨nonempty, trimmed, distinct⟩ := named
    rw [← same] at nonempty trimmed distinct
    exact ⟨nonempty, trimmed, distinct⟩
  cases use with
  | call call =>
    unfold Store.after
    dsimp only
    cases h : call.outcome store with
    | error fault => exact named
    | ok declared =>
      rcases outcome_eq_ok h with ⟨storage, nonempty, fresh, rfl, -⟩ | ⟨handle, shared, -, -, rfl⟩
      · exact named.push nonempty fresh storage
      · exact of_names (names_withStorage _ _ _)
  | share cell => exact of_names rfl
  | set handle value =>
    unfold Store.after
    dsimp only
    cases h : store.set handle value with
    | error fault => exact named
    | ok written =>
      obtain ⟨-, -, -, -, rfl⟩ := set_eq_ok.mp h
      exact of_names (names_withStorage _ _ _)
  | publish shared value => exact of_names rfl

/-- Every use keeps each variable at its handle, with its name. It keeps what a system
variable is linked to as well, unless it is a call that links this variable again. -/
theorem get?_after {handle : Handle} {v : Variable} (h : store.get? handle = some v)
    (use : Use) :
    ∃ storage, (store.after use).get? handle = some ⟨v.name, storage⟩ ∧
      ∀ shared, v.storage = .linked shared →
        storage = .linked shared ∨
        ∃ call other, use = .call call ∧ call.links = true ∧
          store.lookup call.name = some handle ∧ storage = .linked other := by
  have kept : store.get? handle = some ⟨v.name, v.storage⟩ := h
  cases use with
  | call call =>
    unfold after
    dsimp only
    cases hcall : call.outcome store with
    | error fault => exact ⟨v.storage, kept, fun _ linked => .inl linked⟩
    | ok declared =>
      rcases outcome_eq_ok hcall with ⟨storage, -, -, rfl, -⟩ | ⟨found, other, links, hfound, rfl⟩
      · have inside := (List.getElem?_eq_some_iff.mp h).1
        refine ⟨v.storage, ?_, fun _ linked => .inl linked⟩
        unfold get? push
        rw [List.getElem?_append_left inside]
        exact kept
      · by_cases same : handle = found
        · subst same
          exact ⟨.linked other, get?_withStorage_self h _,
            fun _ _ => .inr ⟨call, other, rfl, links, hfound, rfl⟩⟩
        · refine ⟨v.storage, ?_, fun _ linked => .inl linked⟩
          rw [get?_withStorage_of_ne store same]
          exact kept
  | share cell => exact ⟨v.storage, kept, fun _ linked => .inl linked⟩
  | set target value =>
    unfold after
    dsimp only
    cases hset : store.set target value with
    | error fault => exact ⟨v.storage, kept, fun _ linked => .inl linked⟩
    | ok written =>
      obtain ⟨name, cell, hget, -, rfl⟩ := set_eq_ok.mp hset
      by_cases same : handle = target
      · subst same
        have owned : v = ⟨name, .owned cell⟩ := Option.some.inj (h.symm.trans hget)
        refine ⟨_, get?_withStorage_self h _, fun shared linked => ?_⟩
        rw [owned] at linked
        cases linked
      · refine ⟨v.storage, ?_, fun _ linked => .inl linked⟩
        rw [get?_withStorage_of_ne store same]
        exact kept
  | publish shared value => exact ⟨v.storage, kept, fun _ linked => .inl linked⟩

/-- However a store is used, its names stay as they should be. -/
theorem Named.afterAll (named : store.Named) (uses : List Use) :
    (store.afterAll uses).Named := by
  induction uses generalizing store with
  | nil => exact named
  | cons use uses ih => exact ih (named.after use)

/-- A store that is used was built. -/
theorem Built.after (built : store.Built) (use : Use) : (store.after use).Built := by
  cases use with
  | call call =>
    unfold Store.after
    dsimp only
    cases h : call.outcome store with
    | error fault => exact built
    | ok declared =>
      cases call with
      | declare => exact built.declare h
      | declareValue name kind initial =>
        have direct : store.declareValue name kind initial = .ok declared := h
        exact built.declared direct
      | link => exact built.linked h
      | declareLinked => exact built.declareLinked h
  | share cell => exact built.share cell
  | set handle value =>
    unfold Store.after
    dsimp only
    cases h : store.set handle value with
    | error fault => exact built
    | ok written => exact built.written h
  | publish shared value => exact built.published shared value

/-- However a store is used, it was built. -/
theorem Built.afterAll (built : store.Built) (uses : List Use) :
    (store.afterAll uses).Built := by
  induction uses generalizing store with
  | nil => exact built
  | cons use uses ih => exact ih (built.after use)

/-- However a store is used, each variable stays at its handle with its name, and a system
variable stays one. -/
theorem get?_afterAll {handle : Handle} {v : Variable} (h : store.get? handle = some v)
    (uses : List Use) :
    ∃ later, (store.afterAll uses).get? handle = some later ∧ later.name = v.name ∧
      (v.isSystem = true → later.isSystem = true) := by
  induction uses generalizing store v with
  | nil => exact ⟨v, h, rfl, id⟩
  | cons use uses ih =>
    obtain ⟨storage, hget, linked⟩ := get?_after h use
    obtain ⟨later, hlater, name, system⟩ := ih hget
    refine ⟨later, hlater, name, fun hv => system ?_⟩
    cases hstorage : v.storage with
    | owned cell =>
      rw [Variable.isSystem, hstorage] at hv
      cases hv
    | linked shared =>
      rcases linked shared hstorage with rfl | ⟨-, other, -, -, -, rfl⟩ <;> rfl

/-- A name that is not found after a store was used was not found before. -/
theorem lookup_eq_none_of_afterAll {uses : List Use}
    (h : (store.afterAll uses).lookup name = none) : store.lookup name = none := by
  rw [lookup_eq_none_iff] at h ⊢
  refine fun member => h ?_
  obtain ⟨index, inside, same⟩ := List.getElem_of_mem member
  have named := store.getElem?_names ⟨index⟩
  rw [List.getElem?_eq_getElem inside, same] at named
  obtain ⟨v, hget, hname⟩ := Option.map_eq_some_iff.mp named.symm
  obtain ⟨later, hlater, kept, -⟩ := get?_afterAll hget uses
  have still := (store.afterAll uses).getElem?_names ⟨index⟩
  rw [hlater, Option.map_some, kept, hname] at still
  exact List.mem_of_getElem? still

/-- A system variable refuses all writes. -/
theorem set_of_isSystem {handle : Handle} {v : Variable} (h : store.get? handle = some v)
    (system : v.isSystem = true) (value : Value) :
    store.set handle value = .error (.systemVariable v.name) := by
  unfold set
  rw [h]
  cases hstorage : v.storage with
  | owned cell =>
    rw [Variable.isSystem, hstorage] at system
    cases system
  | linked shared => dsimp only; rw [hstorage]

end Store
end CueRouter
