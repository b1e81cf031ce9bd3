import CueRouter.Proofs.Variable.Write

/-!
# What never changes about a variable

A variable keeps its name, its kind and whether it owns its cell, whatever is written
to it. A store that was filled by declarations, links and writes is sound: every
variable with a cell of its own has a kind that can be declared and holds a value of
exactly that kind.
-/

namespace CueRouter

/-- The shared cell that a system variable is linked to. -/
def Variable.link? (v : Variable) : Option SharedCell :=
  match v.storage with
  | .owned _ => none
  | .linked shared => some shared

/-- What there is to know of a variable besides its value. -/
structure Outline where
  /-- The name. -/
  name : String
  /-- The kind. -/
  kind : Kind
  /-- The shared cell that it is linked to, if it is a system variable. -/
  link? : Option SharedCell
  deriving DecidableEq

namespace Store

/-- The outline of the variable at a handle. -/
def outline? (store : Store) (handle : Handle) : Option Outline :=
  (store.get? handle).map fun v => ⟨v.name, store.kindOf v, v.link?⟩

/-- Every variable with a cell of its own holds a value of its kind, which is one that
can be declared. -/
def Sound (store : Store) : Prop :=
  ∀ handle name cell, store.get? handle = some ⟨name, .owned cell⟩ →
    cell.kind.isDeclarable = true ∧ cell.content.kind = cell.kind

variable {store : Store}

/-! ## Writes of events -/

/-- The kind of any value cannot be declared. -/
theorem ne_any_of_isDeclarable {kind : Kind} (declarable : kind.isDeclarable = true) :
    kind ≠ .any := by
  rintro rfl
  cases declarable

/-- A cell of a kind that can be declared holds an accepted value from then on. -/
theorem content_write_of_isDeclarable {cell : Cell} {value : Value}
    (declarable : cell.kind.isDeclarable = true)
    (accepted : (cell.accepts value).isValid = true) :
    (cell.write value).content = cell.accepts value := by
  exact Cell.content_write_of_accepted (Value.isValid_iff.mp accepted)
    (ne_any_of_isDeclarable declarable) (Kind.fitsWord_convert declarable value)

/-- A cell that accepts a value holds one of its kind from then on. -/
theorem kind_content_write {cell : Cell} {value : Value}
    (declarable : cell.kind.isDeclarable = true)
    (accepted : (cell.accepts value).isValid = true) :
    (cell.write value).content.kind = cell.kind := by
  have special := ne_any_of_isDeclarable declarable
  have valid := Value.isValid_iff.mp accepted
  rw [content_write_of_isDeclarable declarable accepted]
  exact (value.kind_convert special).resolve_right valid

/-- A write keeps the outlines of all variables. -/
theorem outline?_of_set {handle : Handle} {value : Value} {written : Written}
    (h : store.set handle value = .ok written) (other : Handle) :
    written.store.outline? other = store.outline? other := by
  obtain ⟨name, cell, hget, -, rfl⟩ := set_eq_ok.mp h
  have kinds : ∀ v, (store.withStorage handle (.owned (cell.write value))).kindOf v =
      store.kindOf v := by
    intro v
    unfold kindOf
    cases v.storage <;> rfl
  unfold outline?
  dsimp only
  by_cases same : other = handle
  · rw [same, get?_withStorage_self hget, hget]
    simp only [Option.map_some, kindOf, Variable.link?, Cell.kind_write]
  · rw [get?_withStorage_of_ne store same]
    simp only [kinds]

/-- A write keeps a store sound. -/
theorem Sound.set (sound : store.Sound) {handle : Handle} {value : Value}
    {written : Written} (h : store.set handle value = .ok written) :
    written.store.Sound := by
  obtain ⟨name, cell, hget, accepted, rfl⟩ := set_eq_ok.mp h
  have declarable := (sound handle name cell hget).1
  intro other otherName held hother
  by_cases same : other = handle
  · rw [same, get?_withStorage_self hget] at hother
    cases hother
    rw [Cell.kind_write]
    exact ⟨declarable, kind_content_write declarable accepted⟩
  · rw [get?_withStorage_of_ne store same] at hother
    exact sound other otherName held hother

/-- In a sound store, a variable that was written to has the value that was stored. -/
theorem Sound.value_of_set (sound : store.Sound) {handle : Handle} {value : Value}
    {written : Written} (h : store.set handle value = .ok written) :
    written.store.value handle = written.stored := by
  obtain ⟨name, cell, hget, accepted, rfl⟩ := set_eq_ok.mp h
  have declarable := (sound handle name cell hget).1
  dsimp only
  rw [value_write_self hget]
  exact content_write_of_isDeclarable declarable accepted

/-- A write changes no shared cell. -/
theorem shared_of_set {handle : Handle} {value : Value} {written : Written}
    (h : store.set handle value = .ok written) : written.store.shared = store.shared := by
  obtain ⟨name, cell, -, -, rfl⟩ := set_eq_ok.mp h
  rfl

/-! ## Writes of owners -/

variable (store) (shared : SharedCell) (value : Value)

/-- Publishing changes no other shared cell. -/
theorem cell?_publish_of_ne {other : SharedCell} (h : other ≠ shared) :
    (store.publish shared value).cell? other = store.cell? other := by
  have hindex : shared.index ≠ other.index := by
    intro same
    exact h (congrArg SharedCell.mk same.symm)
  unfold cell? publish
  dsimp only
  rw [List.getElem?_modify_ne _ _ hindex]

/-- Publishing keeps the kind of every shared cell. -/
theorem sharedKind_publish (other : SharedCell) :
    (store.publish shared value).sharedKind other = store.sharedKind other := by
  by_cases same : other = shared
  · subst same
    unfold sharedKind cell? publish
    dsimp only
    rw [List.getElem?_modify_eq]
    cases store.shared[other.index]? with
    | none => rfl
    | some cell => exact cell.kind_write value
  · unfold sharedKind
    rw [cell?_publish_of_ne store shared value same]

/-- Publishing keeps the outlines of all variables. -/
theorem outline?_publish (handle : Handle) :
    (store.publish shared value).outline? handle = store.outline? handle := by
  have kinds : ∀ v, (store.publish shared value).kindOf v = store.kindOf v := by
    intro v
    unfold kindOf
    cases v.storage with
    | owned cell => rfl
    | linked other => exact sharedKind_publish store shared value other
  unfold outline?
  simp only [kinds]
  rfl

variable {store}

/-! ## Stores that were built -/

/-- The stores there are: filled by declarations and links, and written to. -/
inductive Built : Store → Prop
  /-- A store with nothing in it. -/
  | empty : Built .empty
  /-- A store after a shared cell was offered. -/
  | share {store : Store} (built : Built store) (cell : Cell) : Built (store.share cell)
  /-- A store after a variable was declared. -/
  | declared {store : Store} {name : String} {kind : Kind} {initial : Value}
      {declared : Declared} (built : Built store)
      (h : store.declareValue name kind initial = .ok declared) : Built declared.store
  /-- A store after a variable was linked to a shared cell. -/
  | linked {store : Store} {name : String} {shared : SharedCell} {declared : Declared}
      (built : Built store) (h : store.link name shared = .ok declared) :
      Built declared.store
  /-- A store after an event wrote to a variable. -/
  | written {store : Store} {handle : Handle} {value : Value} {written : Written}
      (built : Built store) (h : store.set handle value = .ok written) :
      Built written.store
  /-- A store after an owner wrote to a shared cell. -/
  | published {store : Store} (built : Built store) (shared : SharedCell)
      (value : Value) : Built (store.publish shared value)

/-- Declarations from configuration text build a store. -/
theorem Built.declare {name typeName : String} {initializer : Option String}
    {declared : Declared} (built : store.Built)
    (h : store.declare name typeName initializer = .ok declared) :
    declared.store.Built := by
  unfold Store.declare at h
  simp only [bind, Except.bind] at h
  split at h
  · cases h
  · split at h
    · cases h
    · exact built.declared h

/-- Declarations of system variables build a store. -/
theorem Built.declareLinked {name : String} {shared : SharedCell} {declared : Declared}
    (built : store.Built) (h : store.declareLinked name shared = .ok declared) :
    declared.store.Built := by
  unfold Store.declareLinked at h
  split at h
  · exact built.linked h
  · simp only [bind, Except.bind] at h
    split at h
    · cases h
    · next first hfirst => exact (built.declared hfirst).linked h

/-- A declaration keeps a store sound. -/
theorem Sound.declareValue (sound : store.Sound) {name : String} {kind : Kind}
    {initial : Value} {declared : Declared}
    (h : store.declareValue name kind initial = .ok declared) : declared.store.Sound := by
  unfold Store.declareValue at h
  dsimp only at h
  split at h
  · cases h
  · split at h
    · cases h
    · next declarable =>
      rw [Bool.not_eq_true', Bool.not_eq_false] at declarable
      split at h
      · cases h
      · cases h
        intro handle otherName cell hget
        unfold get? at hget
        dsimp only at hget
        rcases Nat.lt_or_ge handle.index store.entries.length with before | behind
        · rw [List.getElem?_append_left before] at hget
          exact sound handle otherName cell hget
        · rw [List.getElem?_append_right behind] at hget
          cases List.mem_singleton.mp (List.mem_of_getElem? hget)
          exact ⟨declarable, Kind.kind_keep declarable _⟩

/-- A linked variable has no cell of its own. -/
theorem not_owned_withStorage_linked (store : Store) (handle : Handle)
    (shared : SharedCell) (name : String) (cell : Cell) :
    (store.withStorage handle (.linked shared)).get? handle ≠ some ⟨name, .owned cell⟩ := by
  intro owned
  unfold get? withStorage at owned
  dsimp only at owned
  rw [List.getElem?_modify_eq] at owned
  cases h : store.entries[handle.index]? <;> rw [h] at owned <;> cases owned

/-- A link keeps a store sound. -/
theorem Sound.link (sound : store.Sound) {name : String} {shared : SharedCell}
    {declared : Declared} (h : store.link name shared = .ok declared) :
    declared.store.Sound := by
  unfold Store.link at h
  split at h
  · next handle _ =>
    cases h
    intro other otherName cell hother
    by_cases same : other = handle
    · subst same
      exact absurd hother (not_owned_withStorage_linked store other shared otherName cell)
    · rw [get?_withStorage_of_ne store same] at hother
      exact sound other otherName cell hother
  · cases h

/-- Every store that was built is sound. -/
theorem Built.sound (built : store.Built) : store.Sound := by
  induction built with
  | empty =>
    intro handle name cell h
    unfold get? Store.empty at h
    cases h
  | share _ cell ih => exact ih
  | declared _ h ih => exact ih.declareValue h
  | linked _ h ih => exact ih.link h
  | written _ h ih => exact ih.set h
  | published _ shared value ih => exact ih

end Store

end CueRouter
