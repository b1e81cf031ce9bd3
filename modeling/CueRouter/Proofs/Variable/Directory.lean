import CueRouter.Proofs.Variable.Naming

/-!
# Declaring in place

A directory keeps an index of the names beside the variables and brings both up to date
in place, a call at a time. The index always has what a search of the names would find,
and a call that fails has changed nothing by then. Linking a new name is done in two
steps, of which the second cannot fail.
-/

namespace CueRouter

open Text

/-- A store with an index of its names beside it. -/
structure Directory where
  /-- The variables and the shared cells. -/
  store : Store := .empty
  /-- The handles by trimmed name. -/
  index : List (String × Handle) := []

namespace Directory

/-- The handle under exactly this name. -/
def find (directory : Directory) (name : String) : Option Handle :=
  directory.index.lookup name

/-- The handle of the variable with this name, blank ends aside. -/
def lookup (directory : Directory) (name : String) : Option Handle :=
  directory.find (trim name)

/-- What a call does in place. -/
abbrev Update (α : Type) : Type := ExceptT ConfigFault (StateM Directory) α

/-- Put another variable behind the others. -/
def add (v : Variable) : Update Unit :=
  modify fun directory => { directory with store := directory.store.push v }

/-- Put a name into the index. -/
def enter (name : String) (handle : Handle) : Update Unit :=
  modify fun directory => { directory with index := (name, handle) :: directory.index }

/-- Replace the storage of a variable. -/
def restore (handle : Handle) (storage : Storage) : Update Unit :=
  modify fun directory =>
    { directory with store := directory.store.withStorage handle storage }

/-- Declare a variable of the given kind and first value. -/
def declareValue (name : String) (kind : Kind) (initial : Value) : Update Handle :=
  let name := trim name
  if name.isEmpty then throw (.malformedToken name)
  else if !kind.isDeclarable then throw (.unsupportedVariableType kind.name)
  else do
    let directory ← get
    if (directory.find name).isSome then throw (.duplicateVariable name)
    else
      let handle : Handle := ⟨directory.store.size⟩
      add ⟨name, .owned (.ofKind kind initial)⟩
      enter name handle
      return handle

/-- Declare a variable from configuration text. -/
def declare (name typeName : String) (initializer : Option String) : Update Handle := do
  let kind ← Store.declaredKind typeName
  let initial ← Store.declaredValue kind initializer
  declareValue name kind initial

/-- Turn a declared variable into a system variable on a shared cell. -/
def link (name : String) (shared : SharedCell) : Update Handle := do
  let directory ← get
  match directory.lookup name with
  | some handle =>
    restore handle (.linked shared)
    return handle
  | none => throw (.unknownVariable name)

/-- Link a variable to a shared cell, declaring it first if need be. -/
def declareLinked (name : String) (shared : SharedCell) : Update Handle := do
  let directory ← get
  match directory.lookup name with
  | some _ => link name shared
  | none =>
    let kind := directory.store.sharedKind shared
    let _ ← declareValue name kind kind.zero
    link name shared

/-- What the call does in place. -/
def update : Call → Update Handle
  | .declare name typeName initializer => declare name typeName initializer
  | .declareValue name kind initial => declareValue name kind initial
  | .link name shared => link name shared
  | .declareLinked name shared => declareLinked name shared

/-- The answer of a call and the directory it leaves. -/
def perform {α : Type} (directory : Directory) (update : Update α) :
    Except ConfigFault α × Directory :=
  update.run.run directory

/-- The directory after its store was used. -/
def after (directory : Directory) : Use → Directory
  | .call call => (directory.perform (update call)).2
  | use => { directory with store := directory.store.after use }

/-- The directory after its store was used a number of times. -/
def afterAll (directory : Directory) (uses : List Use) : Directory :=
  uses.foldl after directory

/-! ## The index beside the search -/

/-- The index has what a search of the names finds. -/
def Agrees (directory : Directory) : Prop :=
  ∀ name, directory.lookup name = directory.store.lookup name

/-- What an update in place may answer and leave, by its outcome: the store of the outcome
with an index that agrees with it, or, where it fails, everything as it was. -/
inductive Settles (directory : Directory) :
    Except ConfigFault Store.Declared → Except ConfigFault Handle × Directory → Prop
  /-- The update went through. -/
  | ok {declared : Store.Declared} {index : List (String × Handle)}
      (agrees : (⟨declared.store, index⟩ : Directory).Agrees) :
      Settles directory (.ok declared) (.ok declared.handle, ⟨declared.store, index⟩)
  /-- The update failed. -/
  | error (fault : ConfigFault) : Settles directory (.error fault) (.error fault, directory)

/-- An update does in place what the outcome describes. -/
def Performs (update : Update Handle)
    (outcome : Store → Except ConfigFault Store.Declared) : Prop :=
  ∀ directory : Directory, directory.Agrees →
    directory.Settles (outcome directory.store) (directory.perform update)

section

variable {α β : Type} (directory : Directory)

@[simp] theorem perform_get :
    directory.perform (get : Update Directory) = (.ok directory, directory) := rfl

@[simp] theorem perform_lift (answer : Except ConfigFault α) :
    directory.perform (liftM answer : Update α) = (answer, directory) := by
  cases answer <;> rfl

/-- One update is followed by another on the directory that it leaves, unless it failed. -/
@[simp] theorem perform_bind (first : Update α) (next : α → Update β) :
    directory.perform (first >>= next) =
      match directory.perform first with
      | (.ok answer, between) => between.perform (next answer)
      | (.error fault, between) => (.error fault, between) := by
  unfold perform
  rw [ExceptT.run_bind, StateT.run_bind]
  rcases StateT.run (ExceptT.run first) directory with ⟨_ | _, _⟩ <;> rfl

end

/-- The index agrees with the search after a variable was added under a new name. -/
theorem Agrees.push {directory : Directory} (agrees : directory.Agrees) {name : String}
    (fresh : directory.store.lookup name = none) (storage : Storage) :
    (⟨directory.store.push ⟨trim name, storage⟩,
      (trim name, ⟨directory.store.size⟩) :: directory.index⟩ : Directory).Agrees := by
  intro other
  rw [Store.lookup_push fresh]
  unfold lookup find
  dsimp only
  rw [List.lookup_cons]
  by_cases same : trim other = trim name
  · rw [if_pos same, same, beq_self_eq_true]
  · rw [if_neg same, beq_eq_false_iff_ne.mpr same]
    exact agrees other

/-- The index agrees with the search after the storage of a variable was replaced. -/
theorem Agrees.withStorage {directory : Directory} (agrees : directory.Agrees)
    (handle : Handle) (storage : Storage) :
    (⟨directory.store.withStorage handle storage, directory.index⟩ : Directory).Agrees := by
  intro other
  rw [Store.lookup_eq, Store.names_withStorage, ← Store.lookup_eq]
  exact agrees other

/-- Declaring in place. -/
theorem performs_declareValue (name : String) (kind : Kind) (initial : Value) :
    Performs (declareValue name kind initial) (·.declareValue name kind initial) := by
  intro directory agrees
  have search : directory.find (trim name) = directory.store.lookup name := agrees name
  have again : directory.store.lookup (trim name) = directory.store.lookup name := by
    rw [Store.lookup_eq, Store.lookup_eq, trim_trim]
  unfold declareValue Store.declareValue
  dsimp only
  rw [again]
  by_cases empty : (trim name).isEmpty = true
  · rw [if_pos empty, if_pos empty]
    exact .error _
  · rw [if_neg empty, if_neg empty]
    by_cases refused : (!kind.isDeclarable) = true
    · rw [if_pos refused, if_pos refused]
      exact .error _
    · rw [if_neg refused, if_neg refused, perform_bind, perform_get]
      dsimp only
      rw [search]
      cases found : directory.store.lookup name with
      | some handle => exact .error _
      | none => exact .ok (agrees.push found _)

/-- Declaring from text in place. -/
theorem performs_declare (name typeName : String) (initializer : Option String) :
    Performs (declare name typeName initializer)
      (·.declare name typeName initializer) := by
  intro directory agrees
  unfold declare Store.declare
  dsimp only
  rw [perform_bind, perform_lift]
  cases Store.declaredKind typeName with
  | error fault => exact .error fault
  | ok kind =>
    dsimp only
    rw [perform_bind, perform_lift]
    cases hvalue : Store.declaredValue kind initializer with
    | error fault =>
      simp only [bind, Except.bind, hvalue]
      exact .error fault
    | ok initial =>
      simp only [bind, Except.bind, hvalue]
      exact performs_declareValue name kind initial directory agrees

/-- Linking in place. -/
theorem performs_link (name : String) (shared : SharedCell) :
    Performs (link name shared) (·.link name shared) := by
  intro directory agrees
  unfold link Store.link
  rw [perform_bind, perform_get]
  dsimp only
  rw [agrees name]
  cases directory.store.lookup name with
  | none => exact .error _
  | some handle => exact .ok (agrees.withStorage handle _)

/-- Linking and declaring in place: of the two steps that a new name takes, the second
goes through whenever the first did. -/
theorem performs_declareLinked (name : String) (shared : SharedCell) :
    Performs (declareLinked name shared) (·.declareLinked name shared) := by
  intro directory agrees
  have linked := performs_link name shared
  unfold declareLinked Store.declareLinked
  rw [perform_bind, perform_get]
  dsimp only
  rw [agrees name]
  cases found : directory.store.lookup name with
  | some handle => exact linked directory agrees
  | none =>
    dsimp only
    rw [perform_bind]
    let kind := directory.store.sharedKind shared
    have first : directory.Settles (directory.store.declareValue name kind kind.zero)
        (directory.perform (declareValue name kind kind.zero)) :=
      performs_declareValue name kind kind.zero directory agrees
    show directory.Settles (directory.store.declareValue name kind kind.zero >>= _) _
    generalize hfirst : directory.store.declareValue name kind kind.zero = outcome at first ⊢
    generalize directory.perform (declareValue name kind kind.zero) = left at first ⊢
    cases first with
    | error fault => exact .error fault
    | @ok declared index between =>
      have second := linked _ between
      show directory.Settles (declared.store.link name shared)
        (Directory.perform ⟨declared.store, index⟩ (link name shared))
      dsimp only at second
      rw [Store.link_of_declareValue hfirst] at second ⊢
      generalize Directory.perform ⟨declared.store, index⟩ (link name shared) = left at second ⊢
      cases second with
      | ok after => exact .ok after

/-- Every call does in place what its outcome describes. -/
theorem performs_update (call : Call) : Performs (update call) call.outcome := by
  cases call with
  | declare name typeName initializer => exact performs_declare name typeName initializer
  | declareValue name kind initial => exact performs_declareValue name kind initial
  | link name shared => exact performs_link name shared
  | declareLinked name shared => exact performs_declareLinked name shared

/-! ## Directories that were filled -/

variable {directory : Directory}

/-- Using a directory does with its store what the use does with a store, and brings the
index along. -/
theorem Agrees.after (agrees : directory.Agrees) (use : Use) :
    (directory.after use).Agrees ∧
      (directory.after use).store = directory.store.after use := by
  cases use with
  | call call =>
    have settles := performs_update call directory agrees
    unfold Directory.after Store.after
    dsimp only
    generalize call.outcome directory.store = outcome at settles ⊢
    generalize directory.perform (update call) = left at settles ⊢
    cases settles with
    | ok agrees => exact ⟨agrees, rfl⟩
    | error fault => exact ⟨agrees, rfl⟩
  | share cell => exact ⟨agrees, rfl⟩
  | set handle value =>
    refine ⟨?_, rfl⟩
    unfold Directory.after Store.after
    dsimp only
    cases h : directory.store.set handle value with
    | error fault => exact agrees
    | ok written =>
      obtain ⟨name, cell, -, -, rfl⟩ := Store.set_eq_ok.mp h
      exact agrees.withStorage handle _
  | publish shared value => exact ⟨agrees, rfl⟩

/-- However a directory is used, the index agrees with the search. -/
theorem Agrees.afterAll (agrees : directory.Agrees) (uses : List Use) :
    (directory.afterAll uses).Agrees ∧
      (directory.afterAll uses).store = directory.store.afterAll uses := by
  induction uses generalizing directory with
  | nil => exact ⟨agrees, rfl⟩
  | cons use uses ih =>
    obtain ⟨next, same⟩ := agrees.after use
    obtain ⟨last, run⟩ := ih next
    refine ⟨last, ?_⟩
    show ((directory.after use).afterAll uses).store = (directory.store.after use).afterAll uses
    rw [run, same]

/-- Names and handles determine each other for good, and calls that fail change
nothing. -/
structure Corresponds (directory : Directory) : Prop where
  /-- The names are trimmed, not empty and distinct. -/
  named : directory.store.Named
  /-- The index has what a search of the names finds. -/
  agrees : directory.Agrees
  /-- The name of a variable leads to its handle, whatever blank characters surround it. -/
  lookup_name : ∀ handle v before after, directory.store.get? handle = some v →
    Blank before.toList → Blank after.toList →
      directory.lookup (before ++ v.name ++ after) = some handle
  /-- A handle that is found is that of the variable with the name. -/
  found : ∀ name handle, directory.lookup name = some handle →
    ∃ v, directory.store.get? handle = some v ∧ v.name = trim name
  /-- No other name leads anywhere. -/
  lookup_other : ∀ name, trim name ∉ directory.store.names → directory.lookup name = none
  /-- A call does in place what it does to a store, and nothing where it fails. -/
  settles : ∀ call, directory.Settles (call.outcome directory.store)
    (directory.perform (update call))
  /-- The handle that a call returned has the name of the call however the directory is
  used later, and after a link it is never written to. -/
  returned : ∀ call handle left, directory.perform (update call) = (.ok handle, left) →
    ∀ later, (∃ v, (left.afterAll later).store.get? handle = some v ∧
        v.name = trim call.name) ∧
      (call.links = true → ∀ value, (left.afterAll later).store.set handle value =
        .error (.systemVariable (trim call.name)))
  /-- A call that fails leaves everything as it was. -/
  failed : ∀ call fault left, directory.perform (update call) = (.error fault, left) →
    left = directory
  /-- Linking a variable, declared first if need be, fails exactly for a new name that is
  empty or meant for a shared cell of a kind that cannot be declared. -/
  declareLinked_fails : ∀ name shared,
    (∃ fault left, directory.perform (declareLinked name shared) = (.error fault, left)) ↔
      directory.lookup name = none ∧
        (trim name = "" ∨ (directory.store.sharedKind shared).isDeclarable = false)

/-- The handle that a call returned is that of a variable with the name of the call, a
system variable if the call links. -/
theorem get?_of_outcome {store : Store} (named : store.Named) {call : Call}
    {declared : Store.Declared} (h : call.outcome store = .ok declared) :
    ∃ v, declared.store.get? declared.handle = some v ∧ v.name = trim call.name ∧
      (call.links = true → v.isSystem = true) := by
  rcases Store.outcome_eq_ok h with ⟨storage, -, -, rfl, linked⟩ | ⟨handle, shared, -, found, rfl⟩
  · refine ⟨⟨trim call.name, storage⟩, ?_, rfl, fun links => ?_⟩
    · unfold Store.get? Store.push Store.size
      rw [List.getElem?_append_right (Nat.le_refl _), Nat.sub_self]
      rfl
    · obtain ⟨shared, rfl⟩ := linked links
      rfl
  · obtain ⟨v, hget, name⟩ := Option.map_eq_some_iff.mp (named.lookup_eq_some_iff.mp found)
    exact ⟨_, Store.get?_withStorage_self hget _, name, fun _ => rfl⟩

/-- A link of a name fails exactly where declaring it first would. -/
theorem declareLinked_eq_error_iff {store : Store} {name : String} {shared : SharedCell} :
    (∃ fault, store.declareLinked name shared = .error fault) ↔
      store.lookup name = none ∧
        (trim name = "" ∨ (store.sharedKind shared).isDeclarable = false) := by
  cases found : store.lookup name with
  | some handle =>
    have through : store.declareLinked name shared =
        .ok ⟨handle, store.withStorage handle (.linked shared)⟩ := by
      unfold Store.declareLinked Store.link
      rw [found]
    simp [through]
  | none =>
    by_cases good : trim name ≠ "" ∧ (store.sharedKind shared).isDeclarable = true
    · obtain ⟨nonempty, declarable⟩ := good
      have through := (Store.declareLinked_eq_ok_of_new found).mpr
        ⟨nonempty, declarable, rfl⟩
      simp [through, nonempty, declarable]
    · refine ⟨fun _ => ⟨rfl, ?_⟩, fun _ => ?_⟩
      · rw [not_and_or, not_not, Bool.not_eq_true] at good
        exact good
      · cases h : store.declareLinked name shared with
        | error fault => exact ⟨fault, rfl⟩
        | ok declared =>
          obtain ⟨nonempty, declarable, -⟩ := (Store.declareLinked_eq_ok_of_new found).mp h
          exact absurd ⟨nonempty, declarable⟩ good

/-- A directory whose names are as they should be and whose index agrees with them
corresponds to its handles. -/
theorem Corresponds.of_named (named : directory.store.Named) (agrees : directory.Agrees) :
    directory.Corresponds where
  named := named
  agrees := agrees
  lookup_name := by
    intro handle v before after hget hbefore hafter
    rw [agrees, named.lookup_eq_some_iff, trim_append hbefore hafter, hget,
      Option.map_some]
    have member : v.name ∈ directory.store.names :=
      List.mem_map_of_mem (List.mem_of_getElem? hget)
    rw [named.trimmed v.name member]
  found := by
    intro name handle h
    rw [agrees, named.lookup_eq_some_iff] at h
    exact Option.map_eq_some_iff.mp h
  lookup_other := by
    intro name absent
    rw [agrees]
    exact Store.lookup_eq_none_iff.mpr absent
  settles := fun call => performs_update call directory agrees
  returned := by
    intro call handle left answer later
    have settles := performs_update call directory agrees
    rw [answer] at settles
    generalize houtcome : call.outcome directory.store = outcome at settles
    cases settles with
    | @ok declared index next =>
      obtain ⟨v, hget, name, system⟩ := get?_of_outcome named houtcome
      obtain ⟨last, hlast, same, still⟩ := Store.get?_afterAll hget later
      rw [(next.afterAll later).2]
      refine ⟨⟨last, hlast, same.trans name⟩, fun links value => ?_⟩
      rw [Store.set_of_isSystem hlast (still (system links)), same, name]
  failed := by
    intro call fault left answer
    have settles := performs_update call directory agrees
    rw [answer] at settles
    generalize call.outcome directory.store = outcome at settles
    cases settles
    rfl
  declareLinked_fails := by
    intro name shared
    rw [agrees, ← declareLinked_eq_error_iff]
    have settles := performs_declareLinked name shared directory agrees
    dsimp only at settles
    generalize directory.store.declareLinked name shared = outcome at settles ⊢
    generalize directory.perform (declareLinked name shared) = left at settles ⊢
    cases settles with
    | ok next => simp
    | error fault => simp

/-- Whatever calls are made of an empty directory, and whatever is shared and written in
between, names and handles determine each other for good and calls that failed have
changed nothing. The store is the one that the same calls make without an index. -/
theorem corresponds_afterAll (uses : List Use) :
    (Directory.afterAll {} uses).Corresponds ∧
      (Directory.afterAll {} uses).store = Store.empty.afterAll uses := by
  have start : ({} : Directory).Agrees := fun _ => rfl
  obtain ⟨agrees, same⟩ := start.afterAll uses
  refine ⟨Corresponds.of_named ?_ agrees, same⟩
  rw [same]
  exact Store.Named.empty.afterAll uses

end Directory

end CueRouter
