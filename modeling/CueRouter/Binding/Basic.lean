import CueRouter.Binding.Clause

/-!
# Bindings and chains

A binding says which output answers an input, under which conditions, and how
the fields of the output are computed. The outputs of one declaration form a
chain: its first binding decides for all, and when it matches they fire
together in order.
-/

namespace CueRouter

/-- One compiled output of a declaration. -/
structure Binding where
  /-- The output with every constant field filled in. -/
  prototype : Event
  /-- Whether the input is broadcast again as an echo; the first binding of a
  chain decides. -/
  echo : Bool
  /-- The conditions under which the binding applies. -/
  conditions : List Clause
  /-- The fields computed from each input. -/
  assignments : List Clause
  deriving DecidableEq

namespace Binding

/-- Whether every condition holds. -/
def applies (binding : Binding) (event : Event) (store : Store) : Bool :=
  binding.conditions.all fun clause => clause.holds event store

/-- The output for an input, written over another event. -/
def synthesizeInto (binding : Binding) (input : Event) (store : Store) (output : Event) :
    Event :=
  binding.assignments.foldl (fun output clause => clause.assign input store output)
    (output.copyFrom binding.prototype)

/-- The output for an input. -/
def synthesize (binding : Binding) (input : Event) (store : Store) : Event :=
  binding.assignments.foldl (fun output clause => clause.assign input store output)
    binding.prototype

/-- An output leaves nothing of the event that it is written over. -/
theorem overwrites_synthesizeInto (binding : Binding) (input : Event) (store : Store) :
    Event.Overwrites (binding.synthesizeInto input store)
      (binding.synthesize input store) := by
  intro old
  unfold synthesizeInto synthesize
  rw [Event.copyFrom_eq]

end Binding

/-- The bindings of one declaration, at least one. -/
structure Chain where
  /-- The binding whose conditions and echo flag count. -/
  head : Binding
  /-- The bindings that fire along with it. -/
  tail : List Binding
  deriving DecidableEq

namespace Chain

/-- The chain of bindings given in order, if there are any. -/
def ofList? : List Binding → Option Chain
  | [] => none
  | head :: tail => some ⟨head, tail⟩

/-- The bindings in order. -/
def toList (chain : Chain) : List Binding := chain.head :: chain.tail

/-- A binding and whether the next one fires along with it. -/
structure Link where
  /-- The binding. -/
  binding : Binding
  /-- Whether the chain goes on after it. -/
  continued : Bool
  deriving DecidableEq

/-- Bindings in order, each marked as continued but the last. -/
def linksOf : List Binding → List Link
  | [] => []
  | [last] => [⟨last, false⟩]
  | binding :: next :: rest => ⟨binding, true⟩ :: linksOf (next :: rest)

/-- The bindings of the chain, each marked as continued but the last. -/
def links (chain : Chain) : List Link := linksOf chain.toList

/-- The bindings at the front that fire along with the one before them, if that
one is continued. -/
def follow : (continued : Bool) → List Link → List Binding
  | _, [] => []
  | true, link :: rest => link.binding :: follow link.continued rest
  | false, _ :: _ => []

/-- The chains of a run of links, without the bindings at the front that belong
to a chain begun before if there is one. -/
def chainsFrom : (within : Bool) → List Link → List Chain
  | _, [] => []
  | true, link :: rest => chainsFrom link.continued rest
  | false, link :: rest =>
    ⟨link.binding, follow link.continued rest⟩ :: chainsFrom link.continued rest

/-- The chains that lie one behind another in a run of links: each begins where
the one before is not continued any more. -/
def ofLinks (links : List Link) : List Chain := chainsFrom false links

theorem map_binding_linksOf (bindings : List Binding) :
    (linksOf bindings).map Link.binding = bindings := by
  fun_induction linksOf bindings with
  | case1 => rfl
  | case2 => rfl
  | case3 binding next rest ih => rw [List.map_cons, ih]

/-- The first binding is continued exactly when there are others. -/
theorem linksOf_cons (binding : Binding) (rest : List Binding) :
    linksOf (binding :: rest) = ⟨binding, !rest.isEmpty⟩ :: linksOf rest := by
  cases rest <;> rfl

/-- The bindings that follow stop where their chain does. -/
theorem follow_linksOf (bindings : List Binding) (others : List Link) :
    follow (!bindings.isEmpty) (linksOf bindings ++ others) = bindings := by
  induction bindings with
  | nil => cases others <;> rfl
  | cons binding bindings ih =>
    rw [linksOf_cons, List.cons_append]
    exact congrArg (binding :: ·) ih

/-- Leaving out the rest of a chain ends where the chain does. -/
theorem chainsFrom_linksOf (bindings : List Binding) (others : List Link) :
    chainsFrom (!bindings.isEmpty) (linksOf bindings ++ others) = ofLinks others := by
  induction bindings with
  | nil => rfl
  | cons binding bindings ih =>
    rw [linksOf_cons, List.cons_append]
    exact ih

/-- A chain in front is cut off whole, and nothing of the others goes with it. -/
theorem ofLinks_links_append (chain : Chain) (others : List Link) :
    ofLinks (chain.links ++ others) = chain :: ofLinks others := by
  rw [links, toList, linksOf_cons, List.cons_append, ofLinks, chainsFrom,
    follow_linksOf, chainsFrom_linksOf]

/-- Chains laid one behind another are read back one by one. -/
theorem ofLinks_flatMap_links (chains : List Chain) :
    ofLinks (chains.flatMap links) = chains := by
  induction chains with
  | nil => rfl
  | cons chain chains ih =>
    rw [List.flatMap_cons, ofLinks_links_append, ih]

end Chain

end CueRouter
