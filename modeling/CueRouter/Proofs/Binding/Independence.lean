import CueRouter.Proofs.Binding.Installation
import CueRouter.Proofs.Binding.Lookup

/-!
# Interfaces do not disturb each other

The calls of two interfaces can reach the compiler in any order of arrival, and their
chains share buckets. As long as no condition names the interface field, the first
binding of every chain asks for its own interface, so an event passes over all chains of
the other one. What answers an event does not depend on how the calls came between each
other.
-/

namespace CueRouter

/-! ## Interleavings -/

/-- A list is made of two others, each in its own order. -/
inductive Interleaves {α : Type} : List α → List α → List α → Prop
  /-- Nothing is left of either. -/
  | nil : Interleaves [] [] []
  /-- The first list comes next. -/
  | left (x : α) {xs ys zs : List α} (rest : Interleaves xs ys zs) :
      Interleaves (x :: xs) ys (x :: zs)
  /-- The second list comes next. -/
  | right (y : α) {xs ys zs : List α} (rest : Interleaves xs ys zs) :
      Interleaves xs (y :: ys) (y :: zs)

namespace Interleaves

variable {α : Type} {xs ys zs : List α}

/-- The two lists can change places. -/
theorem symm (h : Interleaves xs ys zs) : Interleaves ys xs zs := by
  induction h with
  | nil => exact .nil
  | left x _ ih => exact .right x ih
  | right y _ ih => exact .left y ih

/-- One list may come behind the other. -/
theorem append (xs ys : List α) : Interleaves xs ys (xs ++ ys) := by
  induction xs with
  | nil =>
    induction ys with
    | nil => exact .nil
    | cons y ys ih => exact .right y ih
  | cons x xs ih => exact .left x ih

/-- What occurs in the list occurs in one of the two. -/
theorem any_eq (h : Interleaves xs ys zs) (p : α → Bool) :
    zs.any p = (xs.any p || ys.any p) := by
  induction h with
  | nil => rfl
  | left x _ ih => rw [List.any_cons, List.any_cons, ih, Bool.or_assoc]
  | right y _ ih => rw [List.any_cons, List.any_cons, ih, Bool.or_left_comm]

/-- A search that passes over the second list is a search through the first. -/
theorem find?_eq_left (h : Interleaves xs ys zs) {p : α → Bool}
    (passes : ∀ y ∈ ys, p y = false) : zs.find? p = xs.find? p := by
  induction h with
  | nil => rfl
  | left x _ ih => rw [List.find?_cons, List.find?_cons, ih passes]
  | right y _ ih =>
    rw [List.find?_cons, passes y List.mem_cons_self]
    exact ih fun other hother => passes other (List.mem_cons_of_mem _ hother)

/-- A search that passes over one of the two lists finds the same however they come
between each other. -/
theorem find?_congr {ws : List α} (h : Interleaves xs ys zs) (k : Interleaves xs ys ws)
    {p : α → Bool} (passes : (∀ x ∈ xs, p x = false) ∨ ∀ y ∈ ys, p y = false) :
    zs.find? p = ws.find? p := by
  rcases passes with first | second
  · rw [h.symm.find?_eq_left first, k.symm.find?_eq_left first]
  · rw [h.find?_eq_left second, k.find?_eq_left second]

end Interleaves

/-! ## The call that answers an event -/

/-- The conditions of a compilation are those of the first binding of its chain. -/
theorem Compilation.headApplies_eq_of_chain? {c : Compilation} {chain : Chain}
    (h : c.chain? = some chain) (event : Event) (store : Store) :
    c.headApplies event store = chain.head.applies event store := by
  unfold chain? at h
  unfold headApplies
  cases hb : c.bindings with
  | nil =>
    rw [hb] at h
    cases h
  | cons head tail =>
    rw [hb] at h
    cases h
    rfl

namespace Compiler

variable {compiler : Compiler} {calls : List Call} {event : Event} {store : Store}

/-- What a call compiles to, unless it is rejected. -/
def compiled? (compiler : Compiler) (call : Call) : Option Compilation :=
  (compiler.compile call.declaration call.interfaceId).toOption

/-- The chain that a call adds, if it adds one. -/
def chainOf (compiler : Compiler) (call : Call) : Option Chain :=
  (compiler.compiled? call).bind Compilation.chain?

/-- A call adds the chain of what it compiles to. -/
theorem chainOf_eq_some {call : Call} {chain : Chain} :
    compiler.chainOf call = some chain ↔
      ∃ c, compiler.compile call.declaration call.interfaceId = .ok c ∧
        c.chain? = some chain := by
  unfold chainOf compiled?
  cases compiler.compile call.declaration call.interfaceId <;> simp [Except.toOption]

/-- Whether a call adds a chain for inputs of the type. -/
def serves (compiler : Compiler) (type : EventType) (call : Call) : Bool :=
  (compiler.compiled? call).any fun c => c.schema.type == type && c.chain?.isSome

/-- Whether a call adds a chain to the bucket at a position of the event's type and all
conditions of the chain hold. -/
def offers (compiler : Compiler) (event : Event) (store : Store) (number : Nat)
    (call : Call) : Bool :=
  let set := BucketSet.ofSchema (compiler.catalog.schema event.type)
  (compiler.compiled? call).any fun c =>
    (c.schema.type == event.type && set.position c.slot == number) &&
      c.headApplies event store

/-- The call that answers an event: the first that offers a chain in the bucket that
the event selects, or else in the wildcard bucket. The event is looked up only where
some call serves its type. -/
def responder (compiler : Compiler) (calls : List Call) (event : Event) (store : Store) :
    Except DispatchFault (Option Call) :=
  let set := BucketSet.ofSchema (compiler.catalog.schema event.type)
  if calls.any (compiler.serves event.type) then
    (set.primary event).map fun selected =>
      (selected.bind fun number => calls.find? (compiler.offers event store number)).or
        (calls.find? (compiler.offers event store set.wildcard))
  else .ok none

/-- A type has buckets only if it had some or a call serves it. -/
theorem serves_of_isSome_installAll (type : EventType) (calls : List Call) (table : Table)
    (journal : Journal)
    (h : ((compiler.installAll calls table journal).sets.get type).isSome = true) :
    (table.sets.get type).isSome = true ∨
      calls.any (compiler.serves type) = true := by
  induction calls generalizing table journal with
  | nil => exact .inl h
  | cons call calls ih =>
    rw [List.any_cons, Bool.or_eq_true]
    rcases ih _ _ h with before | later
    · rcases compiler.install_cases table journal call.declaration call.interfaceId with
        ⟨fault, -, same⟩ | ⟨c, -, -, same⟩ | ⟨c, hc, nonempty, same⟩
      · rw [same] at before
        exact .inl before
      · rw [same] at before
        exact .inl before
      · by_cases ht : type = c.schema.type
        · refine .inr (.inl ?_)
          have chain : c.chain?.isSome = true := by
            unfold Compilation.chain?
            cases hb : c.bindings with
            | nil => exact absurd hb nonempty
            | cons head tail => rfl
          unfold serves compiled?
          rw [hc, ht]
          simp [Except.toOption, chain]
        · rw [same] at before
          dsimp only at before
          rw [Table.sets_insert_of_ne table c.slot c.bindings ht] at before
          exact .inl before
    · exact .inr (.inr later)

/-- A call that offers a chain adds one. -/
theorem exists_chain_of_offers {number : Nat} {call : Call}
    (h : compiler.offers event store number call = true) :
    ∃ c chain, compiler.compile call.declaration call.interfaceId = .ok c ∧
      c.schema.type = event.type ∧ c.headApplies event store = true ∧
      c.chain? = some chain ∧ compiler.chainOf call = some chain := by
  unfold offers compiled? at h
  cases hc : compiler.compile call.declaration call.interfaceId with
  | error fault =>
    rw [hc] at h
    cases h
  | ok c =>
    rw [hc] at h
    simp only [Except.toOption, Option.any_some, Bool.and_eq_true, beq_iff_eq] at h
    obtain ⟨⟨htype, -⟩, happlies⟩ := h
    obtain ⟨chain, hchain, -⟩ :=
      Option.map_eq_some_iff.mp (Compilation.chain?_of_headApplies happlies)
    exact ⟨c, chain, rfl, htype, happlies, hchain, chainOf_eq_some.mpr ⟨c, hc, hchain⟩⟩

/-- Scanning a bucket finds the chain of the first call that offers one there. -/
theorem scan_eq_find?_offers {set : BucketSet}
    (holds : set.Holds (compiler.catalog.schema event.type) (compiler.compilations calls))
    (built : compiler.catalog.Built) (number : Nat) :
    set.scan number event store =
      (calls.find? (compiler.offers event store number)).bind compiler.chainOf := by
  have position (slot : Slot) : set.position slot =
      (BucketSet.ofSchema (compiler.catalog.schema event.type)).position slot := by
    have spread : set.spread = (BucketSet.ofSchema
      (compiler.catalog.schema event.type)).spread := holds.spread_eq
    unfold BucketSet.position BucketSet.wildcard
    rw [spread]
  rw [holds.scan_eq, built.type_schema]
  unfold compilations
  rw [List.find?_filterMap, Option.bind_assoc]
  simp only [position]
  rfl

/-- After any calls into an empty table, an event is answered by the chain of its
responder. -/
theorem find_eq_responder (built : compiler.catalog.Built) (calls : List Call)
    (journal : Journal) (event : Event) (store : Store) :
    (compiler.installAll calls .empty journal).find event store =
      (compiler.responder calls event store).map fun found =>
        found.bind compiler.chainOf := by
  have holds := holds_installAll built calls journal (Table.holds_empty compiler.catalog)
  rw [List.nil_append] at holds
  unfold Table.find responder
  cases hset : (compiler.installAll calls .empty journal).sets.get event.type with
  | none =>
    have unserved : ¬calls.any (compiler.serves event.type) = true := by
      intro served
      obtain ⟨call, hcall, hserves⟩ := List.any_eq_true.mp served
      rw [serves, Option.any_eq_true] at hserves
      obtain ⟨c, hc, hboth⟩ := hserves
      rw [Bool.and_eq_true, beq_iff_eq] at hboth
      have member : c ∈ compiler.compilations calls :=
        List.mem_filterMap.mpr ⟨call, hcall, hc⟩
      rw [holds.unset _ hset c member hboth.1] at hboth
      cases hboth.2
    dsimp only
    rw [if_neg unserved]
    rfl
  | some set =>
    have held := holds.set_holds _ _ hset
    have served : calls.any (compiler.serves event.type) = true := by
      refine (compiler.serves_of_isSome_installAll event.type calls .empty journal
        (by rw [hset]; rfl)).resolve_left fun empty => ?_
      rw [Table.empty, ByType.get_ofFn] at empty
      cases empty
    have spread : set.spread =
        (BucketSet.ofSchema (compiler.catalog.schema event.type)).spread := held.spread_eq
    have primary : set.primary event =
        (BucketSet.ofSchema (compiler.catalog.schema event.type)).primary event := by
      unfold BucketSet.primary
      rw [spread]
    have wildcard : set.wildcard =
        (BucketSet.ofSchema (compiler.catalog.schema event.type)).wildcard := by
      unfold BucketSet.wildcard
      rw [spread]
    dsimp only
    rw [if_pos served]
    unfold BucketSet.find
    rw [primary, wildcard]
    cases (BucketSet.ofSchema (compiler.catalog.schema event.type)).primary event with
    | error fault => rfl
    | ok selected =>
      refine congrArg Except.ok ?_
      rw [scan_eq_find?_offers held built]
      cases selected with
      | none => rfl
      | some number =>
        dsimp only [Option.bind_some]
        rw [scan_eq_find?_offers held built]
        cases hfound : calls.find? (compiler.offers event store number) with
        | none => rfl
        | some call =>
          obtain ⟨c, chain, -, -, -, -, hchain⟩ :=
            exists_chain_of_offers (List.find?_some hfound)
          dsimp only [Option.bind_some, Option.some_or]
          rw [hchain, Option.some_or]

/-- The responder is one of the calls, and it offers its chain. -/
theorem offers_of_responder {call : Call}
    (h : compiler.responder calls event store = .ok (some call)) :
    call ∈ calls ∧ ∃ number, compiler.offers event store number call = true := by
  unfold responder at h
  dsimp only at h
  split at h
  · cases hprimary : (BucketSet.ofSchema
        (compiler.catalog.schema event.type)).primary event with
    | error fault =>
      rw [hprimary] at h
      cases h
    | ok selected =>
      rw [hprimary] at h
      rcases Option.or_eq_some_iff.mp (Except.ok.inj h) with hindexed | ⟨-, hwild⟩
      · obtain ⟨number, -, hfound⟩ := Option.bind_eq_some_iff.mp hindexed
        exact ⟨List.mem_of_find?_eq_some hfound, number, List.find?_some hfound⟩
      · exact ⟨List.mem_of_find?_eq_some hwild, _, List.find?_some hwild⟩
  · cases h

/-! ## The condition on the interface -/

end Compiler

/-- No condition of a declaration names the interface field. -/
def Declaration.LeavesInterface (declaration : Declaration) : Prop :=
  ∀ clause ∈ splitClauses (Compiler.conditionsText declaration),
    ∀ sides ∈ (splitClause clause).toOption, sides.name ≠ interfaceField

/-- Whether a condition names the interface field can be read off the declaration. -/
instance (declaration : Declaration) : Decidable declaration.LeavesInterface :=
  inferInstanceAs (Decidable (∀ clause ∈ splitClauses (Compiler.conditionsText declaration),
    ∀ sides ∈ (splitClause clause).toOption, sides.name ≠ interfaceField))

namespace Compiler

variable {compiler : Compiler} {calls : List Call} {event : Event} {store : Store}
  {declaration : Declaration} {interfaceId : Int32} {c : Compilation}

/-- Where no condition names the interface field, no accepted one is about it. -/
theorem not_isAbout_of_leavesInterface {schema : Schema} (lawful : schema.Lawful)
    (leaves : declaration.LeavesInterface) {field : Field}
    (hfield : schema.find? interfaceField = some field) {condition : Condition}
    (h : condition ∈ compiler.acceptedConditions schema (conditionsText declaration)) :
    ¬isAbout field condition.clause = true := by
  obtain ⟨clause, hclause, hcompiled⟩ := mem_acceptedConditions.mp h
  intro about
  rcases compileCondition_cases hcompiled with
    ⟨sides, other, expression, hsides, hother, -, rfl⟩ |
    ⟨sides, handle, expression, -, -, -, -, rfl⟩
  · have index : other.index = field.index := beq_iff_eq.mp about
    obtain ⟨-, same⟩ := lawful.eq_of_index_eq hother hfield index
    refine leaves clause hclause sides ?_ same
    rw [hsides]
    rfl
  · cases about

/-- Where no condition names the interface field, the first binding of the chain asks
for the interface that it was compiled under. -/
theorem implicitCondition_mem_of_leavesInterface (built : compiler.catalog.Built)
    (leaves : declaration.LeavesInterface)
    (h : compiler.compile declaration interfaceId = .ok c) {field : Field}
    (hfield : c.schema.find? interfaceField = some field) {head : Binding}
    (hhead : c.bindings.head? = some head) :
    ⟨.ofField field, .constant (.int interfaceId)⟩ ∈ head.conditions := by
  obtain ⟨-, -, -, hbindings⟩ := compile_eq_ok h
  rw [hbindings] at hhead
  rw [conditions_head?_toBindings hhead, compileConditions_eq _ _ |>.1, implicitCondition,
    hfield]
  refine List.mem_append_right _ ?_
  dsimp only
  rw [if_neg]
  · exact List.mem_singleton_self _
  · intro about
    obtain ⟨clause, hclause, isAbout⟩ := List.any_eq_true.mp about
    obtain ⟨condition, hcondition, rfl⟩ := List.mem_map.mp hclause
    exact not_isAbout_of_leavesInterface (lawful_of_compile built h) leaves hfield
      hcondition isAbout

/-- What the interface field of an event holds: the first field of an input, and nothing
valid for other types. -/
theorem read_interfaceField {keyBuckets : Nat}
    (standard : compiler.catalog = .standard keyBuckets) (event : Event) :
    compiler.catalog.read event interfaceField =
      if event.type.isBindable then event.field 0 else .invalid := by
  unfold Catalog.read Catalog.read? Schema.read?
  rw [standard, Catalog.schema_standard, Catalog.find?_interfaceField_stock]
  split <;> rfl

/-- A declaration compiles only for an input that can be bound. -/
theorem isBindable_of_compile (h : compiler.compile declaration interfaceId = .ok c) :
    c.schema.type.isBindable = true := by
  obtain ⟨type, -, bindable⟩ := inputSchema_eq_ok (compile_eq_ok h).1
  exact bindable

/-- Where no condition names the interface field, a chain whose conditions hold is for
inputs whose interface field agrees with the interface it was compiled under. -/
theorem agrees_of_headApplies {keyBuckets : Nat}
    (standard : compiler.catalog = .standard keyBuckets)
    (leaves : declaration.LeavesInterface)
    (h : compiler.compile declaration interfaceId = .ok c)
    (applies : c.headApplies event store = true) (bindable : event.type.isBindable = true) :
    (compiler.catalog.read event interfaceField).agrees (.int interfaceId) = true := by
  have built : compiler.catalog.Built := .of_eq standard
  have field : c.schema.find? interfaceField =
      some ⟨interfaceField, 0, .int, none, false⟩ := by
    rw [schema_eq_of_compile built h, standard, Catalog.schema_standard,
      Catalog.find?_interfaceField_stock, if_pos (isBindable_of_compile h)]
  obtain ⟨head, hhead, happlies⟩ := (Option.any_eq_true _ _).mp applies
  have asked := implicitCondition_mem_of_leavesInterface built leaves h field hhead
  rw [read_interfaceField standard, if_pos bindable]
  exact List.all_eq_true.mp happlies _ asked

/-- A whole number agrees with the number of an interface only if it is that number. -/
theorem toWhole?_eq_of_agrees_int {value : Value} (whole : value.isWhole = true)
    {number : Int32} (h : value.agrees (.int number) = true) :
    value.toWhole? = some number.toInt64 :=
  Value.toWhole?_eq_of_agrees whole rfl (fun _ same => by cases same) h

/-- A call of an interface offers its chain to that interface only. -/
theorem agrees_of_offers {keyBuckets : Nat}
    (standard : compiler.catalog = .standard keyBuckets) {call : Call}
    (leaves : call.declaration.LeavesInterface) {number : Nat}
    (h : compiler.offers event store number call = true) :
    (compiler.catalog.read event interfaceField).agrees (.int call.interfaceId) = true := by
  obtain ⟨c, chain, hc, htype, applies, -, -⟩ := exists_chain_of_offers h
  have bindable := isBindable_of_compile hc
  rw [htype] at bindable
  exact agrees_of_headApplies standard leaves hc applies bindable

/-- The calls that declarations make under an interface. -/
def callsUnder (interfaceId : Int32) (declarations : List Declaration) : List Call :=
  declarations.map fun declaration => ⟨declaration, interfaceId⟩

theorem mem_callsUnder {declarations : List Declaration} {call : Call} :
    call ∈ callsUnder interfaceId declarations ↔
      call.declaration ∈ declarations ∧ call.interfaceId = interfaceId := by
  obtain ⟨declaration, other⟩ := call
  simp [callsUnder, eq_comm]

/-- An event of another interface passes over all calls of an interface. -/
theorem offers_eq_false_of_ne {keyBuckets : Nat}
    (standard : compiler.catalog = .standard keyBuckets) {declarations : List Declaration}
    (leaves : ∀ declaration ∈ declarations, declaration.LeavesInterface)
    (whole : (compiler.catalog.read event interfaceField).isWhole = true)
    (apart : (compiler.catalog.read event interfaceField).toWhole? ≠
      some interfaceId.toInt64) (number : Nat) :
    ∀ call ∈ callsUnder interfaceId declarations,
      compiler.offers event store number call = false := by
  intro call hcall
  obtain ⟨hdeclaration, rfl⟩ := mem_callsUnder.mp hcall
  rw [Bool.eq_false_iff]
  intro offered
  have agrees := agrees_of_offers standard (leaves _ hdeclaration) offered
  exact apart (toWhole?_eq_of_agrees_int whole agrees)

/-- What answers an event of one of two interfaces does not depend on how their calls
came between each other. -/
theorem responder_eq_of_interleaves {keyBuckets : Nat}
    (standard : compiler.catalog = .standard keyBuckets) {first second : List Declaration}
    (leaves : ∀ declaration ∈ first ++ second, declaration.LeavesInterface) {a b : Int32}
    (apart : a ≠ b) (whole : (compiler.catalog.read event interfaceField).isWhole = true)
    {others : List Call} (h : Interleaves (callsUnder a first) (callsUnder b second) calls)
    (k : Interleaves (callsUnder a first) (callsUnder b second) others) :
    compiler.responder calls event store = compiler.responder others event store := by
  have passes (number : Nat) :
      (∀ call ∈ callsUnder a first, compiler.offers event store number call = false) ∨
        ∀ call ∈ callsUnder b second, compiler.offers event store number call = false := by
    by_cases own : (compiler.catalog.read event interfaceField).toWhole? = some a.toInt64
    · refine .inr (offers_eq_false_of_ne standard (fun declaration hd =>
        leaves declaration (List.mem_append_right _ hd)) whole ?_ number)
      intro other
      have same := congrArg Int64.toInt32 (Option.some.inj (own.symm.trans other))
      rw [Int32.toInt32_toInt64, Int32.toInt32_toInt64] at same
      exact apart same
    · exact .inl (offers_eq_false_of_ne standard (fun declaration hd =>
        leaves declaration (List.mem_append_left _ hd)) whole own number)
  have found (number : Nat) : calls.find? (compiler.offers event store number) =
      others.find? (compiler.offers event store number) :=
    h.find?_congr k (passes number)
  unfold responder
  rw [h.any_eq, k.any_eq]
  simp only [found]

/-- Interfaces do not disturb each other. Take declarations under two interfaces, none of
which names the interface field in a condition. In whatever order their calls come, an
event gets one answer, that of a call under its own interface. In any table, a chain of
such a declaration answers only events whose interface agrees with that of its call. -/
theorem interfaces_independent (compiler : Compiler) (keyBuckets : Nat)
    (standard : compiler.catalog = .standard keyBuckets) :
    (∀ (first second : List Declaration) (a b : Int32), a ≠ b →
      (∀ declaration ∈ first ++ second, declaration.LeavesInterface) →
      ∀ (event : Event) (store : Store),
      (compiler.catalog.read event interfaceField).isWhole = true →
      ∃ answer : Except DispatchFault (Option Call),
        (∀ calls, Interleaves (callsUnder a first) (callsUnder b second) calls →
          ∀ journal, (compiler.installAll calls .empty journal).find event store =
            answer.map fun found => found.bind compiler.chainOf) ∧
        ∀ call, answer = .ok (some call) →
          (call ∈ callsUnder a first ∨ call ∈ callsUnder b second) ∧
          (compiler.chainOf call).isSome = true ∧
          (compiler.catalog.read event interfaceField).toWhole? =
            some call.interfaceId.toInt64) ∧
    ∀ (calls : List Call) (journal : Journal) (event : Event) (store : Store)
      (chain : Chain),
      (compiler.installAll calls .empty journal).find event store = .ok (some chain) →
      ∀ call ∈ calls, call.declaration.LeavesInterface →
        compiler.chainOf call = some chain →
        let field := compiler.catalog.read event interfaceField
        field.agrees (.int call.interfaceId) = true ∧
          (field.isWhole = true → field.toWhole? = some call.interfaceId.toInt64) := by
  have built : compiler.catalog.Built := by
    rw [standard]
    exact .standard keyBuckets
  constructor
  · intro first second a b apart leaves event store whole
    have behind := Interleaves.append (callsUnder a first) (callsUnder b second)
    refine ⟨compiler.responder (callsUnder a first ++ callsUnder b second) event store,
      fun calls h journal => ?_, fun call answered => ?_⟩
    · rw [find_eq_responder built,
        responder_eq_of_interleaves standard leaves apart whole h behind]
    · obtain ⟨member, number, offered⟩ := offers_of_responder answered
      obtain ⟨c, chain, -, -, -, -, hchain⟩ := exists_chain_of_offers offered
      have left : call.declaration.LeavesInterface := by
        rcases List.mem_append.mp member with hm | hm
        · exact leaves _ (List.mem_append_left _ (mem_callsUnder.mp hm).1)
        · exact leaves _ (List.mem_append_right _ (mem_callsUnder.mp hm).1)
      refine ⟨List.mem_append.mp member, ?_,
        toWhole?_eq_of_agrees_int whole (agrees_of_offers standard left offered)⟩
      rw [hchain]
      rfl
  · intro calls journal event store chain found call hcall leaves hchain field
    suffices agrees : field.agrees (.int call.interfaceId) = true from
      ⟨agrees, fun whole => toWhole?_eq_of_agrees_int whole agrees⟩
    rw [find_eq_responder built] at found
    cases hanswer : compiler.responder calls event store with
    | error fault =>
      rw [hanswer] at found
      cases found
    | ok answer =>
      rw [hanswer] at found
      obtain ⟨other, rfl, hother⟩ := Option.bind_eq_some_iff.mp (Except.ok.inj found)
      obtain ⟨-, number, offered⟩ := offers_of_responder hanswer
      obtain ⟨c, same, hc, htype, applies, hsame, hfound⟩ := exists_chain_of_offers offered
      cases hfound.symm.trans hother
      have bindable := isBindable_of_compile hc
      rw [htype] at bindable
      obtain ⟨d, hd, hchain⟩ := chainOf_eq_some.mp hchain
      rw [Compilation.headApplies_eq_of_chain? hsame,
        ← Compilation.headApplies_eq_of_chain? hchain] at applies
      exact agrees_of_headApplies standard leaves hd applies bindable

/-- A call of subroutine 3, and any subroutine call. -/
def subroutineBindings (output : String) : List Declaration :=
  [⟨[("input", "go-sub"), ("conditions", "sub=3"), ("output", output)]⟩,
    ⟨[("input", "go-sub"), ("output", "set-master-volume")]⟩]

/-- Two interfaces bind the same calls. A call of subroutine 3 in the second interface
gets the output that the second interface has for it, and this is its own interface. -/
theorem interfaces_independent_subroutineBindings :
    let compiler : Compiler := ⟨.standard 512, .empty, .exact []⟩
    let event : Event := ⟨.goSub, [.long 2, .int 3, .int 0, .int 0, .int 0], false⟩
    let chain : Chain :=
      ⟨⟨⟨.adjustMidiTranspose, [.int 0], false⟩, false,
        [⟨.field 1 .int, .constant (.int 3)⟩, ⟨.field 0 .int, .constant (.int 2)⟩], []⟩, []⟩
    (∀ calls, Interleaves (callsUnder 1 (subroutineBindings "set-debug-mode"))
        (callsUnder 2 (subroutineBindings "adjust-midi-transpose")) calls →
      ∀ journal, (compiler.installAll calls .empty journal).find event .empty =
        .ok (some chain)) ∧
      (compiler.catalog.read event interfaceField).toWhole? = some 2 := by
  intro compiler event chain
  obtain ⟨pairs, owns⟩ := interfaces_independent compiler 512 rfl
  have leaves : ∀ declaration ∈ subroutineBindings "set-debug-mode" ++
      subroutineBindings "adjust-midi-transpose", declaration.LeavesInterface := by
    decide +kernel
  have whole : (compiler.catalog.read event interfaceField).isWhole = true := by
    decide +kernel
  obtain ⟨answer, same, -⟩ := pairs _ _ 1 2 (by decide) leaves event .empty whole
  let together := callsUnder 1 (subroutineBindings "set-debug-mode") ++
    callsUnder 2 (subroutineBindings "adjust-midi-transpose")
  have found : (compiler.installAll together .empty {}).find event .empty =
      .ok (some chain) := by decide +kernel
  have owner := owns together {} event .empty chain found
    ⟨⟨[("input", "go-sub"), ("conditions", "sub=3"),
      ("output", "adjust-midi-transpose")]⟩, 2⟩
    (List.mem_append_right _ List.mem_cons_self) (by decide +kernel) (by decide +kernel)
  refine ⟨fun calls h journal => ?_, owner.2 whole⟩
  rw [same calls h journal, ← same together (Interleaves.append _ _) {}]
  exact found

end Compiler

end CueRouter
