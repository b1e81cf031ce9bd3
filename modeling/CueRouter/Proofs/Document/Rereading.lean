import CueRouter.Document.Interface
import CueRouter.Document.Settings
import CueRouter.Proofs.Binding.Mapping
import CueRouter.Proofs.Json.Rereading
import Mathlib.Data.List.Perm.Basic

/-!
# Reading interfaces and settings again

An interface is read again as itself from the value that is written for it, and so are
settings. The order of the members of objects makes no difference to what is read, except
that a binding lists its attributes in the order in which they stand. Settings are read
from any of their fields, in any order and among any other members, and the fields that
are missing keep their stock values.
-/

namespace CueRouter

open Document Text

/-! ## Members in another order -/

/-- What is made of the elements of a list stands in another order if the elements do. -/
theorem exists_perm_of_perm_map {α β : Type} {f : α → β} {xs : List α} {ys : List β}
    (perm : (xs.map f).Perm ys) : ∃ others, ys = others.map f ∧ xs.Perm others := by
  have split : Relation.Comp (· = List.map f ·) List.Perm ys xs := by
    rw [List.eq_map_comp_perm]
    exact perm.symm
  obtain ⟨others, same, back⟩ := split
  exact ⟨others, same, back.symm⟩

namespace Json

mutual

/-- The other value is the value with members of objects in another order, at any depth. -/
inductive Reordered : Json → Json → Prop where
  /-- Nothing is in another order. -/
  | refl (value : Json) : Reordered value value
  /-- Items are reordered each by itself. -/
  | array {items others : List Json} (h : List.Forall₂ Reordered items others) :
      Reordered (.array items) (.array others)
  /-- Members are reordered each by itself, and then put in another order. -/
  | object {members placed others : List (Option String × Json)}
      (h : List.Forall₂ ReorderedMember members placed) (perm : placed.Perm others) :
      Reordered (.object members) (.object others)

/-- The other member has the same name and a reordered value. -/
inductive ReorderedMember : Option String × Json → Option String × Json → Prop where
  /-- The value is reordered under its name. -/
  | mk (name : Option String) {value other : Json} (h : Reordered value other) :
      ReorderedMember (name, value) (name, other)

end

variable {value : Json} {items : List Json} {members : List (String × Json)}

/-- The items of an array keep their places. -/
theorem Reordered.exists_items (h : Reordered (.array items) value) :
    ∃ others, value = .array others ∧ List.Forall₂ Reordered items others := by
  cases h with
  | refl => exact ⟨items, rfl, List.forall₂_same.mpr fun item _ => .refl item⟩
  | array h => exact ⟨_, rfl, h⟩

/-- The other named value has the same name and a reordered value. -/
def Alike (one other : String × Json) : Prop := one.1 = other.1 ∧ Reordered one.2 other.2

/-- The items of an array keep their places under its name. -/
theorem Alike.exists_items {name : String} {other : String × Json}
    (h : Alike (name, .array items) other) :
    ∃ others, other = (name, .array others) ∧ List.Forall₂ Reordered items others := by
  obtain ⟨_, value⟩ := other
  obtain ⟨rfl, reordered⟩ := h
  obtain ⟨others, rfl, alike⟩ := reordered.exists_items
  exact ⟨others, rfl, alike⟩

/-- The member with the text of its name. -/
def nameMember (member : String × Json) : Option String × Json := (some member.1, member.2)

/-- Members whose names have texts are reordered as members of this kind. -/
theorem exists_placed {members : List (String × Json)} {placed : List (Option String × Json)}
    (h : List.Forall₂ ReorderedMember (members.map nameMember) placed) :
    ∃ named : List (String × Json), placed = named.map nameMember ∧
      List.Forall₂ Alike members named := by
  induction members generalizing placed with
  | nil =>
    cases h
    exact ⟨[], rfl, .nil⟩
  | cons member members ih =>
    obtain ⟨_, _, @⟨_, _, other, first⟩, others, rfl⟩ := List.forall₂_cons_left_iff.mp h
    obtain ⟨named, rfl, alike⟩ := ih others
    exact ⟨(member.1, other) :: named, rfl, .cons ⟨rfl, first⟩ alike⟩

/-- Members whose names have texts keep these names. -/
theorem Reordered.exists_members (h : Reordered (.ofMembers members) value) :
    ∃ placed others : List (String × Json), List.Forall₂ Alike members placed ∧
      placed.Perm others ∧ value = .ofMembers others := by
  cases h with
  | refl =>
    exact ⟨members, members, List.forall₂_same.mpr fun _ _ => ⟨rfl, .refl _⟩, .refl _, rfl⟩
  | @object _ placed others h perm =>
    obtain ⟨named, rfl, alike⟩ := exists_placed h
    obtain ⟨others, rfl, moved⟩ := exists_perm_of_perm_map perm
    exact ⟨named, others, alike, moved, rfl⟩

/-- The value is a truth value, a whole number or a string. -/
def IsScalar : Json → Prop
  | bool _ | whole _ _ | text _ => True
  | _ => False

/-- Nothing in a scalar can be in another order. -/
theorem Reordered.eq_of_isScalar {scalar : Json} (h : Reordered scalar value)
    (isScalar : IsScalar scalar) : value = scalar := by
  cases h with
  | refl => rfl
  | array => exact isScalar.elim
  | object => exact isScalar.elim

/-- A scalar is plain. -/
theorem plain_of_isScalar (isScalar : IsScalar value) : Plain value := by
  unfold IsScalar at isScalar
  split at isScalar
  · exact .bool _
  · exact .whole _ _
  · exact .text _
  · exact isScalar.elim

/-- Members with scalars are the same in front of reordered ones. -/
theorem exists_behind_scalars {front back placed : List (String × Json)}
    (scalars : ∀ member ∈ front, IsScalar member.2)
    (h : List.Forall₂ Alike (front ++ back) placed) :
    ∃ rest, placed = front ++ rest ∧ List.Forall₂ Alike back rest := by
  induction front generalizing placed with
  | nil => exact ⟨placed, rfl, h⟩
  | cons member front ih =>
    obtain ⟨first, others⟩ := List.forall_mem_cons.mp scalars
    obtain ⟨⟨_, value⟩, after, ⟨rfl, same⟩, behind, rfl⟩ := List.forall₂_cons_left_iff.mp h
    obtain ⟨rest, rfl, alike⟩ := ih others behind
    obtain rfl : value = member.2 := same.eq_of_isScalar first
    exact ⟨rest, rfl, alike⟩

/-- An object of scalars is reordered by its members. -/
theorem Reordered.exists_perm (h : Reordered (.ofMembers members) value)
    (scalars : ∀ member ∈ members, IsScalar member.2) :
    ∃ others, members.Perm others ∧ value = .ofMembers others := by
  obtain ⟨placed, others, alike, perm, rfl⟩ := h.exists_members
  rw [← List.append_nil members] at alike
  obtain ⟨rest, rfl, none⟩ := exists_behind_scalars scalars alike
  rw [List.forall₂_nil_left_iff.mp none, List.append_nil] at perm
  exact ⟨others, perm, rfl⟩

/-- An object is plain if its members are. -/
theorem plain_ofMembers (h : ∀ member ∈ members, Plain member.2) :
    Plain (.ofMembers members) := by
  refine .object fun member present => ?_
  obtain ⟨named, source, rfl⟩ := List.mem_map.mp present
  exact h named source

end Json

/-! ## Records -/

/-- What is read item by item is the list of the results. -/
theorem mapM_eq_some {α β : Type} {f : α → Option β} {xs : List α} {ys : List β}
    (h : List.Forall₂ (fun x y => f x = some y) xs ys) : xs.mapM f = some ys := by
  induction h with
  | nil => rfl
  | cons first _ ih =>
    rw [List.mapM_cons, first, ih]
    rfl

/-- What is written item by item is read again if each item is. -/
theorem mapM_map_eq_some {α β : Type} {encode : α → β} {decode : β → Option α} {xs : List α}
    (h : ∀ x ∈ xs, decode (encode x) = some x) : (xs.map encode).mapM decode = some xs :=
  mapM_eq_some (List.forall₂_map_left_iff.mpr (List.forall₂_same.mpr h))

/-- A member for a value that is there is a scalar if the value is written as one. -/
theorem isScalar_of_mem_presentMember {α : Type} {name : String} {value : Option α}
    {encode : α → Json} {member : String × Json}
    (h : member ∈ presentMember name (value.map encode)) (scalar : ∀ x, (encode x).IsScalar) :
    member.2.IsScalar := by
  cases value with
  | none => cases h
  | some x =>
    rw [List.mem_singleton.mp h]
    exact scalar x

/-- A member for a value that is there has the name given. -/
theorem map_fst_presentMember (name : String) (value : Option Json) :
    ((presentMember name value).map Prod.fst).Sublist [name] := by
  cases value with
  | none => exact List.nil_sublist _
  | some value => exact .refl _

namespace Document.Record

variable {α : Type} {names : List String} {written unknown members : List (String × Json)}

/-- What is decoded depends on the values of the fields alone. -/
def Consults (decode : Record → Option α) : Prop :=
  ∀ record other : Record, (∀ name, record.get? name = other.get? name) →
    decode record = decode other

/-- The members of an object have their names and values. -/
theorem toMembers?_ofMembers (members : List (String × Json)) :
    (Json.ofMembers members).toMembers? = some members :=
  mapM_map_eq_some fun _ _ => rfl

/-- A record is read from members in any order, and other members make no difference. -/
theorem bind_of_perm_append {decode : Record → Option α} (consults : Consults decode)
    (distinct : names.Nodup) (known : (written.map Prod.fst).Sublist names)
    (strange : ∀ member ∈ unknown, member.1 ∉ names)
    (perm : (written ++ unknown).Perm members) :
    (ofJson? names (.ofMembers members)).bind decode = decode ⟨written⟩ := by
  have kept : (written.filter fun member => names.contains member.1) = written := by
    refine List.filter_eq_self.mpr fun member h => ?_
    exact List.contains_iff_mem.mpr (known.subset (List.mem_map_of_mem h))
  have dropped : (unknown.filter fun member => names.contains member.1) = [] := by
    refine List.filter_eq_nil_iff.mpr fun member h found => ?_
    exact strange member h (List.contains_iff_mem.mp found)
  have fields := perm.filter fun member => names.contains member.1
  rw [List.filter_append, kept, dropped, List.append_nil] at fields
  have once : (written.map Prod.fst).Nodup := known.nodup distinct
  have read : ofJson? names (.ofMembers members) =
      some ⟨members.filter fun member => names.contains member.1⟩ := by
    show (Json.ofMembers members).toMembers?.bind (ofMembers? names) = _
    rw [toMembers?_ofMembers, Option.bind_some, ofMembers?,
      if_pos ((fields.map Prod.fst).nodup_iff.mp once)]
  rw [read, Option.bind_some]
  exact consults _ _ fun name => (find?_fst_eq_of_perm once fields name).symm

/-- A record is read from its members in any order. -/
theorem bind_of_perm {decode : Record → Option α} (consults : Consults decode)
    (distinct : names.Nodup) (known : (written.map Prod.fst).Sublist names)
    (perm : written.Perm members) :
    (ofJson? names (.ofMembers members)).bind decode = decode ⟨written⟩ :=
  bind_of_perm_append consults distinct known (List.forall_mem_nil _)
    (by rwa [List.append_nil])

/-- A member that is written for a value that is there is found before the others. -/
theorem get?_presentMember_append (name other : String) (value : Option Json)
    (rest : List (String × Json)) :
    get? ⟨presentMember other value ++ rest⟩ name =
      if other = name then value.or (get? ⟨rest⟩ name) else get? ⟨rest⟩ name := by
  cases value with
  | none => simp [presentMember]
  | some value => by_cases same : other = name <;> simp [presentMember, get?, same]

/-- A member that is written for a value that is there is found alone. -/
theorem get?_presentMember (name other : String) (value : Option Json) :
    get? ⟨presentMember other value⟩ name = if other = name then value else none := by
  have behind := get?_presentMember_append name other value []
  rw [List.append_nil] at behind
  rw [behind]
  cases value <;> rfl

/-- A field that is given where its value is there is read as the value, and otherwise as
the fallback. -/
theorem readOr?_of_get? {record : Record} {name : String} {given : Option α}
    {encode : α → Json} {decode : Json → Option α}
    (found : record.get? name = given.map encode)
    (read : ∀ value ∈ given, decode (encode value) = some value) (fallback : α) :
    record.readOr? name fallback decode = some (given.getD fallback) := by
  unfold readOr?
  rw [found]
  cases given with
  | none => rfl
  | some value => exact read value rfl

end Document.Record

/-! ## Numbers -/

/-- Bounds admit the numbers between them. -/
theorem admits_iff {bounds : Numeral.Bounds} {n : Int} :
    bounds.admits n = true ↔ bounds.least ≤ n ∧ n ≤ bounds.greatest := by
  simp [Numeral.Bounds.admits]

/-- A number of 32 signed bits is read again. -/
theorem readInt32?_ofInt (n : Int32) : readInt32? (.ofInt n.toInt) = some n := by
  have admitted : Numeral.signed32.admits n.toInt = true :=
    admits_iff.mpr ⟨Int32.le_toInt n, Int32.toInt_le n⟩
  rw [readInt32?, Json.toWhole?_ofInt admitted, Option.map_some, Int32.ofInt_toInt]

/-- A natural number within the bounds is read again. -/
theorem readNat?_ofInt {bounds : Numeral.Bounds} {n : Nat} (low : bounds.least ≤ 0)
    (high : (n : Int) ≤ bounds.greatest) : readNat? bounds (.ofInt n) = some n := by
  have admitted : bounds.admits n = true :=
    admits_iff.mpr ⟨Int.le_trans low (Int.natCast_nonneg n), high⟩
  rw [readNat?, Json.toWhole?_ofInt admitted, Option.map_some, Int.toNat_natCast]

/-! ## Variables -/

namespace VariableDeclaration

variable {declaration : VariableDeclaration} {value : Json}

/-- The members that are written for a declaration. -/
def members (declaration : VariableDeclaration) : List (String × Json) :=
  [("name", .ofString declaration.name), ("type", .ofString declaration.typeName)] ++
    presentMember "value" (declaration.initializer.map Json.ofString)

/-- A declaration depends on the values of its fields alone. -/
theorem consults_ofRecord? : Record.Consults ofRecord? := by
  intro record other same
  simp only [ofRecord?, Record.require?, Record.readOr?, same]

/-- A declaration is read from its members in their order. -/
theorem ofRecord?_members (declaration : VariableDeclaration) :
    ofRecord? ⟨declaration.members⟩ = some declaration := by
  obtain ⟨name, typeName, _ | initializer⟩ := declaration <;> rfl

/-- The members of a declaration are scalars. -/
theorem isScalar_of_mem_members (declaration : VariableDeclaration) :
    ∀ member ∈ declaration.members, member.2.IsScalar := by
  simp only [members, List.mem_append, List.mem_cons, List.not_mem_nil, or_false]
  rintro member ((rfl | rfl) | h)
  · exact trivial
  · exact trivial
  · exact isScalar_of_mem_presentMember h fun _ => trivial

/-- The members of a declaration are fields in their order. -/
theorem map_fst_members (declaration : VariableDeclaration) :
    (declaration.members.map Prod.fst).Sublist fieldNames := by
  unfold members
  rw [List.map_append]
  exact .append (.refl ["name", "type"]) (map_fst_presentMember _ _)

/-- A declaration is read again from its members in any order. -/
theorem ofJson?_of_reordered (h : declaration.toJson.Reordered value) :
    ofJson? value = some declaration := by
  obtain ⟨others, perm, rfl⟩ := h.exists_perm declaration.isScalar_of_mem_members
  have read := Record.bind_of_perm consults_ofRecord? (by decide)
    declaration.map_fst_members perm
  exact read.trans (ofRecord?_members declaration)

/-- What is written for a declaration is plain. -/
theorem plain_toJson (declaration : VariableDeclaration) : declaration.toJson.Plain :=
  Json.plain_ofMembers fun member h =>
    Json.plain_of_isScalar (declaration.isScalar_of_mem_members member h)

end VariableDeclaration

/-! ## Bindings -/

namespace Declaration

variable {declaration : Declaration} {value : Json}

/-- Attributes with distinct names are set one behind the other. -/
theorem ofPairs_attributes (distinct : declaration.Distinct) :
    ofPairs declaration.attributes = declaration := by
  have run (pairs : List (String × String)) (before : Declaration)
      (h : Distinct ⟨before.attributes ++ pairs⟩) :
      pairs.foldl (fun declaration pair => declaration.set pair.1 pair.2) before =
        ⟨before.attributes ++ pairs⟩ := by
    induction pairs generalizing before with
    | nil => rw [List.append_nil]; rfl
    | cons pair pairs ih =>
      have next : Distinct ⟨before.attributes ++ [pair] ++ pairs⟩ := by
        rwa [List.append_assoc]
      have fresh : before.get? pair.1 = none := by
        refine Option.eq_none_iff_forall_not_mem.mpr fun text found => ?_
        unfold Distinct at h
        rw [List.map_append, List.nodup_append] at h
        exact h.2.2 _ (List.mem_map_of_mem (mem_of_get? found)) _ List.mem_cons_self rfl
      rw [List.foldl_cons, set_of_none fresh, ih _ next, List.append_assoc]
      rfl
  exact run declaration.attributes {} distinct

/-- A binding is read again from the value that is written for it. -/
theorem ofJson?_toJson (distinct : declaration.Distinct) :
    ofJson? declaration.toJson = some declaration := by
  have texts : (declaration.attributes.map fun pair => (pair.1, Json.ofString pair.2)).mapM
      attribute? = some declaration.attributes :=
    mapM_map_eq_some fun _ _ => rfl
  rw [ofJson?, toJson, Record.toMembers?_ofMembers, Option.bind_some, texts, Option.map_some,
    ofPairs_attributes distinct]

/-- The members of a binding are scalars. -/
theorem isScalar_of_mem_members : ∀ member ∈
    declaration.attributes.map fun pair => (pair.1, Json.ofString pair.2),
      member.2.IsScalar := by
  intro member h
  obtain ⟨pair, -, rfl⟩ := List.mem_map.mp h
  exact trivial

/-- From its attributes in another order, a binding is read with the attributes in this
order. -/
theorem exists_of_reordered (distinct : declaration.Distinct)
    (h : declaration.toJson.Reordered value) :
    ∃ other, ofJson? value = some other ∧ declaration.attributes.Perm other.attributes := by
  obtain ⟨others, perm, rfl⟩ := h.exists_perm isScalar_of_mem_members
  obtain ⟨attributes, rfl, moved⟩ := exists_perm_of_perm_map perm
  exact ⟨⟨attributes⟩, ofJson?_toJson (distinct.of_perm moved), moved⟩

/-- Bindings in a list are read each by itself. -/
theorem exists_mapM_of_reordered {bindings : List Declaration} {bound : List Json}
    (distinct : ∀ binding ∈ bindings, binding.Distinct)
    (h : List.Forall₂ Json.Reordered (bindings.map toJson) bound) :
    ∃ others, bound.mapM ofJson? = some others ∧
      List.Forall₂ (fun one other => ∀ name, one.get? name = other.get? name)
        bindings others := by
  induction bindings generalizing bound with
  | nil =>
    cases h
    exact ⟨[], rfl, .nil⟩
  | cons binding bindings ih =>
    obtain ⟨first, rest⟩ := List.forall_mem_cons.mp distinct
    obtain ⟨value, values, reordered, behind, rfl⟩ := List.forall₂_cons_left_iff.mp h
    obtain ⟨other, read, perm⟩ := exists_of_reordered first reordered
    obtain ⟨others, readRest, alike⟩ := ih rest behind
    refine ⟨other :: others, ?_, .cons (first.get?_eq_of_perm perm) alike⟩
    rw [List.mapM_cons, read, readRest]
    rfl

/-- What is written for a binding is plain. -/
theorem plain_toJson (declaration : Declaration) : declaration.toJson.Plain :=
  Json.plain_ofMembers fun member h =>
    Json.plain_of_isScalar (isScalar_of_mem_members member h)

end Declaration

/-! ## Interfaces -/

namespace Interface

variable {interface : Interface} {value : Json}

/-- The other interface has the same variables, and its bindings have the same texts under
the same names. -/
structure Same (interface other : Interface) : Prop where
  /-- The numbers are the same. -/
  id : other.id = interface.id
  /-- The names are the same. -/
  name : other.name = interface.name
  /-- The variables are the same. -/
  declarations : other.declarations = interface.declarations
  /-- The bindings are the same mappings. -/
  bindings : List.Forall₂ (fun one other => ∀ name, one.get? name = other.get? name)
    interface.bindings other.bindings

/-- The members in front of the variables and bindings. -/
def frontMembers (interface : Interface) : List (String × Json) :=
  [("id", .ofInt interface.id.toInt)] ++
    presentMember "name" (interface.name.map Json.ofString)

/-- The members in front of the variables and bindings are scalars. -/
theorem isScalar_of_mem_frontMembers (interface : Interface) :
    ∀ member ∈ interface.frontMembers, member.2.IsScalar := by
  simp only [frontMembers, List.mem_append, List.mem_singleton]
  rintro member (rfl | h)
  · exact trivial
  · exact isScalar_of_mem_presentMember h fun _ => trivial

/-- The members that are written for an interface with the given values for its variables
and bindings. -/
def members (interface : Interface) (declared bound : List Json) : List (String × Json) :=
  interface.frontMembers ++ [("variables", .array declared), ("bindings", .array bound)]

/-- An interface depends on the values of its fields alone. -/
theorem consults_ofRecord? : Record.Consults ofRecord? := by
  intro record other same
  simp only [ofRecord?, Record.require?, Record.readOr?, same]

/-- The members of an interface are fields in their order. -/
theorem map_fst_members (interface : Interface) (declared bound : List Json) :
    ((interface.members declared bound).map Prod.fst).Sublist fieldNames := by
  unfold members frontMembers
  rw [List.map_append, List.map_append]
  exact .append (.append (.refl ["id"]) (map_fst_presentMember _ _))
    (.refl ["variables", "bindings"])

/-- An interface is read from its members in any order, if its variables and bindings are
read. -/
theorem ofJson?_of_perm {declared bound : List Json} {others : List (String × Json)}
    (readVariables : declared.mapM VariableDeclaration.ofJson? = some interface.declarations)
    (readBindings : bound.mapM Declaration.ofJson? = some interface.bindings)
    (perm : (interface.members declared bound).Perm others) :
    ofJson? (.ofMembers others) = some interface := by
  have read := Record.bind_of_perm consults_ofRecord? (by decide) (map_fst_members _ _ _) perm
  refine read.trans ?_
  obtain ⟨id, name, declarations, bindings⟩ := interface
  cases name <;>
    simp [ofRecord?, Record.require?, Record.readOr?, Record.get?, members, frontMembers,
      presentMember, readInt32?_ofInt, readList?, readVariables, readBindings, Json.toItems?,
      Json.toOptional?, Json.toText?, Json.ofString]

/-- An interface is read again from the value that is written for it. -/
theorem ofJson?_toJson (distinct : ∀ binding ∈ interface.bindings, binding.Distinct) :
    ofJson? interface.toJson = some interface := by
  refine ofJson?_of_perm (mapM_map_eq_some fun declaration _ => ?_)
    (mapM_map_eq_some fun binding member => ?_) (.refl _)
  · exact VariableDeclaration.ofJson?_of_reordered (.refl _)
  · exact Declaration.ofJson?_toJson (distinct binding member)

/-- An interface in another order has its members, with its variables and bindings in
another order each by itself. -/
theorem exists_members_of_reordered (h : interface.toJson.Reordered value) :
    ∃ declared bound others,
      List.Forall₂ Json.Reordered
        (interface.declarations.map VariableDeclaration.toJson) declared ∧
      List.Forall₂ Json.Reordered (interface.bindings.map Declaration.toJson) bound ∧
      (interface.members declared bound).Perm others ∧ value = .ofMembers others := by
  obtain ⟨placed, others, alike, perm, rfl⟩ := h.exists_members
  obtain ⟨rest, rfl, behind⟩ :=
    Json.exists_behind_scalars interface.isScalar_of_mem_frontMembers alike
  obtain ⟨_, _, variablesAlike, last, rfl⟩ := List.forall₂_cons_left_iff.mp behind
  obtain ⟨_, _, bindingsAlike, none, rfl⟩ := List.forall₂_cons_left_iff.mp last
  obtain ⟨declared, rfl, declarations⟩ := variablesAlike.exists_items
  obtain ⟨bound, rfl, bindings⟩ := bindingsAlike.exists_items
  rw [List.forall₂_nil_left_iff.mp none] at perm
  exact ⟨declared, bound, others, declarations, bindings, perm, rfl⟩

/-- From its value in another order, an interface is read as the same. -/
theorem exists_of_reordered (distinct : ∀ binding ∈ interface.bindings, binding.Distinct)
    (h : interface.toJson.Reordered value) :
    ∃ other, ofJson? value = some other ∧ interface.Same other := by
  obtain ⟨declared, bound, others, declarations, reordered, perm, rfl⟩ :=
    exists_members_of_reordered h
  obtain ⟨bindings, readBindings, same⟩ :=
    Declaration.exists_mapM_of_reordered distinct reordered
  have readDeclarations :
      declared.mapM VariableDeclaration.ofJson? = some interface.declarations := by
    refine mapM_eq_some (List.Forall₂.flip ?_)
    exact (List.forall₂_map_left_iff.mp declarations).imp
      fun _ _ moved => VariableDeclaration.ofJson?_of_reordered moved
  let other : Interface := { interface with bindings }
  have read : ofJson? (.ofMembers others) = some other :=
    ofJson?_of_perm readDeclarations readBindings perm
  exact ⟨other, read, ⟨rfl, rfl, rfl, same⟩⟩

/-- What is written for an interface is plain. -/
theorem plain_toJson (interface : Interface) : interface.toJson.Plain := by
  refine Json.plain_ofMembers fun member h => ?_
  rcases List.mem_append.mp h with front | back
  · exact Json.plain_of_isScalar (interface.isScalar_of_mem_frontMembers member front)
  · simp only [List.mem_cons, List.not_mem_nil, or_false] at back
    rcases back with rfl | rfl
    · exact .array (List.forall_mem_map.mpr fun declaration _ => declaration.plain_toJson)
    · exact .array (List.forall_mem_map.mpr fun binding _ => binding.plain_toJson)

end Interface

/-! ## Settings -/

namespace Settings

/-- The fields that a document gives. -/
structure Given where
  /-- The number of events that can be on their way at once. -/
  poolSize : Option Nat := none
  /-- How deeply dispatches may nest. -/
  depthLimit : Option Nat := none
  /-- Whether verbose messages are on from the start. -/
  debug : Option Bool := none
  /-- The number of buckets that keyboard bindings are spread over. -/
  keyBuckets : Option Nat := none

namespace Given

variable {given : Given}

/-- The sizes fit into 64 bits, and the number of buckets into 32. -/
structure Fits (given : Given) : Prop where
  /-- The pool size fits. -/
  poolSize : ∀ n ∈ given.poolSize, n < 2 ^ 64
  /-- The depth limit fits. -/
  depthLimit : ∀ n ∈ given.depthLimit, n < 2 ^ 64
  /-- The number of buckets fits. -/
  keyBuckets : ∀ n ∈ given.keyBuckets, n < 2 ^ 32

/-- The given fields as members of an object. -/
def members (given : Given) : List (String × Json) :=
  presentMember "pool-size" (given.poolSize.map fun n : Nat => .ofInt n) ++
    (presentMember "max-dispatch-depth" (given.depthLimit.map fun n : Nat => .ofInt n) ++
    (presentMember "debug" (given.debug.map .bool) ++
    presentMember "key-index-size" (given.keyBuckets.map fun n : Nat => .ofInt n)))

/-- The given fields, and the stock values of the others. -/
def orStock (given : Given) : Settings :=
  let stock : Settings := {}
  { poolSize := given.poolSize.getD stock.poolSize
    depthLimit := given.depthLimit.getD stock.depthLimit
    debug := given.debug.getD stock.debug
    keyBuckets := given.keyBuckets.getD stock.keyBuckets }

/-- The given fields are fields in their order. -/
theorem map_fst_members (given : Given) : (given.members.map Prod.fst).Sublist fieldNames := by
  unfold members
  rw [List.map_append, List.map_append, List.map_append]
  exact .append (map_fst_presentMember _ _) (.append (map_fst_presentMember _ _)
    (.append (map_fst_presentMember _ _) (map_fst_presentMember _ _)))

/-- Settings are read from the given fields in their order. -/
theorem ofRecord?_members (fits : given.Fits) :
    ofRecord? ⟨given.members⟩ = some given.orStock := by
  have poolSize : Record.get? ⟨given.members⟩ "pool-size" =
      given.poolSize.map fun n : Nat => .ofInt n := by
    simp [members, Record.get?_presentMember_append, Record.get?_presentMember]
  have depthLimit : Record.get? ⟨given.members⟩ "max-dispatch-depth" =
      given.depthLimit.map fun n : Nat => .ofInt n := by
    simp [members, Record.get?_presentMember_append, Record.get?_presentMember]
  have debug : Record.get? ⟨given.members⟩ "debug" = given.debug.map .bool := by
    simp [members, Record.get?_presentMember_append, Record.get?_presentMember]
  have keyBuckets : Record.get? ⟨given.members⟩ "key-index-size" =
      given.keyBuckets.map fun n : Nat => .ofInt n := by
    simp [members, Record.get?_presentMember_append, Record.get?_presentMember]
  have wide {n : Nat} (h : n < 2 ^ 64) : readNat? Numeral.unsigned64 (.ofInt n) = some n :=
    readNat?_ofInt (by decide) (show (n : Int) ≤ 18446744073709551615 by omega)
  have narrow {n : Nat} (h : n < 2 ^ 32) : readNat? Numeral.unsigned32 (.ofInt n) = some n :=
    readNat?_ofInt (by decide) (show (n : Int) ≤ 4294967295 by omega)
  simp only [ofRecord?]
  rw [Record.readOr?_of_get? poolSize fun n h => wide (fits.poolSize n h)]
  rw [Record.readOr?_of_get? depthLimit fun n h => wide (fits.depthLimit n h)]
  rw [Record.readOr?_of_get? debug fun _ _ => rfl]
  rw [Record.readOr?_of_get? keyBuckets fun n h => narrow (fits.keyBuckets n h)]
  rfl

/-- The given fields are scalars. -/
theorem isScalar_of_mem_members (given : Given) :
    ∀ member ∈ given.members, member.2.IsScalar := by
  simp only [members, List.mem_append]
  rintro member (h | h | h | h)
  · exact isScalar_of_mem_presentMember h fun _ => trivial
  · exact isScalar_of_mem_presentMember h fun _ => trivial
  · exact isScalar_of_mem_presentMember h fun _ => trivial
  · exact isScalar_of_mem_presentMember h fun _ => trivial

end Given

/-- Settings depend on the values of their fields alone. -/
theorem consults_ofRecord? : Record.Consults ofRecord? := by
  intro record other same
  simp only [ofRecord?, Record.readOr?, same]

/-- Settings are read from any of their fields, in any order and among any other members,
and the others keep their stock values. -/
theorem ofJson?_of_perm {given : Given} {unknown members : List (String × Json)}
    (fits : given.Fits) (strange : ∀ member ∈ unknown, member.1 ∉ fieldNames)
    (perm : (given.members ++ unknown).Perm members) :
    ofJson? (.ofMembers members) = some given.orStock :=
  (Record.bind_of_perm_append consults_ofRecord? (by decide) given.map_fst_members strange
    perm).trans (Given.ofRecord?_members fits)

variable {settings : Settings} {value : Json}

/-- The sizes fit into 64 bits, and the number of buckets into 32. -/
structure Fits (settings : Settings) : Prop where
  /-- The pool size fits. -/
  poolSize : settings.poolSize < 2 ^ 64
  /-- The depth limit fits. -/
  depthLimit : settings.depthLimit < 2 ^ 64
  /-- The number of buckets fits. -/
  keyBuckets : settings.keyBuckets < 2 ^ 32

/-- All fields of the settings. -/
def given (settings : Settings) : Given :=
  ⟨settings.poolSize, settings.depthLimit, settings.debug, settings.keyBuckets⟩

/-- All fields of settings whose numbers fit are given with numbers that fit. -/
theorem Fits.given (fits : settings.Fits) : settings.given.Fits where
  poolSize := by rintro _ ⟨⟩; exact fits.poolSize
  depthLimit := by rintro _ ⟨⟩; exact fits.depthLimit
  keyBuckets := by rintro _ ⟨⟩; exact fits.keyBuckets

/-- Settings are read again from what is written for them, in any order. -/
theorem ofJson?_of_reordered (fits : settings.Fits) (h : settings.toJson.Reordered value) :
    ofJson? value = some settings := by
  obtain ⟨others, perm, rfl⟩ := h.exists_perm settings.given.isScalar_of_mem_members
  have read := Record.bind_of_perm consults_ofRecord? (by decide)
    settings.given.map_fst_members perm
  exact read.trans (Given.ofRecord?_members fits.given)

/-- What is written for settings is plain. -/
theorem plain_toJson (settings : Settings) : settings.toJson.Plain :=
  Json.plain_ofMembers fun member h =>
    Json.plain_of_isScalar (settings.given.isScalar_of_mem_members member h)

end Settings

/-! ## Documents -/

namespace Document

/-- What is read of a plain value is read of the document that is written for it. -/
theorem read_toDocument {α : Type} {decode : Json → Option α} {value : Json} {result : α}
    (plain : value.Plain) (h : decode value = some result) :
    read decode value.toDocument = .ok result := by
  rw [read, Json.ofText?_toDocument plain, Option.bind_some, h]

/-- An interface whose bindings have distinct attributes, and settings whose numbers fit, are
read again from the values and the documents that are written for them. From the value in
another order the same interface is read, and the same settings. Any given fields, in any
order and among any other members, are read as the settings with these fields and the stock
values of the others. -/
theorem written_reads_back (interface : Interface)
    (distinct : ∀ binding ∈ interface.bindings, binding.Distinct) (settings : Settings)
    (fits : settings.Fits) :
    (Interface.ofJson? interface.toJson = some interface ∧
      read Interface.ofJson? interface.toJson.toDocument = .ok interface ∧
      ∀ value, interface.toJson.Reordered value →
        ∃ other, Interface.ofJson? value = some other ∧ interface.Same other) ∧
    (read Settings.ofJson? settings.toJson.toDocument = .ok settings ∧
      ∀ value, settings.toJson.Reordered value → Settings.ofJson? value = some settings) ∧
    ∀ (given : Settings.Given) (unknown members : List (String × Json)), given.Fits →
      (∀ member ∈ unknown, member.1 ∉ Settings.fieldNames) →
      (given.members ++ unknown).Perm members →
        Settings.ofJson? (.ofMembers members) = some given.orStock := by
  have again : Interface.ofJson? interface.toJson = some interface :=
    Interface.ofJson?_toJson distinct
  have same : Settings.ofJson? settings.toJson = some settings :=
    Settings.ofJson?_of_reordered fits (.refl _)
  exact ⟨⟨again, read_toDocument interface.plain_toJson again,
      fun _ reordered => Interface.exists_of_reordered distinct reordered⟩,
    ⟨read_toDocument settings.plain_toJson same,
      fun _ reordered => Settings.ofJson?_of_reordered fits reordered⟩,
    fun _ _ _ within strange perm => Settings.ofJson?_of_perm within strange perm⟩

/-- An interface with two attributes in its binding, settings with the greatest numbers that
fit, and a number of buckets among members of another kind. -/
theorem written_reads_back_twoAttributes :
    let interface : Interface :=
      { id := -3, name := some "pads"
        declarations := [⟨"x", "range", none⟩, ⟨"y", "int", "5"⟩]
        bindings := [⟨[("input", "midi-clock"), ("output", "go-sub")]⟩] }
    let value := Json.ofMembers [
      ("bindings", .array [.ofMembers [("output", .ofString "go-sub"),
        ("input", .ofString "midi-clock")]]),
      ("variables", .array (interface.declarations.map VariableDeclaration.toJson)),
      ("name", .ofString "pads"), ("id", .ofInt (-3))]
    let settings : Settings := ⟨2 ^ 64 - 1, 2 ^ 64 - 1, true, 2 ^ 32 - 1⟩
    let given : Settings.Given := { keyBuckets := some 7 }
    let unknown := [("key", Json.array [.null]), ("key", .null)]
    (∀ binding ∈ interface.bindings, binding.Distinct) ∧ settings.Fits ∧
      interface.toJson.Reordered value ∧ given.Fits ∧
      (∀ member ∈ unknown, member.1 ∉ Settings.fieldNames) ∧
      (∃ other, Interface.ofJson? value = some other ∧ interface.Same other) ∧
      read Settings.ofJson? settings.toJson.toDocument = .ok settings ∧
      Settings.ofJson? (.ofMembers (unknown ++ given.members)) =
        some { keyBuckets := 7 } := by
  intro interface value settings given unknown
  have distinct : ∀ binding ∈ interface.bindings, binding.Distinct := by decide
  have fits : settings.Fits := ⟨by decide, by decide, by decide⟩
  have reordered : interface.toJson.Reordered value := by
    refine .object (.cons (.mk _ (.refl _)) (.cons (.mk _ (.refl _)) (.cons (.mk _ (.refl _))
      (.cons (.mk _ (.array (.cons (.object ?_ (.swap _ _ _)) .nil))) .nil))))
      (List.reverse_perm _).symm
    exact List.forall₂_same.mpr fun member _ => .mk _ (.refl _)
  have within : given.Fits := ⟨nofun, nofun, by rintro _ ⟨⟩; decide⟩
  have strange : ∀ member ∈ unknown, member.1 ∉ Settings.fieldNames := by decide
  obtain ⟨⟨-, -, again⟩, ⟨same, -⟩, partly⟩ :=
    written_reads_back interface distinct settings fits
  exact ⟨distinct, fits, reordered, within, strange, again value reordered, same,
    partly given unknown _ within strange List.perm_append_comm⟩

end Document

end CueRouter
