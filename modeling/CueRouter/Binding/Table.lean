import CueRouter.Binding.Basic
import CueRouter.Event.Catalog

/-!
# The binding table

Chains are kept by the type of their input and, within a type, in buckets. A
type with an indexed field has one bucket for each remainder of that field and
a last one for chains that do not depend on it; any other type has only that
last one. Buckets are made when the first chain of a type arrives. A bucket is
one run of bindings; the marks on them tell where a chain goes on. A live event
is answered by the first chain whose head applies, searched in the bucket of
its indexed field and then in the last bucket.
-/

namespace CueRouter

/-- Which bucket a chain belongs in. -/
inductive Slot where
  /-- The bucket of this number. -/
  | indexed (number : Nat)
  /-- The last bucket. -/
  | wildcard
  deriving DecidableEq

/-- The slot as messages show it. -/
def Slot.text : Slot → String
  | indexed number => "Indexed(" ++ Text.Numeral.text number ++ ")"
  | wildcard => "Wildcard"

/-- The number of the bucket, out of `buckets`, for a value of the indexed
field. -/
def bucketOf (buckets : Nat) (n : Int64) : Nat := (n.toInt % buckets).toNat

/-- How the chains of a type are spread over buckets. -/
structure Spread where
  /-- The position of the indexed field. -/
  field : Nat
  /-- The number of buckets besides the last. -/
  buckets : Nat
  deriving DecidableEq

/-- The chains of one event type. -/
structure BucketSet where
  /-- How the chains are spread, if the type has an indexed field. -/
  spread : Option Spread
  /-- The buckets, the wildcard bucket last. -/
  buckets : Array (List Chain.Link)

namespace BucketSet

/-- How a schema spreads the chains of its type. -/
def spreadOf (schema : Schema) : Option Spread := do
  let field ← schema.indexedField?
  let buckets ← field.buckets
  return ⟨field.index, buckets⟩

/-- The number of the wildcard bucket. -/
def wildcardOf (spread : Option Spread) : Nat :=
  match spread with
  | some s => s.buckets
  | none => 0

/-- Empty buckets for the type of a schema. -/
def ofSchema (schema : Schema) : BucketSet :=
  let spread := spreadOf schema
  ⟨spread, Array.replicate (wildcardOf spread + 1) []⟩

/-- The number of the wildcard bucket. -/
def wildcard (set : BucketSet) : Nat := wildcardOf set.spread

/-- The number of the bucket for a slot. -/
def position (set : BucketSet) (slot : Slot) : Nat :=
  match slot, set.spread with
  | .indexed number, some spread => number % spread.buckets
  | _, _ => set.wildcard

/-- The number of the bucket that an event selects by its indexed field, which
must hold a plain number. -/
def primary (set : BucketSet) (event : Event) : Except DispatchFault (Option Nat) :=
  match set.spread with
  | none => .ok none
  | some spread =>
    let value := event.field spread.field
    if value.isScalar then
      .ok (value.toWhole?.map (bucketOf spread.buckets))
    else .error (.indexNotScalar event.type)

/-- The bindings in a bucket, in order of arrival. -/
def run (set : BucketSet) (number : Nat) : List Chain.Link :=
  set.buckets[number]?.getD []

/-- The chains in a bucket, in order of arrival. -/
def bucket (set : BucketSet) (number : Nat) : List Chain :=
  Chain.ofLinks (set.run number)

/-- Add bindings at the end of a bucket. -/
def push (set : BucketSet) (number : Nat) (links : List Chain.Link) : BucketSet :=
  { set with buckets := set.buckets.modify number fun run => run ++ links }

/-- The first chain of a bucket whose head applies. A head that does not takes
the bindings that follow it along. -/
def scan (set : BucketSet) (number : Nat) (event : Event) (store : Store) :
    Option Chain :=
  (set.bucket number).find? fun chain => chain.head.applies event store

/-- The chain that answers an event: from the bucket its indexed field selects,
or else from the wildcard bucket. -/
def find (set : BucketSet) (event : Event) (store : Store) :
    Except DispatchFault (Option Chain) := do
  let selected ← set.primary event
  return (selected.bind fun number => set.scan number event store).or
    (set.scan set.wildcard event store)

end BucketSet

/-- All compiled bindings. -/
structure Table where
  /-- The buckets of each type that has any. -/
  sets : ByType (Option BucketSet)
  /-- The number of bindings. -/
  size : Nat

namespace Table

/-- A table without bindings or buckets. -/
def empty : Table := ⟨.ofFn fun _ => none, 0⟩

/-- The buckets of a type, made empty where there are none yet. -/
def setFor (table : Table) (schema : Schema) : BucketSet :=
  (table.sets.get schema.type).getD (.ofSchema schema)

/-- Add the bindings of one declaration to a bucket of the schema's type, each
marked as continued but the last. -/
def insert (table : Table) (schema : Schema) (slot : Slot) (bindings : List Binding) :
    Table :=
  let set := table.setFor schema
  let grown := set.push (set.position slot) (Chain.linksOf bindings)
  ⟨table.sets.set schema.type (some grown), table.size + bindings.length⟩

/-- The chain that answers an event. -/
def find (table : Table) (event : Event) (store : Store) :
    Except DispatchFault (Option Chain) :=
  match table.sets.get event.type with
  | some set => set.find event store
  | none => .ok none

/-- The chains in the bucket of a slot. -/
def bucket (table : Table) (type : EventType) (slot : Slot) : List Chain :=
  match table.sets.get type with
  | some set => set.bucket (set.position slot)
  | none => []

/-- The number of buckets of a type. -/
def bucketCount (table : Table) (type : EventType) : Nat :=
  match table.sets.get type with
  | some set => set.buckets.size
  | none => 0

end Table

end CueRouter
