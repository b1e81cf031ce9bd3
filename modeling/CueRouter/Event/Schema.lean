import CueRouter.Event.Basic
import CueRouter.Fault
import CueRouter.Value.Convert

/-!
# Event schemas

A schema lists the fields of one event type. At most one field is indexed: the
binding table is spread over buckets by its value. Adding an indexed field
takes the index away from the one before. Instances start from the prototype,
which holds the zero of every field's kind, and convert each value they are
given to the kind of its field.
-/

namespace CueRouter

/-- One field of an event type. -/
structure Field where
  /-- The name in configuration. -/
  name : String
  /-- The position among the values of an event. -/
  index : Nat
  /-- The kind of value the field holds. -/
  kind : Kind
  /-- On the indexed field, the number of buckets its values are spread over. -/
  buckets : Option Nat
  /-- Whether keyboard key names may stand for values of the field. -/
  keyNames : Bool
  deriving DecidableEq

/-- How a field is added to a schema. -/
inductive FieldForm where
  /-- An ordinary field. -/
  | plain (name : String) (kind : Kind)
  /-- The indexed field. -/
  | indexed (name : String) (kind : Kind) (buckets : Nat)
  /-- The indexed field, an int that key names may stand for. -/
  | key (name : String) (buckets : Nat)

/-- The field that a form describes at a position. There is at least one
bucket. -/
def FieldForm.toField (index : Nat) : FieldForm → Field
  | plain name kind => ⟨name, index, kind, none, false⟩
  | indexed name kind buckets => ⟨name, index, kind, some (max buckets 1), false⟩
  | key name buckets => ⟨name, index, .int, some (max buckets 1), true⟩

/-- The fields of one event type. -/
structure Schema where
  /-- The event type. -/
  type : EventType
  /-- The fields in order. -/
  fields : List Field
  /-- The position of the indexed field. -/
  indexed : Option Nat
  deriving DecidableEq

namespace Schema

/-- A schema without fields. -/
def empty (type : EventType) : Schema := ⟨type, [], none⟩

/-- The field without its index. -/
def unindex (field : Field) : Field := { field with buckets := none }

/-- Add a field at the end; one with buckets becomes the indexed field. -/
def add (schema : Schema) (form : FieldForm) : Schema :=
  let added := form.toField schema.fields.length
  match added.buckets with
  | none => { schema with fields := schema.fields ++ [added] }
  | some _ =>
    let earlier := match schema.indexed with
      | some old => schema.fields.modify old unindex
      | none => schema.fields
    { schema with fields := earlier ++ [added], indexed := some added.index }

/-- The schema of a type with the fields added one by one. -/
def ofForms (type : EventType) (forms : List FieldForm) : Schema :=
  forms.foldl add (empty type)

/-- The field of this name. -/
def find? (schema : Schema) (name : String) : Option Field :=
  schema.fields.find? fun field => field.name == name

/-- The field that the binding table is spread over, if any. -/
def indexedField? (schema : Schema) : Option Field :=
  schema.indexed.bind fun index => schema.fields[index]?

/-- The event with every field at its zero. -/
def prototype (schema : Schema) : Event :=
  ⟨schema.type, schema.fields.map fun field => field.kind.zero, false⟩

/-- The event with one more named value converted into its field. -/
def assign (schema : Schema) (event : Event) (pair : String × Value) :
    Except ConfigFault Event :=
  match schema.find? pair.1 with
  | some field => .ok (event.setField field.index (pair.2.convert field.kind))
  | none => .error (.unknownField schema.type pair.1)

/-- An event from named values; fields not named keep their zero. -/
def build (schema : Schema) (values : List (String × Value)) :
    Except ConfigFault Event :=
  values.foldlM schema.assign schema.prototype

/-- Read a field of an event by name. -/
def read? (schema : Schema) (event : Event) (name : String) : Option Value :=
  (schema.find? name).map fun field => event.field field.index

/-- The prototype has one value for each field. -/
theorem length_prototype (schema : Schema) :
    schema.prototype.fields.length = schema.fields.length := by
  simp [prototype]

@[simp] theorem type_add (schema : Schema) (form : FieldForm) :
    (schema.add form).type = schema.type := by
  unfold add
  simp only
  split <;> rfl

/-- A schema describes the type it was made for. -/
@[simp] theorem type_ofForms (type : EventType) (forms : List FieldForm) :
    (ofForms type forms).type = type := by
  have (schema : Schema) : (forms.foldl add schema).type = schema.type := by
    induction forms generalizing schema with
    | nil => rfl
    | cons form forms ih => rw [List.foldl_cons, ih, type_add]
  exact this _

end Schema

end CueRouter
