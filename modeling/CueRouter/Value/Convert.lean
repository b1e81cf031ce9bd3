import CueRouter.Value.Basic

/-!
# Conversion between kinds

A value converts to another numeric kind by way of its whole reading, wrapped
to the width of the kind, or by way of its real reading where the kind is the
float. Only a reference fits a reference, and a failed result stays failed. As
a field kind, the kind of any value leaves every value unchanged.
-/

namespace CueRouter.Value

/-- The value made from the whole reading, invalid where there is none. -/
def viaWhole (make : Int64 → Value) (v : Value) : Value :=
  match v.toWhole? with
  | some n => make n
  | none => invalid

/-- The value made from the real reading, invalid where there is none. -/
def viaReal (make : Double → Value) (v : Value) : Value :=
  match v.toReal? with
  | some x => make x
  | none => invalid

/-- The value converted to the kind, invalid where that makes no sense. -/
def convert (v : Value) (kind : Kind) : Value :=
  if v.kind = kind then v
  else
    match kind with
    | .any => v
    | .byte => viaWhole (fun n => byte (.ofInt n.toInt)) v
    | .int => viaWhole (fun n => int n.toInt32) v
    | .long => viaWhole long v
    | .float => viaReal (fun x => float x.narrow) v
    | .range => viaWhole (fun n => range (.single n.toInt32)) v
    | .reference | .invalid => invalid

/-- Conversion to the kind a value already has changes nothing. -/
theorem convert_kind (v : Value) : v.convert v.kind = v := by
  simp [convert]

/-- The kind of any value leaves every value unchanged. -/
theorem convert_any (v : Value) : v.convert .any = v := by
  simp [convert]

theorem kind_viaWhole {make : Int64 → Value} {kind : Kind}
    (h : ∀ n, (make n).kind = kind) (v : Value) :
    (viaWhole make v).kind = kind ∨ viaWhole make v = invalid := by
  unfold viaWhole
  split
  · exact .inl (h _)
  · exact .inr rfl

theorem kind_viaReal {make : Double → Value} {kind : Kind}
    (h : ∀ x, (make x).kind = kind) (v : Value) :
    (viaReal make v).kind = kind ∨ viaReal make v = invalid := by
  unfold viaReal
  split
  · exact .inl (h _)
  · exact .inr rfl

/-- Conversion yields the kind asked for or fails, unless any kind will do. -/
theorem kind_convert (v : Value) {kind : Kind} (h : kind ≠ .any) :
    (v.convert kind).kind = kind ∨ v.convert kind = invalid := by
  unfold convert
  split
  · next same => exact .inl same
  · cases kind with
    | any => exact absurd rfl h
    | reference | invalid => exact .inr rfl
    | float => apply kind_viaReal; intro _; rfl
    | byte | int | long | range => apply kind_viaWhole; intro _; rfl

end CueRouter.Value
