/-!
# Engine settings

Sizes and switches that apply to a whole engine.
-/

namespace CueRouter

/-- Sizes and switches of an engine. -/
structure Settings where
  /-- The number of events that can be on their way at once. -/
  poolSize : Nat := 256
  /-- How deeply dispatches may nest. -/
  depthLimit : Nat := 16
  /-- Whether verbose messages are on from the start. -/
  debug : Bool := false
  /-- The number of buckets that keyboard bindings are spread over. -/
  keyBuckets : Nat := 512
  deriving DecidableEq

end CueRouter
