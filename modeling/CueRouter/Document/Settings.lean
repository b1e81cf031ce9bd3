import CueRouter.Document.Basic
import CueRouter.Settings

/-!
# Settings in documents

Settings are a record of four fields. Those that a document does not give keep
their stock values.
-/

namespace CueRouter.Settings

open Document Text

/-- The names of the fields, in order. -/
def fieldNames : List String :=
  ["pool-size", "max-dispatch-depth", "debug", "key-index-size"]

/-- The settings of a record. -/
def ofRecord? (record : Record) : Option Settings := do
  let stock : Settings := {}
  let poolSize ← record.readOr? "pool-size" stock.poolSize
    (readNat? Numeral.unsigned64)
  let depthLimit ← record.readOr? "max-dispatch-depth" stock.depthLimit
    (readNat? Numeral.unsigned64)
  let debug ← record.readOr? "debug" stock.debug Json.toBool?
  let keyBuckets ← record.readOr? "key-index-size" stock.keyBuckets
    (readNat? Numeral.unsigned32)
  return { poolSize, depthLimit, debug, keyBuckets }

/-- The settings that a value describes. -/
def ofJson? (value : Json) : Option Settings :=
  (Record.ofJson? fieldNames value).bind ofRecord?

/-- The settings as a value. -/
def toJson (settings : Settings) : Json :=
  .ofMembers [("pool-size", .ofInt settings.poolSize),
    ("max-dispatch-depth", .ofInt settings.depthLimit),
    ("debug", .bool settings.debug),
    ("key-index-size", .ofInt settings.keyBuckets)]

end CueRouter.Settings
