import Switchboard.Packet.Header

/-!
# Telemetry

Payloads of measuring stations. A reading carries a label that follows from its sensor and value; the label is not
sent but made anew when a reading is decoded.
-/

namespace Switchboard

structure Reading where
  sensor : String
  value : Binary64
  label : String
deriving DecidableEq

structure Station where
  name : String
  active : Bool
  id : Int64
  tags : List String
  samples : List Binary64
  counts : List Int64
  blob : Bytes
  latest : Option Reading
  history : List Reading
deriving DecidableEq

namespace Reading

def tag : String := "Reading"

/-- The label of a sensor and a value in plain notation. -/
def labelOf (sensor : String) (value : Binary64) : String :=
  s!"{sensor}={String.ofList (Decimal.text Decimal.plain value)}"

/-- A reading with its label. -/
def of (sensor : String) (value : Binary64) : Reading := ⟨sensor, value, labelOf sensor value⟩

/-- The label follows from the rest. -/
def Labelled (r : Reading) : Prop := r.label = labelOf r.sensor r.value

def toRecord (r : Reading) : Record := .mk tag [("sensor", .str r.sensor), ("value", .float r.value)]

def read (d : Document) : Except CodecError Reading := do
  pure (of (← d.getStr "sensor") (← d.getFloat "value"))

/-- Reads a nested reading, tag and all. -/
def readTagged (d : Document) : Except CodecError Reading := do
  d.requireTag tag
  read d

end Reading

namespace Station

def tag : String := "Station"

def toRecord (s : Station) : Record :=
  .mk tag ([("name", .str s.name), ("active", .bool s.active), ("id", .int s.id), ("tags", .strList s.tags),
    ("samples", .floatList s.samples), ("counts", .intList s.counts), ("blob", .bytes s.blob)] ++
    (match s.latest with
      | some r => [("latest", .object r.toRecord)]
      | none => []) ++
    [("history", .objectList (s.history.map Reading.toRecord))])

def read (d : Document) : Except CodecError Station := do
  let name ← d.getStr "name"
  let active ← d.getBool "active"
  let id ← d.getInt "id"
  let tags ← d.getStrs "tags"
  let samples ← d.getFloats "samples"
  let counts ← d.getInts "counts"
  let blob ← d.getBytes "blob"
  let latest ← if d.hasField "latest" then do
      let child ← d.getObject "latest"
      some <$> Reading.readTagged child
    else pure none
  let history ← (← d.getObjects "history").mapM Reading.readTagged
  pure ⟨name, active, id, tags, samples, counts, blob, latest, history⟩

end Station

end Switchboard
