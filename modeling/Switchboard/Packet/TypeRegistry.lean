import Switchboard.Packet.Payload
import Switchboard.Text.Quoted

/-!
# Payload types and registries

A registry says which types may be decoded. A document is read either as one expected type, which its tag must name,
or as whatever type the registry holds under its tag. The payloads of a packet are always read in the second way.
-/

namespace Switchboard

/-- The types of payloads that can be decoded. -/
inductive PayloadType
  | packet
  | header
  | rpcHeader
  | error
  | boolean
  | integer
  | double
  | string
  | logRecord
  | logBatch
  | reading
  | station
deriving DecidableEq, Repr

namespace PayloadType

def tag : PayloadType → String
  | packet => Payload.packetTag
  | header => Header.tag
  | rpcHeader => RpcHeader.tag
  | error => ErrorPayload.tag
  | boolean => Payload.booleanTag
  | integer => Payload.integerTag
  | double => Payload.doubleTag
  | string => Payload.stringTag
  | logRecord => LogRecord.tag
  | logBatch => Payload.logBatchTag
  | reading => Reading.tag
  | station => Station.tag

/-- The types of the protocol itself. -/
def standard : List PayloadType :=
  [packet, header, rpcHeader, error, boolean, integer, double, string, logRecord, logBatch]

/-- The types of an application that reads instruments. -/
def telemetry : List PayloadType := [reading, station]

def all : List PayloadType := standard ++ telemetry

def ofTag? (tag : String) : Option PayloadType := all.find? (·.tag == tag)

/-- A payload of this type with nothing in it yet. -/
def blank : PayloadType → Payload
  | packet => .packet default []
  | header => .header default
  | rpcHeader => .rpcHeader default
  | error => .error default
  | boolean => .boolean false
  | integer => .integer 0
  | double => .double (.ofInt 0)
  | string => .string ""
  | logRecord => .logRecord default
  | logBatch => .logBatch []
  | reading => .reading ⟨"", .ofInt 0, ""⟩
  | station => .station ⟨"", false, 0, [], [], [], [], none, []⟩

end PayloadType

/-- The types that may be decoded, by their tags. -/
abbrev TypeRegistry := Table PayloadType

namespace TypeRegistry

def empty : TypeRegistry := []

/-- Makes a type known under its own tag. -/
def register (types : TypeRegistry) (t : PayloadType) : TypeRegistry := Table.put t.tag t types

def registerAll (types : TypeRegistry) (ts : List PayloadType) : TypeRegistry := ts.foldl register types

/-- The types of the protocol. -/
def standard : TypeRegistry := registerAll empty PayloadType.standard

/-- The types of the protocol and of telemetry. -/
def full : TypeRegistry := registerAll empty PayloadType.all

def find (types : TypeRegistry) (tag : String) : Except CodecError PayloadType :=
  match Table.get? tag types with
  | some t => .ok t
  | none => .error (.unknownType tag)

/-- A blank payload of the type with a tag. -/
def create (types : TypeRegistry) (tag : String) : Except CodecError Payload := PayloadType.blank <$> types.find tag

/-- The known tags in order, as a text for people. -/
def describe (types : TypeRegistry) : String :=
  "TypeRegistry \x7b tags: " ++ Text.quotedList types.names ++ " \x7d"

end TypeRegistry

/-! ### Decoding -/

namespace Payload

/-- Reads the fields of a document as a type; `inner` reads the payloads of a packet. -/
def readAs (inner : Document → Except CodecError Payload) (d : Document) : PayloadType → Except CodecError Payload
  | .packet => do
    let h ← PacketHeader.read (← d.getObject "header")
    let payloads ← (← d.getObjects "payloads").mapM inner
    pure (packet h payloads)
  | .header => header <$> Header.read d
  | .rpcHeader => rpcHeader <$> RpcHeader.read d
  | .error => error <$> ErrorPayload.read d
  | .boolean => boolean <$> d.getBool "value"
  | .integer => integer <$> d.getInt "value"
  | .double => double <$> d.getFloat "value"
  | .string => string <$> d.getStr "value"
  | .logRecord => logRecord <$> LogRecord.read d
  | .logBatch => do
    let records ← (← d.getObjects "records").mapM LogRecord.readTagged
    pure (logBatch records)
  | .reading => reading <$> Reading.read d
  | .station => station <$> Station.read d

/-- Reads a document as the type of its tag, with room for so many packets inside one another. -/
def ofDocumentWithin (types : TypeRegistry) : (room : Nat) → Document → Except CodecError Payload
  | 0, _ => .error .missingTypeTag
  | room + 1, d =>
    match d.typeTag? with
    | none => .error .missingTypeTag
    | some tag => do readAs (ofDocumentWithin types room) d (← types.find tag)

/-- Reads a document as the type of its tag. A document of height `n` holds at most `n` packets inside one another. -/
def ofDocument (types : TypeRegistry) (d : Document) : Except CodecError Payload :=
  ofDocumentWithin types (d.height + 1) d

/-- Reads a document as one type, which its tag must name. -/
def ofDocumentAs (types : TypeRegistry) (t : PayloadType) (d : Document) : Except CodecError Payload := do
  d.requireTag t.tag
  readAs (ofDocument types) d t

end Payload

end Switchboard
