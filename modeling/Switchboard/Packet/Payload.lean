import Switchboard.Log.Event
import Switchboard.Telemetry

/-!
# Payloads

The values that packets carry: scalars, errors, log records, headers, readings and stations, whole packets, and
values of types that no registry knows, of which only the record is known. Each writes itself as a record and says
whether it may be sent.
-/

namespace Switchboard

/-- An error that travels as a payload. -/
structure ErrorPayload where
  code : String
  message : String
deriving DecidableEq, Repr, Inhabited

/-- A typed value. -/
inductive Payload
  | boolean (b : Bool)
  | integer (n : Int64)
  | double (x : Binary64)
  | string (s : String)
  | error (e : ErrorPayload)
  | logRecord (r : LogRecord)
  | logBatch (records : List LogRecord)
  | header (h : Header)
  | rpcHeader (h : RpcHeader)
  | packet (header : PacketHeader) (payloads : List Payload)
  | reading (r : Reading)
  | station (s : Station)
  | custom (r : Record)

instance : Inhabited Payload := ⟨.boolean false⟩

/-- A header and what it announces. -/
structure Packet where
  header : PacketHeader
  payloads : List Payload
deriving Inhabited

/-! ### Errors and log records -/

namespace ErrorPayload

def tag : String := "ErrorPayload"

def text (e : ErrorPayload) : String := s!"[{e.code}] {e.message}"

def toRecord (e : ErrorPayload) : Record := .mk tag [("code", .str e.code), ("message", .str e.message)]

def read (d : Document) : Except CodecError ErrorPayload := do
  pure ⟨← d.getStr "code", ← d.getStr "message"⟩

def validate (e : ErrorPayload) : Except ValidationError Unit :=
  if e.code.isEmpty then .error (.invalidPayload tag "code is empty") else .ok ()

end ErrorPayload

namespace LogRecord

def tag : String := "LogRecord"

def toRecord (r : LogRecord) : Record :=
  .mk tag [("timestamp_ms", .int r.timestampMs), ("level", .str r.level.text), ("logger", .str r.logger),
    ("message", .str r.message)]

def read (d : Document) : Except CodecError LogRecord := do
  let timestampMs ← d.getInt "timestamp_ms"
  let name ← d.getStr "level"
  let level ← match LogLevel.ofText? name with
    | some level => .ok level
    | none => .error (.invalidField "level" (.unknownLevel name))
  pure ⟨timestampMs, level, ← d.getStr "logger", ← d.getStr "message"⟩

/-- Reads a nested record, tag and all. -/
def readTagged (d : Document) : Except CodecError LogRecord := do
  d.requireTag tag
  read d

def validate (r : LogRecord) : Except ValidationError Unit :=
  if r.logger.isEmpty then .error (.invalidPayload tag "logger is empty")
  else if r.timestampMs < 0 then .error (.invalidPayload tag "timestamp is negative")
  else .ok ()

end LogRecord

/-! ### All payloads -/

namespace Payload

/-- The tags of the payloads that have no type of their own. -/
def booleanTag : String := "BooleanValue"
def integerTag : String := "IntegerValue"
def doubleTag : String := "DoubleValue"
def stringTag : String := "StringValue"
def logBatchTag : String := "LogBatch"
def packetTag : String := "Packet"

mutual
/-- The record that a payload writes. -/
def toRecord : Payload → Record
  | boolean b => .mk booleanTag [("value", .bool b)]
  | integer n => .mk integerTag [("value", .int n)]
  | double x => .mk doubleTag [("value", .float x)]
  | string s => .mk stringTag [("value", .str s)]
  | error e => e.toRecord
  | logRecord r => r.toRecord
  | logBatch records => .mk logBatchTag [("records", .objectList (records.map LogRecord.toRecord))]
  | header h => h.toRecord
  | rpcHeader h => h.toRecord
  | packet h payloads =>
    .mk packetTag [("header", .object h.toRecord), ("payloads", .objectList (toRecords payloads))]
  | reading r => r.toRecord
  | station s => s.toRecord
  | custom r => r

def toRecords : List Payload → List Record
  | [] => []
  | p :: ps => p.toRecord :: toRecords ps
end

/-- The type tag of a payload. -/
def tag (p : Payload) : String := p.toRecord.tag

mutual
/-- Refuses a payload that may not be sent. -/
def validate : Payload → Except ValidationError Unit
  | error e => e.validate
  | logRecord r => r.validate
  | logBatch records =>
    if records.isEmpty then .error (.invalidPayload logBatchTag "batch is empty")
    else records.forM LogRecord.validate
  | header h => h.validate
  | rpcHeader h => h.validate
  | packet h payloads => do
    h.validate
    validateAll payloads
  | _ => .ok ()

/-- Refuses the first payload of a list that may not be sent. -/
def validateAll : List Payload → Except ValidationError Unit
  | [] => .ok ()
  | p :: ps => do
    p.validate
    validateAll ps
end

/-- The error that a payload carries. -/
def error? : Payload → Option ErrorPayload
  | error e => some e
  | _ => none

end Payload

namespace Packet

def toPayload (p : Packet) : Payload := .packet p.header p.payloads

/-- The packet that a payload is. -/
def ofPayload? : Payload → Option Packet
  | .packet h payloads => some ⟨h, payloads⟩
  | _ => none

def validate (p : Packet) : Except ValidationError Unit := p.toPayload.validate

/-- The errors among the payloads, in order. -/
def errors (p : Packet) : List ErrorPayload := p.payloads.filterMap Payload.error?

/-- The payloads that are no errors, in order. -/
def others (p : Packet) : List Payload := p.payloads.filter (·.error?.isNone)

end Packet

end Switchboard
