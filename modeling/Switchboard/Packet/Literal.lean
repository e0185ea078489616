import Switchboard.Codec.Basic
import Switchboard.Text.Hex

/-!
# Literals

A literal is a payload written as JSON so that nothing of it is lost: integers are decimal texts, doubles are the
sixteen hexadecimal digits of their bits, bytes are hexadecimal texts, and the member `type` says which payload it
is. Literals are for scripts and for people; messages are written by codecs.

A literal may also stand for a payload in other ways: as the text of a JSON message, as the writes of a value of a
type of its own, or as a header that answers another. Of a value of a type of its own only the tag is written.
-/

namespace Switchboard

/-- Why a literal stands for no payload. -/
inductive LiteralError
  | unreadable (what : String)
  | validation (e : ValidationError)
  | codec (e : CodecError)
  | destination
deriving DecidableEq

namespace Literal

/-! ### Numbers -/

/-- The integer of a decimal text. -/
def int? (s : String) : Option Int :=
  match s.toList with
  | '-' :: r => (String.ofList r).toNat?.map fun n => -(n : Int)
  | _ => s.toNat?.map Int.ofNat

def ofInt64 (n : Int64) : Json := .str (String.ofList (Decimal.intText n.toInt))

/-- The eight bytes of a double, the most significant first. -/
def binary64Bytes (x : Binary64) : Bytes := (List.range 8).map fun i => UInt8.ofNat (x.bits.toNat >>> (8 * (7 - i)))

def ofBinary64 (x : Binary64) : Json := .str (Hex.encode (binary64Bytes x))

/-! ### Reading -/

abbrev Reader := Except LiteralError

def orElse {α : Type} (what : String) : Option α → Reader α
  | some a => .ok a
  | none => .error (.unreadable what)

def valid {α : Type} : Except ValidationError α → Reader α
  | .ok a => .ok a
  | .error e => .error (.validation e)

/-- A member that has to be there. -/
def member (v : Json) (name : String) : Reader Json := orElse name (v.member? name)

def text (v : Json) (name : String) : Reader String := orElse name ((v.member? name).bind Json.getStr?)

def list (v : Json) (name : String) : Reader (List Json) := orElse name ((v.member? name).bind Json.getArr?)

def texts (what : String) (v : Json) : Reader (List String) :=
  orElse what (v.getArr?.bind fun l => l.mapM Json.getStr?)

def int64 (v : Json) : Reader Int64 := Int64.ofInt <$> orElse "integer" (v.getStr?.bind int?)

def bytes (v : Json) : Reader Bytes := orElse "bytes" (v.getStr?.bind Hex.decode?)

def binary64 (v : Json) : Reader Binary64 := do
  pure ⟨UInt64.ofNat ((← bytes v).foldl (fun n b => n * 256 + b.toNat) 0)⟩

/-- An identity is a list of at least three segments. -/
def identity (v : Json) : Reader Identity := do
  match (← texts "identity" v).reverse with
  | client :: group :: app :: namespaces => valid (Identity.of? namespaces.reverse app group client)
  | _ => .error (.unreadable "identity")

/-- A subject is a dotted text or a list of segments. -/
def subject : Json → Reader Subject
  | .str s => valid (Subject.parse s)
  | v => do valid (Subject.ofSegments (← texts "subject" v))

/-- A topic is a dotted text, or a list of segments that are taken as they are. -/
def topic : Json → Reader (List String)
  | .str s => .ok (Topic.split s)
  | v => texts "topic" v

def destination (v : Json) : Reader Destination :=
  match Destination.ofJson? v with
  | some d => .ok d
  | none => .error .destination

def logRecord (v : Json) : Reader LogRecord := do
  pure ⟨← int64 (← member v "timestamp_ms"), ← orElse "level" (LogLevel.ofText? (← text v "level")),
    ← text v "logger", ← text v "message"⟩

def reading (v : Json) : Reader Reading := do
  pure (Reading.of (← text v "sensor") (← binary64 (← member v "value")))

def station (v : Json) : Reader Station := do
  let latest ← match v.member? "latest" with
    | none | some .null => pure none
    | some r => some <$> reading r
  pure ⟨← text v "name", ← orElse "active" ((v.member? "active").bind Json.getBool?), ← int64 (← member v "id"),
    ← texts "tags" (← member v "tags"), ← (← list v "samples").mapM binary64, ← (← list v "counts").mapM int64,
    ← bytes (← member v "blob"), latest, ← (← list v "history").mapM reading⟩

/-- The payload of a JSON message. -/
def decoded (types : TypeRegistry) (message : String) : Reader Payload :=
  match Codec.json.decode types (Utf8.encode message) with
  | .ok p => .ok p
  | .error e => .error (.codec e)

/-- Reads a header, with room for so many requests that are answered inside one another. -/
def headerWithin (types : TypeRegistry) : (room : Nat) → Json → Reader PacketHeader
  | 0, _ => .error (.unreadable "header")
  | room + 1, v => do
    match ← text v "type" with
    | "Header" =>
      let h := Header.of (← subject (← member v "subject")) (← identity (← member v "source"))
      pure (.plain { h with packetId := (v.member? "packet_id").bind Json.getStr? })
    | "RpcHeader" =>
      pure (.rpc (RpcHeader.of (← subject (← member v "subject")) (← identity (← member v "source"))
        (← destination (← member v "destination")) ⟨← text v "cid"⟩))
    | "ReplyHeader" =>
      match ← headerWithin types room (← member v "request") with
      | .rpc request => pure (.rpc (request.replyTo (← identity (← member v "responder"))))
      | .plain _ => .error (.unreadable "request")
    | "json" =>
      match ← decoded types (← text v "text") with
      | .header h => pure (.plain h)
      | .rpcHeader h => pure (.rpc h)
      | _ => .error (.unreadable "header")
    | _ => .error (.unreadable "header")

/-- Reads one write of a value of a type of its own. -/
def write (payload : Json → Reader Payload) (v : Json) : Reader (String × Field) := do
  let value ← member v "value"
  let items := list v "value"
  let f ← match ← text v "put" with
    | "bool" => Field.bool <$> orElse "value" value.getBool?
    | "i64" => Field.int <$> int64 value
    | "f64" => Field.float <$> binary64 value
    | "str" => Field.str <$> orElse "value" value.getStr?
    | "bytes" => Field.bytes <$> bytes value
    | "str_list" => Field.strList <$> texts "value" value
    | "i64_list" => do pure (Field.intList (← (← items).mapM int64))
    | "f64_list" => do pure (Field.floatList (← (← items).mapM binary64))
    | "object" => do pure (Field.object (← payload value).toRecord)
    | "object_list" => do pure (Field.objectList ((← (← items).mapM payload).map Payload.toRecord))
    | _ => .error (.unreadable "put")
  pure (← text v "name", f)

/-- Reads a payload, with room for so many payloads inside one another. -/
def payloadWithin (types : TypeRegistry) : (room : Nat) → Json → Reader Payload
  | 0, _ => .error (.unreadable "payload")
  | room + 1, v => do
    match ← text v "type" with
    | "BooleanValue" => .boolean <$> orElse "value" ((v.member? "value").bind Json.getBool?)
    | "IntegerValue" => do pure (.integer (← int64 (← member v "value")))
    | "DoubleValue" => do pure (.double (← binary64 (← member v "value")))
    | "StringValue" => .string <$> text v "value"
    | "ErrorPayload" => do pure (.error ⟨← text v "code", ← text v "message"⟩)
    | "LogRecord" => .logRecord <$> logRecord v
    | "LogBatch" => do pure (.logBatch (← (← list v "records").mapM logRecord))
    | "Packet" => do
      let header ← headerWithin types (room + 1) (← member v "header")
      pure (.packet header (← (← list v "payloads").mapM (payloadWithin types room)))
    | "Reading" => .reading <$> reading v
    | "Station" => .station <$> station v
    | "json" => do decoded types (← text v "text")
    | "Fields" => do
      pure (.custom (.mk (← text v "tag") (← (← list v "fields").mapM (write (payloadWithin types room)))))
    | _ => do
      match ← headerWithin types (room + 1) v with
      | .plain h => pure (.header h)
      | .rpc h => pure (.rpcHeader h)

/-- The payload of a literal. What is nested in it is less high than itself. -/
def payload (types : TypeRegistry) (v : Json) : Reader Payload := payloadWithin types (v.height + 1) v

/-- The packet of a literal. -/
def packet (types : TypeRegistry) (v : Json) : Reader Packet := do
  orElse "packet" (Packet.ofPayload? (← payload types v))

/-- A message is a text, bytes, or what a codec makes of a payload; without a name the codec is JSON. -/
def message (types : TypeRegistry) (v : Json) : Reader Bytes :=
  match v.member? "text", v.member? "hex" with
  | some (.str s), _ => .ok (Utf8.encode s)
  | _, some bs => bytes bs
  | _, none => do
    let codec ← orElse "codec" (((v.member? "codec").bind Json.getStr?).elim (some .json) Codec.ofLower?)
    match codec.encode (← payload types (← member v "value")) with
    | .ok bs => .ok bs
    | .error e => .error (.codec e)

/-! ### Writing -/

def ofText? (s : Option String) : Json :=
  match s with
  | some s => .str s
  | none => .null

def headerMembers (h : Header) : List (String × Json) :=
  [("subject", .strings h.subject), ("source", .strings h.source), ("packet_id", ofText? h.packetId)]

def ofHeader : PacketHeader → Json
  | .plain h => .object (("type", .str Header.tag) :: headerMembers h)
  | .rpc h => .object (("type", .str RpcHeader.tag) :: headerMembers h.base ++
      [("destination_group_id", .str h.destinationGroup), ("destination_client_id", .str h.destinationClient)])

def ofError (e : ErrorPayload) : Json :=
  .object [("type", .str ErrorPayload.tag), ("code", .str e.code), ("message", .str e.message)]

def ofLogRecord (r : LogRecord) : Json :=
  .object [("type", .str LogRecord.tag), ("timestamp_ms", ofInt64 r.timestampMs), ("level", r.level.toJson),
    ("logger", .str r.logger), ("message", .str r.message)]

def ofReading (r : Reading) : Json :=
  .object [("type", .str Reading.tag), ("sensor", .str r.sensor), ("value", ofBinary64 r.value),
    ("label", .str r.label)]

def ofStation (s : Station) : Json :=
  .object [("type", .str Station.tag), ("name", .str s.name), ("active", .bool s.active), ("id", ofInt64 s.id),
    ("tags", .strings s.tags), ("samples", .arr (s.samples.map ofBinary64)), ("counts", .arr (s.counts.map ofInt64)),
    ("blob", .str (Hex.encode s.blob)), ("latest", (s.latest.map ofReading).getD .null),
    ("history", .arr (s.history.map ofReading))]

mutual
/-- The literal of a payload. -/
def ofPayload : Payload → Json
  | .boolean b => .object [("type", .str Payload.booleanTag), ("value", .bool b)]
  | .integer n => .object [("type", .str Payload.integerTag), ("value", ofInt64 n)]
  | .double x => .object [("type", .str Payload.doubleTag), ("value", ofBinary64 x)]
  | .string s => .object [("type", .str Payload.stringTag), ("value", .str s)]
  | .error e => ofError e
  | .logRecord r => ofLogRecord r
  | .logBatch l => .object [("type", .str Payload.logBatchTag), ("records", .arr (l.map ofLogRecord))]
  | .header h => ofHeader (.plain h)
  | .rpcHeader h => ofHeader (.rpc h)
  | .packet h payloads =>
    .object [("type", .str Payload.packetTag), ("header", ofHeader h), ("payloads", .arr (ofPayloads payloads))]
  | .reading r => ofReading r
  | .station s => ofStation s
  | .custom r => .object [("type", .str r.tag)]

def ofPayloads : List Payload → List Json
  | [] => []
  | p :: ps => ofPayload p :: ofPayloads ps
end

def ofPacket (p : Packet) : Json := ofPayload p.toPayload

/-- A message in JSON is shown as its text, any other in hexadecimal digits. -/
def ofMessage (bs : Bytes) : Json :=
  match Codec.detect bs, Utf8.decode? bs with
  | .json, some s => .object [("text", .str s)]
  | _, _ => .object [("hex", .str (Hex.encode bs))]

end Literal

end Switchboard
