import Switchboard.Json.Text
import Switchboard.Packet.TypeRegistry

/-!
# Codecs

The two formats of messages. The codec of a message is told by its first byte that is no blank: JSON messages start
with a brace, and no MessagePack message does.
-/

namespace Switchboard

inductive Codec
  | json
  | messagePack
deriving DecidableEq, Repr, Inhabited

namespace Codec

def all : List Codec := [json, messagePack]

def text : Codec → String
  | json => "json"
  | messagePack => "msgpack"

/-- The codec of a lower-case name. -/
def ofLower? : String → Option Codec
  | "json" => some json
  | "msgpack" => some messagePack
  | "messagepack" => some messagePack
  | "binary" => some messagePack
  | _ => none

/-- The codec of a name in any case. -/
def ofText? (name : String) : Option Codec := ofLower? name.toLower

/-- Why a name is no codec. -/
def unknownMessage (name : String) : String := s!"unknown codec '{name.toLower}'"

def toJson (c : Codec) : Json := .str c.text

/-- A name alone, or as the only member of an object that holds null. -/
def ofJson? (v : Json) : Option Codec := do
  let name ← v.variant?
  all.find? (·.text == name)

/-! ### Detection -/

/-- The blank bytes: space, tab, line feed, form feed, carriage return. -/
def isBlank (b : UInt8) : Bool := b == 32 || b == 9 || b == 10 || b == 12 || b == 13

/-- The opening brace. -/
def brace : UInt8 := 123

/-- The codec that the first byte of a message speaks for. -/
def detect (bytes : Bytes) : Codec := if bytes.find? (!isBlank ·) = some brace then json else messagePack

/-! ### Encoding and decoding -/

/-- The bytes of a record. -/
def write (c : Codec) (r : Record) : Except CodecError Bytes :=
  match c with
  | json => do
    let v ← Json.ofRecord r
    pure (Utf8.encodeChars v.print)
  | messagePack => .ok (MessagePack.encode r)

/-- The document that a message spells. -/
def read (c : Codec) (bytes : Bytes) : Except CodecError Document :=
  match c with
  | json =>
    match Json.parseBytes? bytes with
    | none => .error .malformedJson
    | some (.obj members) => .ok (.json members)
    | some _ => .error .notAnObject
  | messagePack =>
    match MessagePack.decode? bytes with
    | none => .error .malformedMessagePack
    | some r => .ok (.messagePack r)

/-- The bytes of a payload. -/
def encode (c : Codec) (p : Payload) : Except CodecError Bytes := c.write p.toRecord

/-- The payload of a message, as the type of its tag. -/
def decode (c : Codec) (types : TypeRegistry) (bytes : Bytes) : Except CodecError Payload := do
  Payload.ofDocument types (← c.read bytes)

/-- The payload of a message, as one type. -/
def decodeAs (c : Codec) (types : TypeRegistry) (t : PayloadType) (bytes : Bytes) : Except CodecError Payload := do
  Payload.ofDocumentAs types t (← c.read bytes)

end Codec

end Switchboard
