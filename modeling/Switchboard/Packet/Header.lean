import Switchboard.CorrelationId
import Switchboard.Codec.Document
import Switchboard.Topic.Destination

/-!
# Packet headers

A header says what a packet is about and who sent it. The header of a request or reply also says whom it is for, and
its packet id is the correlation id that ties replies to their request. A header as read may hold anything; `validate`
says whether it may be sent.
-/

namespace Switchboard

structure Header where
  subject : List String
  source : List String
  packetId : Option String
deriving DecidableEq, Repr, Inhabited

structure RpcHeader where
  base : Header
  destinationGroup : String
  destinationClient : String
deriving DecidableEq, Repr, Inhabited

inductive PacketHeader
  | plain (h : Header)
  | rpc (h : RpcHeader)
deriving DecidableEq, Repr

/-- Refuses an empty list, or the first text in it that is no segment. -/
def requireSegments (segments : List String) (field : String) : Except ValidationError Unit :=
  if segments.isEmpty then .error (.missingField field) else Segment.validateAll segments

def requireText (text field : String) : Except ValidationError Unit :=
  if text.isEmpty then .error (.missingField field) else .ok ()

/-! ### Headers of notifications -/

namespace Header

def tag : String := "Header"

def of (subject : Subject) (source : Identity) : Header := ⟨subject.segments, source.address, none⟩

def validate (h : Header) : Except ValidationError Unit := do
  requireSegments h.subject "subject"
  requireSegments h.source "source"
  match h.packetId with
  | some id => requireText id "packet_id"
  | none => pure ()

def fields (h : Header) : List (String × Field) :=
  [("subject", .strList h.subject), ("source", .strList h.source)] ++
    (match h.packetId with
      | some id => [("packet_id", .str id)]
      | none => [])

def toRecord (h : Header) : Record := .mk tag h.fields

def read (d : Document) : Except CodecError Header := do
  pure ⟨← d.getStrs "subject", ← d.getStrs "source", ← d.getStr? "packet_id"⟩

end Header

/-! ### Headers of requests and replies -/

namespace RpcHeader

def tag : String := "RpcHeader"

def of (subject : Subject) (source : Identity) (destination : Destination) (id : CorrelationId) : RpcHeader where
  base := { Header.of subject source with packetId := some id.text }
  destinationGroup := destination.groupFor source
  destinationClient := destination.clientFor source

/-- The packet id, which is empty if there is none. -/
def packetId (h : RpcHeader) : String := h.base.packetId.getD ""

/-- The last two segments of the source. -/
def sourceGroupAndClient (h : RpcHeader) : String × String :=
  match h.base.source.reverse with
  | client :: group :: _ => (group, client)
  | _ => ("", "")

/-- The header of a reply: it goes to the source of the request and keeps its subject and id. -/
def replyTo (request : RpcHeader) (responder : Identity) : RpcHeader where
  base := ⟨request.base.subject, responder.address, request.base.packetId⟩
  destinationGroup := request.sourceGroupAndClient.1
  destinationClient := request.sourceGroupAndClient.2

/-- The topic on which a request is answered. -/
def replyTopic (request : RpcHeader) : List String := request.base.source ++ [Segment.reply, request.packetId]

def validate (h : RpcHeader) : Except ValidationError Unit := do
  h.base.validate
  requireText h.destinationGroup "destination_group_id"
  requireText h.destinationClient "destination_client_id"
  requireText h.packetId "packet_id"

def toRecord (h : RpcHeader) : Record :=
  .mk tag (h.base.fields ++
    [("destination_group_id", .str h.destinationGroup), ("destination_client_id", .str h.destinationClient)])

def read (d : Document) : Except CodecError RpcHeader := do
  pure ⟨← Header.read d, ← d.getStr "destination_group_id", ← d.getStr "destination_client_id"⟩

end RpcHeader

/-! ### Headers of packets -/

/-- Refuses a document with another tag, or none. -/
def Document.requireTag (d : Document) (expected : String) : Except CodecError Unit :=
  match d.typeTag? with
  | some found => if found = expected then .ok () else .error (.typeMismatch expected found)
  | none => .error .missingTypeTag

namespace PacketHeader

instance : Inhabited PacketHeader := ⟨.plain default⟩

def base : PacketHeader → Header
  | plain h => h
  | rpc h => h.base

def subject (h : PacketHeader) : List String := h.base.subject

def source (h : PacketHeader) : List String := h.base.source

def packetId (h : PacketHeader) : Option String := h.base.packetId

def rpc? : PacketHeader → Option RpcHeader
  | plain _ => none
  | rpc h => some h

def validate : PacketHeader → Except ValidationError Unit
  | plain h => h.validate
  | rpc h => h.validate

def toRecord : PacketHeader → Record
  | plain h => h.toRecord
  | rpc h => h.toRecord

/-- The tag decides between the two kinds of header. -/
def read (d : Document) : Except CodecError PacketHeader :=
  if d.typeTag? = some RpcHeader.tag then rpc <$> RpcHeader.read d
  else do
    d.requireTag Header.tag
    plain <$> Header.read d

end PacketHeader

end Switchboard
