import Switchboard.Bus.Error
import Switchboard.Codec.Pool

/-!
# Publishing

What a client publishes is checked in full and encoded before anything is handed to its line, so a packet goes out
once and complete or not at all. Of several faults the first in this order is reported: no encoders, no line, an
empty topic, a segment of the topic, no packet, the packet, its encoding.
-/

namespace Switchboard

/-- A message on its way out. -/
structure Outgoing where
  topic : String
  bytes : Bytes
deriving DecidableEq, Repr

namespace EncoderPool

/-- The packet that is to be published, if it may be and its topic may be. -/
def approve (topic : List String) (packet : Option Packet) : Except ValidationError Packet :=
  if topic.isEmpty then .error .emptyTopic
  else do
    Segment.validateAll topic
    match packet with
    | none => .error .missingPacket
    | some packet =>
      packet.validate
      pure packet

/-- The message that carries a packet, in the standard codec unless another is named. The encoder is back in the pool
whatever comes of it. -/
def prepare (pool : EncoderPool) (topic : List String) (packet : Option Packet) (codec : Option Codec) :
    Except BusError Outgoing × EncoderPool :=
  match approve topic packet with
  | .error e => (.error (.validation e), pool)
  | .ok packet =>
    match pool.encode (codec.getD pool.standard) packet.toPayload with
    | (.error e, pool) => (.error (.codec e), pool)
    | (.ok bytes, pool) => (.ok ⟨Topic.join topic, bytes⟩, pool)

end EncoderPool

/-- A desk from which packets are published: it needs encoders and a line. -/
structure Publisher where
  encoders : Option EncoderPool
  hasLine : Bool

namespace Publisher

def prepare (p : Publisher) (topic : List String) (packet : Option Packet) (codec : Option Codec) :
    Except BusError Outgoing × Publisher :=
  match p.encoders with
  | none => (.error (.validation .noEncoders), p)
  | some pool =>
    if p.hasLine then
      let (result, pool) := pool.prepare topic packet codec
      (result, { p with encoders := some pool })
    else (.error (.validation .noPublisher), p)

/-- Publishes a packet by way of a line: `send` says what becomes of a message, in terms of a state. -/
def publish {σ : Type} (send : Outgoing → σ → Except TransportError Unit × σ) (p : Publisher) (topic : List String)
    (packet : Option Packet) (codec : Option Codec) (s : σ) : Except BusError Unit × Publisher × σ :=
  match p.prepare topic packet codec with
  | (.error e, p) => (.error e, p, s)
  | (.ok message, p) =>
    match send message s with
    | (.error e, s) => (.error (.transport e), p, s)
    | (.ok (), s) => (.ok (), p, s)

end Publisher

end Switchboard
