/-!
# Validation errors

Why a topic, an identity, a header or a payload is refused before it is sent. Positions count from zero.
-/

namespace Switchboard

/-- What is wrong with the text of a segment. -/
inductive SegmentFault
  | tooLong
  | forbidden (c : Char)
deriving DecidableEq, Repr

/-- The greatest length of a segment in bytes. -/
def maxSegmentBytes : Nat := 128

def SegmentFault.message : SegmentFault → String
  | tooLong => s!"longer than {maxSegmentBytes} bytes"
  | forbidden c => s!"contains '{c}'"

inductive ValidationError
  | emptyTopic
  | emptySegment (position : Nat)
  | invalidSegment (segment : String) (fault : SegmentFault)
  | emptySubject
  | missingField (field : String)
  | missingPacket
  | noEncoders
  | noPublisher
  | invalidPayload (tag message : String)
deriving DecidableEq, Repr

namespace ValidationError

/-- The name of a kind of error. -/
def kind : ValidationError → String
  | emptyTopic => "EmptyTopic"
  | emptySegment _ => "EmptySegment"
  | invalidSegment _ _ => "InvalidSegment"
  | emptySubject => "EmptySubject"
  | missingField _ => "MissingField"
  | missingPacket => "MissingPacket"
  | noEncoders => "NoEncoderFactory"
  | noPublisher => "NoPublisher"
  | invalidPayload _ _ => "InvalidPayload"

def message : ValidationError → String
  | emptyTopic => "topic must contain at least one segment"
  | emptySegment position => s!"segment {position} is empty"
  | invalidSegment segment fault => s!"invalid segment '{segment}': {fault.message}"
  | emptySubject => "subject must contain at least one segment"
  | missingField field => s!"required field '{field}' is empty"
  | missingPacket => "no packet supplied"
  | noEncoders => "no encoder factory configured"
  | noPublisher => "no transport publisher configured"
  | invalidPayload tag message => s!"invalid {tag} payload: {message}"

end ValidationError

end Switchboard
