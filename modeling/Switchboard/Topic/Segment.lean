import Switchboard.Text.Alphanumeric
import Switchboard.Validation

/-!
# Segments of topics

A segment is a text of letters, digits, hyphens and underscores, not empty and at most 128 bytes long. Of a text with
several faults the length is reported before a forbidden character, and of several such characters the first.
-/

namespace Switchboard.Segment

/-- The segment that stands for every group or every client. -/
def broadcast : String := "_all"

/-- The first segment of a subject on which replies arrive. -/
def reply : String := "rpc-reply"

/-- The characters a segment may hold. -/
def allows (c : Char) : Bool := Text.isAlphanumeric c || c == '-' || c == '_'

/-- Refuses a text that is no segment; `position` says where it stands. -/
def validate (segment : String) (position : Nat) : Except ValidationError Unit :=
  if segment.isEmpty then .error (.emptySegment position)
  else if maxSegmentBytes < segment.utf8ByteSize then .error (.invalidSegment segment .tooLong)
  else
    match segment.toList.find? (!allows ·) with
    | some c => .error (.invalidSegment segment (.forbidden c))
    | none => .ok ()

/-- Refuses the first text of a list that is no segment. -/
def validateFrom (position : Nat) : List String → Except ValidationError Unit
  | [] => .ok ()
  | segment :: rest => do
    validate segment position
    validateFrom (position + 1) rest

def validateAll (segments : List String) : Except ValidationError Unit := validateFrom 0 segments

/-- A text that is a segment. -/
def Valid (segment : String) : Prop :=
  segment ≠ "" ∧ segment.utf8ByteSize ≤ maxSegmentBytes ∧ ∀ c ∈ segment.toList, allows c = true

end Switchboard.Segment
