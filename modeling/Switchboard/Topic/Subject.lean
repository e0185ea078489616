import Switchboard.Topic.Identity

/-!
# Subjects

A subject names what a message is about: the segments of a topic behind the address. A subject made by `parse`,
`ofSegments` or a `SubjectBuilder` has at least one segment and all of them valid; one read from JSON need not.
-/

namespace Switchboard

structure Subject where
  segments : List String
deriving DecidableEq, Repr, Inhabited

namespace Subject

def ofSegments (segments : List String) : Except ValidationError Subject :=
  if segments.isEmpty then .error .emptySubject
  else do
    Segment.validateAll segments
    pure ⟨segments⟩

/-- The subject of a dotted text. -/
def parse (text : String) : Except ValidationError Subject := ofSegments (Topic.split text)

def Valid (s : Subject) : Prop := s.segments ≠ [] ∧ ∀ x ∈ s.segments, Segment.Valid x

def text (s : Subject) : String := Topic.join s.segments

def toJson (s : Subject) : Json := .strings s.segments

/-- Segments are taken as they are. -/
def ofJson? (v : Json) : Option Subject := do
  some ⟨← (← v.getArr?).mapM Json.getStr?⟩

end Subject

/-- Segments on the way to a subject. -/
structure SubjectBuilder where
  segments : List String := []
deriving DecidableEq, Repr, Inhabited

namespace SubjectBuilder

def segment (b : SubjectBuilder) (segment : String) : SubjectBuilder := ⟨b.segments ++ [segment]⟩

/-- The subject of the segments, which are checked only here. -/
def build (b : SubjectBuilder) : Except ValidationError Subject := Subject.ofSegments b.segments

end SubjectBuilder

/-- The topic on which a client is addressed about a subject. -/
def Identity.topicFor (i : Identity) (s : Subject) : List String := i.address ++ s.segments

end Switchboard
