import Switchboard.Topic.Basic

/-!
# Topic filters

In a filter `+` stands for any one segment and `#` for the rest of the topic, which may be empty. Whatever follows a
`#` is not looked at.
-/

namespace Switchboard.Filter

/-- The segment that stands for any one segment. -/
def anyOne : String := "+"

/-- The segment that stands for any rest. -/
def anyRest : String := "#"

/-- Whether the segments of a filter cover those of a topic. -/
def covers : List String → List String → Bool
  | [], topic => topic.isEmpty
  | part :: filter, topic =>
    if part = anyRest then true
    else
      match topic with
      | [] => false
      | segment :: topic => (part == anyOne || part == segment) && covers filter topic

/-- Whether a filter text matches a topic text. -/
def covering (filter topic : String) : Bool := covers (Topic.pieces filter) (Topic.pieces topic)

end Switchboard.Filter
