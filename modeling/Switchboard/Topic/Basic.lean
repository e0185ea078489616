/-!
# Topics as text

A topic is a list of segments; its text joins them with dots. The empty text is the topic of no segments. A filter is
cut in the same way, except that the empty text is one empty segment.
-/

namespace Switchboard.Topic

/-- The character between two segments. -/
def separator : Char := '.'

/-- The text of a list of segments. -/
def join (segments : List String) : String :=
  String.ofList (List.intercalate [separator] (segments.map String.toList))

/-- Cuts a text at every separator. -/
def cut : List Char → List (List Char)
  | [] => [[]]
  | c :: r =>
    if c = separator then [] :: cut r
    else
      match cut r with
      | [] => [[c]]
      | piece :: pieces => (c :: piece) :: pieces

/-- The parts of a text between separators: one more than there are separators. -/
def pieces (text : String) : List String := (cut text.toList).map String.ofList

/-- The segments of a topic text. -/
def split (text : String) : List String := if text.isEmpty then [] else pieces text

end Switchboard.Topic
