import Switchboard.Topic.Subject

/-!
# Destinations

Whom a message is for, within the application of its sender.
-/

namespace Switchboard

inductive Destination
  | all
  | group (group : String)
  | client (group client : String)
  | own
deriving DecidableEq, Repr, Inhabited

namespace Destination

/-- The group segment of the address. -/
def groupFor (source : Identity) : Destination → String
  | all => Segment.broadcast
  | group g => g
  | client g _ => g
  | own => source.group

/-- The client segment of the address. -/
def clientFor (source : Identity) : Destination → String
  | all => Segment.broadcast
  | group _ => Segment.broadcast
  | client _ c => c
  | own => source.client

/-- Whether more than one client may be addressed. -/
def fansOut : Destination → Bool
  | all => true
  | group _ => true
  | _ => false

/-- The topic of a message about a subject. -/
def topicFor (d : Destination) (source : Identity) (s : Subject) : List String :=
  source.addressed (d.groupFor source) (d.clientFor source) ++ s.segments

def toJson : Destination → Json
  | all => .object [("kind", .str "all")]
  | group g => .object [("kind", .str "group"), ("group_id", .str g)]
  | client g c => .object [("kind", .str "client"), ("group_id", .str g), ("client_id", .str c)]
  | own => .object [("kind", .str "own")]

/-- Reads an object, in which other members are ignored, or an array that starts with the kind. Group and client are
taken as they are. -/
def ofJson? (v : Json) : Option Destination :=
  match v with
  | .obj _ => do
    match ← (← v.member? "kind").getStr? with
    | "all" => some all
    | "group" => some (group (← (← v.member? "group_id").getStr?))
    | "client" =>
      some (client (← (← v.member? "group_id").getStr?) (← (← v.member? "client_id").getStr?))
    | "own" => some own
    | _ => none
  | .arr [.str "all"] => some all
  | .arr [.str "group", .str g] => some (group g)
  | .arr [.str "client", .str g, .str c] => some (client g c)
  | .arr [.str "own"] => some own
  | _ => none

end Destination

end Switchboard
