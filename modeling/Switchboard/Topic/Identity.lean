import Switchboard.Json.Basic
import Switchboard.Topic.Basic
import Switchboard.Topic.Filter
import Switchboard.Topic.Segment

/-!
# Client identities

A client is named by a namespace of any length, an application, a group and a name of its own. The four together are
the prefix of the topics on which it is addressed; the group and the name may each be replaced there by the broadcast
segment.

An identity made by `of?` has valid segments; one read from JSON need not have.
-/

namespace Switchboard

structure Identity where
  namespaces : List String
  app : String
  group : String
  client : String
deriving DecidableEq, Repr, Inhabited

namespace Identity

/-- The prefix of the topics for a group and a client of the same application. -/
def addressed (i : Identity) (group client : String) : List String :=
  i.namespaces ++ [i.app, group, client]

/-- The prefix of the topics for this client alone. -/
def address (i : Identity) : List String := i.addressed i.group i.client

/-- An identity with valid segments. -/
def of? (namespaces : List String) (app group client : String) : Except ValidationError Identity := do
  let i : Identity := ⟨namespaces, app, group, client⟩
  Segment.validateAll i.address
  pure i

/-- Every segment of the prefix is a segment. -/
def Valid (i : Identity) : Prop := ∀ s ∈ i.address, Segment.Valid s

/-- The identity as text. -/
def text (i : Identity) : String := Topic.join i.address

/-- How many segments at the front of a path address this client, its group or its application. -/
def ownedLength? (i : Identity) (path : List String) : Option Nat :=
  match path.drop i.namespaces.length with
  | app :: group :: client :: _ =>
    if path.take i.namespaces.length = i.namespaces ∧ app = i.app ∧
        (group = i.group ∨ group = Segment.broadcast) ∧ (client = i.client ∨ client = Segment.broadcast) then
      some (i.namespaces.length + 3)
    else none
  | _ => none

/-- A path without a prefix that addresses this client. -/
def relative (i : Identity) (path : List String) : List String :=
  match i.ownedLength? path with
  | some n => path.drop n
  | none => path

/-- The filters for this client, its group and its application. -/
def filters (i : Identity) : List String :=
  [i.address, i.addressed i.group Segment.broadcast, i.addressed Segment.broadcast Segment.broadcast].map
    fun address => Topic.join (address ++ [Filter.anyRest])

/-! ### As JSON -/

def toJson (i : Identity) : Json :=
  .object [("namespace", .strings i.namespaces), ("app_id", .str i.app), ("group_id", .str i.group),
    ("client_id", .str i.client)]

/-- Reads the four parts from an object, or from an array in this order. Segments are taken as they are. -/
def ofJson? (v : Json) : Option Identity := do
  let parts ← match v with
    | .obj _ => ["namespace", "app_id", "group_id", "client_id"].mapM v.member?
    | .arr items => some items
    | _ => none
  match parts with
  | [namespaces, app, group, client] =>
    some ⟨← (← namespaces.getArr?).mapM Json.getStr?, ← app.getStr?, ← group.getStr?, ← client.getStr?⟩
  | _ => none

end Identity

end Switchboard
