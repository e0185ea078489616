import Switchboard.Bus.Error
import Switchboard.Topic.Filter

/-!
# The broker

A broker passes messages between the endpoints of one process. An endpoint has filters and at most one listener; it
receives what some filter of it matches, once, while it is connected. Filters outlast a connection. Watchers of an
endpoint are told when it connects, when it is about to disconnect and when its connection is lost.

What listeners and watchers are is left open: operations answer who is to be told what.
-/

namespace Switchboard

variable {L W : Type}

/-- What happens to the connection of an endpoint. -/
inductive LinkEvent
  | established
  | lost (cause : String)
  | disconnecting
deriving DecidableEq, Repr

/-- The event in words. -/
def LinkEvent.words : LinkEvent → List String
  | established => ["established"]
  | lost cause => ["lost", cause]
  | disconnecting => ["disconnecting"]

structure Endpoint (L W : Type) where
  connected : Bool
  filters : List String
  listener : Option L
  watchers : List W

namespace Endpoint

/-- An endpoint that has not been connected yet. -/
def fresh : Endpoint L W := ⟨false, [], none, []⟩

def accepts (e : Endpoint L W) (topic : String) : Bool := e.filters.any (Filter.covering · topic)

/-- Adds filters, each once. -/
def addFilters (e : Endpoint L W) (filters : List String) : Endpoint L W :=
  { e with filters := filters.foldl (fun l f => if l.contains f then l else l ++ [f]) e.filters }

def removeFilters (e : Endpoint L W) (filters : List String) : Endpoint L W :=
  { e with filters := e.filters.filter fun f => !filters.contains f }

end Endpoint

/-- All endpoints by their numbers, and the numbers of those that receive messages. -/
structure Broker (L W : Type) where
  endpoints : List (Endpoint L W)
  online : List Nat

namespace Broker

def empty : Broker L W := ⟨[], []⟩

/-- Makes a new endpoint and answers its number. -/
def create (b : Broker L W) : Nat × Broker L W :=
  (b.endpoints.length, { b with endpoints := b.endpoints ++ [.fresh] })

/-- The endpoint with a number; numbers that were never given stand for fresh endpoints. -/
def endpoint (b : Broker L W) (id : Nat) : Endpoint L W := b.endpoints[id]?.getD .fresh

def update (b : Broker L W) (id : Nat) (f : Endpoint L W → Endpoint L W) : Broker L W :=
  { b with endpoints := b.endpoints.modify id f }

def isConnected (b : Broker L W) (id : Nat) : Bool := (b.endpoint id).connected

/-- How many endpoints receive messages. -/
def connectedCount (b : Broker L W) : Nat := b.online.length

def setListener (b : Broker L W) (id : Nat) (listener : L) : Broker L W :=
  b.update id fun e => { e with listener := some listener }

def watch (b : Broker L W) (id : Nat) (watcher : W) : Broker L W :=
  b.update id fun e => { e with watchers := e.watchers ++ [watcher] }

/-- The watchers of an endpoint, each with an event. -/
def tell (b : Broker L W) (id : Nat) (event : LinkEvent) : List (W × LinkEvent) :=
  (b.endpoint id).watchers.map (·, event)

/-- Takes an endpoint off. -/
def takeOff (b : Broker L W) (id : Nat) : Broker L W :=
  let b := b.update id fun e => { e with connected := false }
  { b with online := b.online.filter (· != id) }

/-- Connects an endpoint, unless it is connected or was never made. -/
def connect (b : Broker L W) (id : Nat) : List (W × LinkEvent) × Broker L W :=
  if b.isConnected id ∨ b.endpoints.length ≤ id then ([], b)
  else
    let b := b.update id fun e => { e with connected := true }
    (b.tell id .established, { b with online := b.online ++ [id] })

/-- Disconnects an endpoint, if it is connected. Watchers are told first. -/
def disconnect (b : Broker L W) (id : Nat) : List (W × LinkEvent) × Broker L W :=
  if b.isConnected id then (b.tell id .disconnecting, b.takeOff id) else ([], b)

/-- The connection of an endpoint breaks, if there is one. -/
def lose (b : Broker L W) (id : Nat) (cause : String) : List (W × LinkEvent) × Broker L W :=
  if b.isConnected id then (b.tell id (.lost cause), b.takeOff id) else ([], b)

/-- Refuses an operation of an endpoint that is not connected. -/
def requireConnected (b : Broker L W) (id : Nat) (operation : TransportOperation) : Except TransportError Unit :=
  if b.isConnected id then .ok () else .error (.notConnected operation)

def subscribe (b : Broker L W) (id : Nat) (filters : List String) : Except TransportError (Broker L W) := do
  b.requireConnected id .subscribe
  pure (b.update id (·.addFilters filters))

def unsubscribe (b : Broker L W) (id : Nat) (filters : List String) : Except TransportError (Broker L W) := do
  b.requireConnected id .unsubscribe
  pure (b.update id (·.removeFilters filters))

/-- The listeners that a message on a topic reaches. -/
def reached (b : Broker L W) (topic : String) : List L :=
  b.online.filterMap fun id => if (b.endpoint id).accepts topic then (b.endpoint id).listener else none

/-- The listeners that a message of an endpoint is to be passed to. -/
def publish (b : Broker L W) (id : Nat) (topic : String) : Except TransportError (List L) := do
  b.requireConnected id .publish
  pure (b.reached topic)

end Broker

end Switchboard
