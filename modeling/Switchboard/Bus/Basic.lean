import Switchboard.Bus.Broker
import Switchboard.Bus.Client

/-!
# The bus

A bus is a broker with its clients, a clock and the timers of the requests that are under way. What happens on it is
written down in the order in which it happens: what is logged, which handlers are called, what the senders of requests
are told, what is recorded on tapes and by taps, and what happens to connections.

Clients, endpoints and the requests of a client are known by numbers.

Clients publish while they handle messages, so deliveries nest. A bus has room for so many of them within one another,
as a stack has: what is published deeper down than that reaches no client.
-/

namespace Switchboard

/-- Who listens at an endpoint: a client, or a tap that records what it hears. -/
inductive Listener
  | client (id : Nat)
  | tap
deriving DecidableEq, Repr

/-- Who watches the connection of an endpoint: the log of a client, or an observer with a name. -/
inductive Watcher
  | journal (client : String)
  | observer (name : String)
deriving DecidableEq, Repr

inductive BusEvent
  | logged (e : LogEvent)
  | handled (client : Nat) (handler : String) (header : PacketHeader) (payloads : List Payload)
  | told (client request : Nat) (call : ReplyCall)
  | taped (client : Nat) (message : Outgoing)
  | tapped (message : Outgoing)
  | observed (observer : String) (event : LinkEvent)

/-- When a request of a client ends. -/
structure Timer where
  due : Nat
  client : Nat
  request : Nat
deriving DecidableEq, Repr

/-- Timers stand in the order in which they were set. They run only while the bus does. -/
structure Bus where
  broker : Broker Listener Watcher
  clients : List Client
  timers : List Timer
  clock : Nat
  running : Bool
  events : List BusEvent
  room : Nat

namespace Bus

/-- The room of a bus for which none is given. -/
def usualRoom : Nat := 64

/-- A running bus without clients, at time zero. -/
def empty (room : Nat := usualRoom) : Bus := ⟨.empty, [], [], 0, true, [], room⟩

def record (b : Bus) (e : BusEvent) : Bus := { b with events := b.events ++ [e] }

def updateClient (b : Bus) (id : Nat) (f : Client → Client) : Bus := { b with clients := b.clients.modify id f }

/-- A request of a client. -/
def request? (b : Bus) (client request : Nat) : Option Request := (b.clients[client]?).bind (·.requests[request]?)

/-- Logs an event, within the scope of a client or of none. -/
def log (b : Bus) (scope : Option Identity) (level : LogLevel) (message : String) (fields : List (String × String)) :
    Bus :=
  b.record (.logged ⟨level, message, fields, scope.map (·.text)⟩)

/-- Tells the watchers of an endpoint what happened to it. -/
def tellWatchers (b : Bus) : List (Watcher × LinkEvent) → Bus
  | [] => b
  | (.observer name, event) :: r => (b.record (.observed name event)).tellWatchers r
  | (.journal client, .established) :: r =>
    (b.log none .info "connection established" [("client", client)]).tellWatchers r
  | (.journal client, .lost cause) :: r =>
    (b.log none .warn "connection lost" [("client", client), ("cause", cause)]).tellWatchers r
  | (.journal client, .disconnecting) :: r =>
    (b.log none .info "disconnecting" [("client", client)]).tellWatchers r

end Bus

end Switchboard
