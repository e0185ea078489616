import Switchboard.Bus.Broker
import Switchboard.Table

/-!
# Transports by name

Settings name the transport that a client is to use. A registry holds a descriptor for each name, which knows how to
make an endpoint of that transport in a world of endpoints.
-/

namespace Switchboard

/-- A kind of transport: `make` answers the number of a new endpoint. -/
structure TransportDescriptor (World : Type) where
  accessName : String
  description : String
  pseudoHost : Bool
  make : TransportSettings → World → Except TransportError (Nat × World)

/-- The descriptors by their access names. -/
abbrev TransportRegistry (World : Type) := Table (TransportDescriptor World)

namespace TransportRegistry

variable {World : Type}

def empty : TransportRegistry World := []

/-- Adds a descriptor; an earlier one of that name is replaced. -/
def register (r : TransportRegistry World) (d : TransportDescriptor World) : TransportRegistry World :=
  Table.put d.accessName d r

/-- Makes the endpoint that the settings ask for. -/
def create (r : TransportRegistry World) (s : TransportSettings) (w : World) : Except BusError (Nat × World) :=
  match Table.get? s.accessName r with
  | none => .error (.unknownTransport s.accessName)
  | some d =>
    match d.make s w with
    | .error e => .error (.transport e)
    | .ok made => .ok made

end TransportRegistry

/-- The transport of a broker in the same process. Its host and port mean nothing. -/
def Broker.descriptor (L W : Type) : TransportDescriptor (Broker L W) where
  accessName := "memory"
  description := "in-process broker, delivery on the publishing thread"
  pseudoHost := true
  make _ b := .ok b.create

/-- The registry that offers the broker alone. -/
def TransportRegistry.withBroker (L W : Type) : TransportRegistry (Broker L W) :=
  empty.register (Broker.descriptor L W)

end Switchboard
