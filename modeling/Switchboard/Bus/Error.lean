import Switchboard.Packet.Payload
import Switchboard.Settings.Basic

/-!
# Bus errors

Why an operation on the bus fails, and what is reported when an inbound message cannot be handled. Every bus error
has a code, and as a payload it can travel back to whoever sent a request.
-/

namespace Switchboard

/-! ### Transports -/

inductive TransportOperation
  | connect
  | disconnect
  | publish
  | subscribe
  | unsubscribe
deriving DecidableEq, Repr

namespace TransportOperation

def all : List TransportOperation := [connect, disconnect, publish, subscribe, unsubscribe]

def text : TransportOperation → String
  | connect => "connect"
  | disconnect => "disconnect"
  | publish => "publish"
  | subscribe => "subscribe"
  | unsubscribe => "unsubscribe"

/-- A name alone, or as the only member of an object that holds null. -/
def ofJson? (v : Json) : Option TransportOperation := do
  let name ← v.variant?
  all.find? (·.text == name)

end TransportOperation

structure TransportError where
  operation : TransportOperation
  reason : String
deriving DecidableEq, Repr

namespace TransportError

def message (e : TransportError) : String := s!"transport {e.operation.text} failed: {e.reason}"

/-- The error of an operation that needs a connection. -/
def notConnected (operation : TransportOperation) : TransportError := ⟨operation, "transport is not connected"⟩

end TransportError

/-! ### Routes -/

/-- Why nothing can be attached at a path. -/
inductive DispatchError
  | rootPath
  | alreadyRegistered (path : String)
deriving DecidableEq, Repr

namespace DispatchError

/-- The name of a kind of error. -/
def kind : DispatchError → String
  | rootPath => "RootPath"
  | alreadyRegistered _ => "AlreadyRegistered"

def message : DispatchError → String
  | rootPath => "cannot attach a handler at the root"
  | alreadyRegistered path => s!"a handler is already registered at '{path}'"

end DispatchError

/-! ### Requests and replies -/

/-- How a packet departs from the rules of requests and replies. -/
inductive ProtocolFault
  | noRpcHeader (subject : String)
  | malformedRequest (subject : String) (cause : ValidationError)
  | foreignReply (packetId request : String)
  | plainReply
  | other (reason : String)
deriving DecidableEq, Repr

def ProtocolFault.message : ProtocolFault → String
  | noRpcHeader subject => s!"request on '{subject}' without rpc header"
  | malformedRequest subject cause => s!"malformed request on '{subject}': {cause.message}"
  | foreignReply packetId request => s!"reply for '{packetId}' routed to request '{request}'"
  | plainReply => "reply without rpc header"
  | other reason => reason

inductive BusError
  | validation (e : ValidationError)
  | codec (e : CodecError)
  | transport (e : TransportError)
  | dispatch (e : DispatchError)
  | settings (e : SettingsError)
  | duplicateHandler (subject : String)
  | protocol (fault : ProtocolFault)
  | replyCountMismatch (expected received : Nat)
  | noScheduler
  | unknownTransport (name : String)
  | handler (code reason : String)
deriving DecidableEq

namespace BusError

/-- The code by which programs tell errors apart. A handler chooses its own. -/
def code : BusError → String
  | validation _ => "VALIDATION_ERROR"
  | codec _ => "CODEC_ERROR"
  | transport _ => "TRANSPORT_ERROR"
  | dispatch _ => "DISPATCH_ERROR"
  | settings _ => "SETTINGS_ERROR"
  | duplicateHandler _ => "DUPLICATE_HANDLER"
  | protocol _ => "PROTOCOL_ERROR"
  | replyCountMismatch _ _ => "REPLY_COUNT_MISMATCH"
  | noScheduler => "NO_RUNTIME"
  | unknownTransport _ => "UNKNOWN_TRANSPORT"
  | handler code _ => code

def message : BusError → String
  | validation e => e.message
  | codec e => e.message
  | transport e => e.message
  | dispatch e => e.message
  | settings e => e.message
  | duplicateHandler subject => s!"a request handler is already registered for '{subject}'"
  | protocol fault => s!"protocol violation: {fault.message}"
  | replyCountMismatch expected received => s!"expected {expected} replies, received {received}"
  | noScheduler => "no tokio runtime available to schedule request timeouts"
  | unknownTransport name => s!"no transport registered as '{name}'"
  | handler _ reason => reason

/-- The error as it travels to whoever sent a request. -/
def toPayload (e : BusError) : ErrorPayload := ⟨e.code, e.message⟩

end BusError

/-! ### Inbound messages -/

/-- What is reported about an inbound message that could not be handled. -/
inductive ExecutionError
  | noValidPacket
  | processingFailed (code reason : String)
deriving DecidableEq, Repr

namespace ExecutionError

def ofBusError (e : BusError) : ExecutionError := processingFailed e.code e.message

/-- The name of a kind of error. -/
def kind : ExecutionError → String
  | noValidPacket => "NoValidPacket"
  | processingFailed _ _ => "ProcessingFailed"

def code : ExecutionError → String
  | noValidPacket => "NO_VALID_PACKET"
  | processingFailed code _ => code

def message : ExecutionError → String
  | noValidPacket => "message is not a valid packet"
  | processingFailed code reason => s!"processing failed [{code}]: {reason}"

end ExecutionError

end Switchboard
