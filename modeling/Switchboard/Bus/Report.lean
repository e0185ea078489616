import Switchboard.Bus.Error

/-!
# Error reports

A report is an error written as JSON, for programs that watch a bus. It names the kind of the error, and says what
a reader cannot tell from the kind alone: a message, the field or key at fault, or the error that caused it.
-/

namespace Switchboard

/-- Errors that can be reported. -/
class Reported (ε : Type) where
  report : ε → Json

namespace Reported

/-- A report with no more than a kind and a message. -/
def plain (kind message : String) : Json := .object [("error", .str kind), ("message", .str message)]

instance : Reported ValidationError := ⟨fun e => plain e.kind e.message⟩

/-- Of a text that is not base64 the field is told, of messages that cannot be read at all nothing. -/
instance : Reported CodecError where
  report e := match e with
    | .invalidField field .notBase64 => .object [("error", .str e.kind), ("field", .str field)]
    | .malformedJson | .malformedMessagePack => .object [("error", .str e.kind)]
    | _ => plain e.kind e.message

/-- Of values that do not fit their keys the key is told, if there is one. -/
instance : Reported SettingsError where
  report e := match e with
    | .outOfRange key _ => .object [("error", .str e.kind), ("key", .str key), ("message", .str e.message)]
    | .identity _ => .object [("error", .str e.kind), ("key", .null), ("message", .str e.message)]
    | _ => .object [("error", .str e.kind)]

instance : Reported TransportError where
  report e :=
    .object [("error", .str "Transport"), ("operation", .str e.operation.text), ("message", .str e.message)]

instance : Reported DispatchError := ⟨fun e => plain e.kind e.message⟩

/-- What a codec or settings report says stands in the report of the cause. -/
instance : Reported BusError where
  report e := match e with
    | .validation cause => .object [("error", .str e.code), ("message", .str e.message), ("cause", report cause)]
    | .codec cause => .object [("error", .str e.code), ("cause", report cause)]
    | .settings cause => .object [("error", .str e.code), ("cause", report cause)]
    | _ => plain e.code e.message

instance : Reported ExecutionError where
  report e := .object [("error", .str e.kind), ("code", .str e.code), ("message", .str e.message)]

end Reported

end Switchboard
