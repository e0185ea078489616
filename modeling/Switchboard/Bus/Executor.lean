import Switchboard.Bus.Error

/-!
# Executors

An executor handles the packets that arrive at one place. The errors among the payloads of a packet are handled
first, all at once and only if there are any; the other payloads are handled next, in any case. What is no packet is
handled by nobody.
-/

namespace Switchboard

/-- What is done with the two halves of a packet, in terms of a state. -/
structure Executor (σ : Type) where
  handleErrors : Packet → List ErrorPayload → σ → σ
  handlePayloads : Packet → List Payload → σ → Except BusError Unit × σ

namespace Executor

variable {σ : Type}

/-- Handles what was decoded, if anything was, and reports at most one error. -/
def execute (x : Executor σ) (decoded : Option Payload) (s : σ) : List ExecutionError × σ :=
  match decoded.bind Packet.ofPayload? with
  | none => ([.noValidPacket], s)
  | some packet =>
    let s := if packet.errors.isEmpty then s else x.handleErrors packet packet.errors s
    match x.handlePayloads packet packet.others s with
    | (.ok (), s) => ([], s)
    | (.error e, s) => ([.ofBusError e], s)

end Executor

end Switchboard
