import Switchboard.Bus.Basic

/-!
# The clock

Time stands still unless the clock is moved. A request ends when the clock reaches its time: its route is detached,
its sender is told the replies, and then whether there was a wrong number of them. Requests that end in one move of
the clock end in the order of their times, those with the same time in the order in which they were made.
-/

namespace Switchboard.Bus

/-- Tells the sender of a request how it ended; a wrong number of replies is also logged. -/
def tellOutcome (b : Bus) (t : Timer) (scope : Identity) (o : RequestOutcome) : Bus :=
  let b := o.calls.foldl (fun b call => b.record (.told t.client t.request call)) b
  match o.mismatch? with
  | none => b
  | some e =>
    b.log (some scope) .warn "reply count mismatch" [("correlation_id", o.id.text), ("error", e.message)]

/-- Ends the request of a timer. -/
def fire (b : Bus) (t : Timer) : Bus :=
  match b.clients[t.client]? with
  | none => b
  | some c =>
    let (outcome, ended) := c.endRequest t.request
    let b := b.updateClient t.client fun _ => ended
    match outcome with
    | none => b
    | some o => b.tellOutcome t c.identity o

/-- The timers that are due, first those that are due first. -/
def due (b : Bus) : List Timer := (b.timers.filter (·.due ≤ b.clock)).mergeSort (·.due ≤ ·.due)

/-- Fires the timers that are due. -/
def fireDue (b : Bus) : Bus :=
  b.due.foldl fire { b with timers := b.timers.filter (b.clock < ·.due) }

/-- Moves the clock. -/
def advance (b : Bus) (ms : Nat) : Bus := { b with clock := b.clock + ms }.fireDue

/-- Waits for the end of a request, moving the clock if need be. Without a timer, nothing ends a request any more. -/
def await (b : Bus) (client request : Nat) : Except BusError RequestOutcome × Bus :=
  let b := match b.timers.find? (fun t => t.client == client && t.request == request) with
    | some t => { b with clock := max b.clock t.due }.fireDue
    | none => b
  match (b.request? client request).bind (·.outcome) with
  | some o => (.ok o, b)
  | none => (.error .noScheduler, b)

/-- Stops the bus: no timer fires any more. -/
def halt (b : Bus) : Bus := { b with running := false, timers := [] }

end Switchboard.Bus
