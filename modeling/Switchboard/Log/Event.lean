import Switchboard.Decimal.Layout
import Switchboard.Log.Level
import Switchboard.Topic.Identity

/-!
# Log events and their capture

An event is attributed to the innermost client in whose scope it happens. A capture keeps the events since it was last
cleared; clearing it does not leave the scopes that are open.
-/

namespace Switchboard

/-- What happened, at which level, and within the scope of which client. -/
structure LogEvent where
  level : LogLevel
  message : String
  fields : List (String × String)
  client : Option String
deriving DecidableEq, Repr

namespace LogEvent

/-- The event without some of its fields. -/
def without (e : LogEvent) (names : List String) : LogEvent :=
  { e with fields := e.fields.filter fun f => !names.contains f.1 }

/-- The event on one line: level, client or a hyphen, message, fields. -/
def line (e : LogEvent) : String :=
  e.level.text.toUpper ++ " [" ++ e.client.getD "-" ++ "] " ++ e.message ++
    String.join (e.fields.map fun (name, value) => " " ++ name ++ "=" ++ value)

end LogEvent

/-- A message of a program that logs. -/
structure LogRecord where
  timestampMs : Int64
  level : LogLevel
  logger : String
  message : String
deriving DecidableEq

instance : Inhabited LogRecord := ⟨0, .standard, "", ""⟩

/-- A record as an event: who passed it on, the logger and the time are fields. -/
def LogRecord.event (r : LogRecord) (origin : String) (client : Option String) : LogEvent where
  level := r.level
  message := r.message
  fields := [("origin", origin), ("logger", r.logger), ("ts", String.ofList (Decimal.intText r.timestampMs.toInt))]
  client := client

/-- The events since the last clearing, and whether the scope of a client was entered since. -/
structure LogCapture where
  events : List LogEvent
  entered : Bool
deriving DecidableEq

namespace LogCapture

def empty : LogCapture := ⟨[], false⟩

/-- What a program does while its logs are captured. A scope without a client is detached: it hides no outer one. -/
inductive Step
  | emit (origin : String) (record : LogRecord)
  | clear
  | scope (client : Option Identity) (steps : List Step)

mutual
/-- Takes one step inside the scope of a client. -/
def step (client : Option String) (c : LogCapture) : Step → LogCapture
  | .emit origin record => { c with events := c.events ++ [record.event origin client] }
  | .clear => empty
  | .scope none steps => runFrom client c steps
  | .scope (some identity) steps => runFrom (some identity.text) { c with entered := true } steps

def runFrom (client : Option String) (c : LogCapture) : List Step → LogCapture
  | [] => c
  | s :: r => runFrom client (step client c s) r
end

/-- The capture of a run outside all scopes. -/
def run (steps : List Step) : LogCapture := runFrom none empty steps

/-- The events of one client. -/
def forClient (c : LogCapture) (client : String) : List LogEvent := c.events.filter (·.client == some client)

def countAt (c : LogCapture) (level : LogLevel) : Nat := c.events.countP (·.level == level)

/-- Whether a text occurs in another. -/
def occursIn (needle : List Char) : List Char → Bool
  | [] => needle.isEmpty
  | c :: r => needle.isPrefixOf (c :: r) || occursIn needle r

/-- Whether some event of a level has a text in its message. -/
def hasAt (c : LogCapture) (level : LogLevel) (needle : String) : Bool :=
  c.events.any fun e => e.level == level && occursIn needle.toList e.message.toList

end LogCapture

end Switchboard
