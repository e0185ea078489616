import Switchboard.Json.Basic

/-!
# Log levels

Five levels, least severe first. A name is read in any case of its letters, and `warning` is another name of `warn`;
as JSON only the lower-case names stand.
-/

namespace Switchboard

inductive LogLevel
  | trace
  | debug
  | info
  | warn
  | error
deriving DecidableEq, Repr, Inhabited

namespace LogLevel

def all : List LogLevel := [trace, debug, info, warn, error]

def text : LogLevel → String
  | trace => "trace"
  | debug => "debug"
  | info => "info"
  | warn => "warn"
  | error => "error"

/-- The level of records that name none. -/
def standard : LogLevel := info

/-- How severe a level is. -/
def severity : LogLevel → Nat
  | trace => 0
  | debug => 1
  | info => 2
  | warn => 3
  | error => 4

/-- The level of a lower-case name. -/
def ofLower? (name : String) : Option LogLevel :=
  if name = "warning" then some warn else all.find? (·.text == name)

/-- The level of a name in any case. -/
def ofText? (name : String) : Option LogLevel := ofLower? name.toLower

/-- Why a name is no level. -/
def unknownMessage (name : String) : String := s!"unknown log level '{name.toLower}'"

def toJson (l : LogLevel) : Json := .str l.text

/-- A name alone, or as the only member of an object that holds null. -/
def ofJson? (v : Json) : Option LogLevel := do
  let name ← v.variant?
  all.find? (·.text == name)

end LogLevel

end Switchboard
