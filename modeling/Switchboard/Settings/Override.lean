import Switchboard.Log.Event
import Switchboard.Settings.Basic

/-!
# Overrides

Single settings may be overridden by variables of the environment. An empty variable counts as not set. A number
outside its range and an unknown codec are ignored, with a warning; texts are taken as they are.
-/

namespace Switchboard

/-! ### Numbers in a range -/

/-- The integers of a machine type. -/
structure IntType where
  least : Int
  most : Int
deriving DecidableEq, Repr

namespace IntType

def unsigned (bits : Nat) : IntType := ⟨0, (1 <<< bits : Nat) - 1⟩

def signed (bits : Nat) : IntType := ⟨-(1 <<< (bits - 1) : Nat), (1 <<< (bits - 1) : Nat) - 1⟩

/-- The magnitude of a non-empty row of decimal digits. -/
def magnitude? (ds : List Char) : Option Nat :=
  if !ds.isEmpty && ds.all Char.isDigit then some (ds.foldl (fun n c => n * 10 + (c.toNat - '0'.toNat)) 0) else none

/-- Reads digits behind an optional sign; a minus sign is for types that have negative numbers. -/
def read? (t : IntType) (cs : List Char) : Option Int := do
  let n : Int ← match cs with
    | '+' :: ds => Int.ofNat <$> magnitude? ds
    | '-' :: ds => if t.least < 0 then (fun n => -Int.ofNat n) <$> magnitude? ds else none
    | ds => Int.ofNat <$> magnitude? ds
  if t.least ≤ n ∧ n ≤ t.most then some n else none

/-- Reads a number of the type that lies between two bounds. -/
def readWithin? (t : IntType) (least most : Int) (text : String) : Option Int :=
  (t.read? text.toList).filter fun n => least ≤ n && n ≤ most

end IntType

/-! ### The variables -/

/-- A variable, and what its value does to the settings unless it is refused with a warning. -/
structure Override where
  name : String
  set : String → Settings → Except LogEvent Settings

namespace Override

/-- A variable that is taken as it is. -/
def text (name : String) (set : String → Settings → Settings) : Override :=
  ⟨name, fun value s => .ok (set value s)⟩

/-- A variable that holds a number between two bounds. -/
def number (name : String) (t : IntType) (least most : Nat) (set : Nat → Settings → Settings) : Override where
  name := name
  set value s :=
    match t.readWithin? least most value with
    | some n => .ok (set n.toNat s)
    | none => .error ⟨.warn, "ignoring out-of-range override",
        [("key", name), ("value", value), ("range", s!"{least}..={most}")], none⟩

/-- A variable that names a codec. -/
def codec (name : String) (set : Codec → Settings → Settings) : Override where
  name := name
  set value s :=
    match Codec.ofText? value with
    | some c => .ok (set c s)
    | none => .error ⟨.warn, "ignoring", [("key", name), ("error", Codec.unknownMessage value)], none⟩

/-- All variables, in the order in which they are looked at. -/
def all : List Override :=
  [text "SIMBUS_NAMESPACE" fun v s => { s with identity.namespaces := Topic.split v },
    text "SIMBUS_APP_ID" fun v s => { s with identity.app := v },
    text "SIMBUS_GROUP_ID" fun v s => { s with identity.group := v },
    text "SIMBUS_CLIENT_ID" fun v s => { s with identity.client := v },
    number "SIMBUS_REQUEST_TIMEOUT_MS" (.unsigned 64) 1 Settings.maxRequestTimeoutMs
      fun n s => { s with requestTimeoutMs := UInt64.ofNat n },
    codec "SIMBUS_DEFAULT_CODEC" fun c s => { s with codec := c },
    number "SIMBUS_ENCODER_POOL_SIZE" (.unsigned 64) 0 Settings.maxEncoderPoolSize
      fun n s => { s with encoderPoolSize := UInt64.ofNat n },
    text "SIMBUS_TRANSPORT" fun v s => { s with transport.accessName := v },
    text "SIMBUS_TRANSPORT_HOST" fun v s => { s with transport.host := v },
    number "SIMBUS_TRANSPORT_PORT" (.unsigned 16) 1 65535 fun n s => { s with transport.port := UInt16.ofNat n }]

/-- The value of a variable, unless it is empty. -/
def lookUp (environment : String → Option String) (name : String) : Option String :=
  (environment name).filter (!·.isEmpty)

/-- Applies one override, or adds its warning to those before. -/
def apply (environment : String → Option String) (state : Settings × List LogEvent) (o : Override) :
    Settings × List LogEvent :=
  match lookUp environment o.name with
  | none => state
  | some value =>
    match o.set value state.1 with
    | .ok s => (s, state.2)
    | .error warning => (state.1, state.2 ++ [warning])

end Override

/-- The settings after all overrides, and the warnings about those that were ignored. -/
def Settings.override (environment : String → Option String) (s : Settings) : Settings × List LogEvent :=
  Override.all.foldl (Override.apply environment) (s, [])

end Switchboard
