import Switchboard.Codec.Basic

/-!
# Settings

What an application configures about its bus. As JSON the keys are in camel case. A key that is missing takes its
default, and unknown keys are ignored. A group of settings may also be given as an array of its values in the order
below, where missing values at the end take their defaults.
-/

namespace Switchboard

structure IdentitySettings where
  namespaces : List String
  app : String
  group : String
  client : String
deriving DecidableEq, Repr

structure TransportSettings where
  accessName : String
  host : String
  port : UInt16
deriving DecidableEq, Repr

structure Settings where
  identity : IdentitySettings
  requestTimeoutMs : UInt64
  codec : Codec
  encoderPoolSize : UInt64
  transport : TransportSettings
deriving DecidableEq, Repr

/-- Why settings cannot be used. -/
inductive SettingsError
  | unreadable
  | notJson
  | shape
  | outOfRange (key reason : String)
  | identity (e : ValidationError)
deriving DecidableEq

namespace SettingsError

/-- The name of a kind of error. -/
def kind : SettingsError → String
  | unreadable => "Read"
  | notJson => "Parse"
  | shape => "Shape"
  | outOfRange _ _ => "OutOfRange"
  | identity _ => "Identity"

def message : SettingsError → String
  | unreadable => "cannot read the settings file"
  | notJson => "the settings file is not valid JSON"
  | shape => "settings do not match the expected shape"
  | outOfRange key reason => s!"{key}: {reason}"
  | identity e => s!"invalid identity: {e.message}"

/-- The key that is at fault. -/
def key? : SettingsError → Option String
  | outOfRange key _ => some key
  | _ => none

end SettingsError

namespace Settings

/-- The time a request waits for replies if nothing else is said. -/
def usualTimeoutMs : Nat := 5000

def maxRequestTimeoutMs : Nat := 3600000

def maxEncoderPoolSize : Nat := 1024

end Settings

/-! ### Defaults -/

def IdentitySettings.standard : IdentitySettings := ⟨[], "simbus", "default", "client"⟩

def TransportSettings.standard : TransportSettings := ⟨"memory", "local", 1883⟩

def Settings.standard : Settings := ⟨.standard, UInt64.ofNat Settings.usualTimeoutMs, .json, 4, .standard⟩

/-! ### As JSON -/

/-- The values given for some keys: by name in an object, by position in an array that is not too long. -/
def Json.parts? (keys : List String) : Json → Option (List (Option Json))
  | .obj members => some (keys.map fun key => Table.get? key members)
  | .arr items => if items.length ≤ keys.length then some (keys.zipIdx.map fun (_, i) => items[i]?) else none
  | _ => none

/-- A value if it is given, and a default if not. -/
def Json.partOr {α : Type} (standard : α) (read? : Json → Option α) : Option Json → Option α
  | none => some standard
  | some v => read? v

/-- A natural number below a bound. -/
def Json.natBelow? (bound : Nat) (v : Json) : Option Nat := do
  let n ← v.getInt?
  if 0 ≤ n ∧ n < bound then some n.toNat else none

namespace IdentitySettings

def keys : List String := ["namespace", "appId", "groupId", "clientId"]

def toJson (s : IdentitySettings) : Json :=
  .object (keys.zip [.strings s.namespaces, .str s.app, .str s.group, .str s.client])

def ofJson? (v : Json) : Option IdentitySettings := do
  match ← v.parts? keys with
  | [namespaces, app, group, client] =>
    some ⟨← Json.partOr standard.namespaces (fun v => v.getArr?.bind (·.mapM Json.getStr?)) namespaces,
      ← Json.partOr standard.app Json.getStr? app,
      ← Json.partOr standard.group Json.getStr? group,
      ← Json.partOr standard.client Json.getStr? client⟩
  | _ => none

end IdentitySettings

namespace TransportSettings

def keys : List String := ["accessName", "host", "port"]

def toJson (s : TransportSettings) : Json :=
  .object (keys.zip [.str s.accessName, .str s.host, .nat s.port.toNat])

def ofJson? (v : Json) : Option TransportSettings := do
  match ← v.parts? keys with
  | [accessName, host, port] =>
    some ⟨← Json.partOr standard.accessName Json.getStr? accessName,
      ← Json.partOr standard.host Json.getStr? host,
      ← Json.partOr standard.port (fun v => UInt16.ofNat <$> v.natBelow? UInt16.size) port⟩
  | _ => none

end TransportSettings

namespace Settings

def keys : List String := ["identity", "requestTimeoutMs", "defaultCodec", "encoderPoolSize", "transport"]

def toJson (s : Settings) : Json :=
  .object (keys.zip [s.identity.toJson, .nat s.requestTimeoutMs.toNat, s.codec.toJson,
    .nat s.encoderPoolSize.toNat, s.transport.toJson])

def word? (v : Json) : Option UInt64 := UInt64.ofNat <$> v.natBelow? UInt64.size

def ofJson? (v : Json) : Option Settings := do
  match ← v.parts? keys with
  | [identity, requestTimeoutMs, codec, encoderPoolSize, transport] =>
    some ⟨← Json.partOr .standard IdentitySettings.ofJson? identity,
      ← Json.partOr standard.requestTimeoutMs word? requestTimeoutMs,
      ← Json.partOr standard.codec Codec.ofJson? codec,
      ← Json.partOr standard.encoderPoolSize word? encoderPoolSize,
      ← Json.partOr .standard TransportSettings.ofJson? transport⟩
  | _ => none

/-! ### Validation -/

/-- The identity that the settings name. -/
def identity? (s : Settings) : Except SettingsError Identity :=
  match Identity.of? s.identity.namespaces s.identity.app s.identity.group s.identity.client with
  | .ok i => .ok i
  | .error e => .error (.identity e)

/-- Refuses settings that are out of range or name no identity. -/
def validate (s : Settings) : Except SettingsError Unit :=
  if s.requestTimeoutMs = 0 ∨ maxRequestTimeoutMs < s.requestTimeoutMs.toNat then
    .error (.outOfRange "requestTimeoutMs"
      s!"must be within 1..={maxRequestTimeoutMs}, got {s.requestTimeoutMs.toNat}")
  else if maxEncoderPoolSize < s.encoderPoolSize.toNat then
    .error (.outOfRange "encoderPoolSize" s!"must be at most {maxEncoderPoolSize}, got {s.encoderPoolSize.toNat}")
  else if s.transport.accessName.isEmpty then .error (.outOfRange "transport.accessName" "must not be empty")
  else do
    let _ ← s.identity?
    pure ()

end Settings

end Switchboard
