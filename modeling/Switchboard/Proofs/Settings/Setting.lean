import Switchboard.Settings.Basic

/-!
# Single settings

Settings are made of ten single settings, each with a value of its own type. They can be set one by one
(`get_update_self`, `get_update_of_ne`), and settings that agree in all of them are the same (`ext_get`).
-/

namespace Switchboard

inductive Setting
  | namespaces
  | app
  | group
  | client
  | requestTimeoutMs
  | codec
  | encoderPoolSize
  | accessName
  | host
  | port
deriving DecidableEq

namespace Setting

/-- What a setting may be set to. -/
abbrev Value : Setting → Type
  | namespaces => List String
  | app | group | client | accessName | host => String
  | requestTimeoutMs | encoderPoolSize => UInt64
  | codec => Codec
  | port => UInt16

def get : (k : Setting) → Settings → k.Value
  | namespaces, s => s.identity.namespaces
  | app, s => s.identity.app
  | group, s => s.identity.group
  | client, s => s.identity.client
  | requestTimeoutMs, s => s.requestTimeoutMs
  | codec, s => s.codec
  | encoderPoolSize, s => s.encoderPoolSize
  | accessName, s => s.transport.accessName
  | host, s => s.transport.host
  | port, s => s.transport.port

def update : (k : Setting) → k.Value → Settings → Settings
  | namespaces, x, s => { s with identity.namespaces := x }
  | app, x, s => { s with identity.app := x }
  | group, x, s => { s with identity.group := x }
  | client, x, s => { s with identity.client := x }
  | requestTimeoutMs, x, s => { s with requestTimeoutMs := x }
  | codec, x, s => { s with codec := x }
  | encoderPoolSize, x, s => { s with encoderPoolSize := x }
  | accessName, x, s => { s with transport.accessName := x }
  | host, x, s => { s with transport.host := x }
  | port, x, s => { s with transport.port := x }

theorem get_update_self (k : Setting) (x : k.Value) (s : Settings) : k.get (k.update x s) = x := by
  cases k <;> rfl

/-- Setting one setting leaves the others as they are. -/
theorem get_update_of_ne {k k' : Setting} (h : k ≠ k') (x : k.Value) (s : Settings) :
    k'.get (k.update x s) = k'.get s := by
  revert h
  cases k <;> cases k' <;> simp [get, update]

theorem ext_get {s s' : Settings} (h : ∀ k : Setting, k.get s = k.get s') : s = s' := by
  obtain ⟨⟨namespaces, app, group, client⟩, timeout, codec, size, ⟨accessName, host, port⟩⟩ := s
  obtain ⟨⟨namespaces', app', group', client'⟩, timeout', codec', size', ⟨accessName', host', port'⟩⟩ := s'
  obtain rfl : namespaces = namespaces' := h .namespaces
  obtain rfl : app = app' := h .app
  obtain rfl : group = group' := h .group
  obtain rfl : client = client' := h .client
  obtain rfl : timeout = timeout' := h .requestTimeoutMs
  obtain rfl : codec = codec' := h .codec
  obtain rfl : size = size' := h .encoderPoolSize
  obtain rfl : accessName = accessName' := h .accessName
  obtain rfl : host = host' := h .host
  obtain rfl : port = port' := h .port
  rfl

end Setting

end Switchboard
