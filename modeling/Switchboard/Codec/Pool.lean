import Switchboard.Codec.Basic

/-!
# Pools of encoders

An encoder is a reusable worker with a scratch area. A pool lends encoders of either codec, makes a new one when none
is idle, and takes them back up to its capacity; the last one returned is lent first. What an encoder answers never
depends on what it did before. Encoders carry serial numbers so that one can be told from another.
-/

namespace Switchboard

structure Encoder where
  serial : Nat
  codec : Codec
  scratch : Bytes
deriving DecidableEq

namespace Encoder

/-- Encodes a payload by way of the scratch area: it is cleared, written, and copied. A payload that is refused leaves
it as it was. -/
def encode (e : Encoder) (p : Payload) : Except CodecError Bytes × Encoder :=
  match e.codec.encode p with
  | .ok bytes =>
    let cleared := { e with scratch := [] }
    let written := { cleared with scratch := cleared.scratch ++ bytes }
    (.ok written.scratch, written)
  | .error err => (.error err, e)

def decode (e : Encoder) (types : TypeRegistry) (bytes : Bytes) : Except CodecError Payload :=
  e.codec.decode types bytes

/-- An encoder with an empty scratch area. -/
def reset (e : Encoder) : Encoder := { e with scratch := [] }

end Encoder

/-- The idle encoders of each codec, the last returned first. -/
structure EncoderPool where
  types : TypeRegistry
  standard : Codec
  capacity : Nat
  idleJson : List Encoder
  idleMessagePack : List Encoder
  made : Nat

namespace EncoderPool

/-- The capacity of a pool for which none is given. -/
def usualCapacity : Nat := 4

def empty (types : TypeRegistry) (standard : Codec) (capacity : Nat) : EncoderPool :=
  ⟨types, standard, capacity, [], [], 0⟩

/-- The idle encoders of a codec. -/
def idle (p : EncoderPool) : Codec → List Encoder
  | .json => p.idleJson
  | .messagePack => p.idleMessagePack

def setIdle (p : EncoderPool) (c : Codec) (encoders : List Encoder) : EncoderPool :=
  match c with
  | .json => { p with idleJson := encoders }
  | .messagePack => { p with idleMessagePack := encoders }

/-- Lends an encoder, a new one if none is idle. -/
def borrow (p : EncoderPool) (c : Codec) : Encoder × EncoderPool :=
  match p.idle c with
  | e :: rest => (e, p.setIdle c rest)
  | [] => (⟨p.made, c, []⟩, { p with made := p.made + 1 })

/-- Takes an encoder back, or lets it go if the pool is full. -/
def release (p : EncoderPool) (e : Encoder) : EncoderPool :=
  let idle := p.idle e.codec
  if idle.length < p.capacity then p.setIdle e.codec (e.reset :: idle) else p

/-- Encodes a payload with a borrowed encoder, which returns in any case. -/
def encode (p : EncoderPool) (c : Codec) (payload : Payload) : Except CodecError Bytes × EncoderPool :=
  let (e, p) := p.borrow c
  let (result, e) := e.encode payload
  (result, p.release e)

/-- Decodes a message with a borrowed encoder of the codec that the message speaks for. -/
def decodeDetected (p : EncoderPool) (bytes : Bytes) : Except CodecError Payload × EncoderPool :=
  let (e, p) := p.borrow (Codec.detect bytes)
  (e.decode p.types bytes, p.release e)

end EncoderPool

end Switchboard
