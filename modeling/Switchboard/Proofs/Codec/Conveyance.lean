import Switchboard.Proofs.Codec.Detection
import Switchboard.Proofs.Json.RoundTrip
import Switchboard.Proofs.MessagePack.RoundTrip

/-!
# What a codec conveys

A codec conveys a payload if the payload comes back from its bytes. It does so whenever the payload is known, the
registry of the receiver knows its types, and its record keeps to the limits of the format (`Codec.Admits.conveys`).
What is conveyed by any codec is decoded by the pool of the receiver, which tells the codec from the bytes
(`EncoderPool.decodeDetected_of_decode`).
-/

namespace Switchboard

/-- What the pool of a receiver makes of the bytes of some codec is what this codec makes of them. -/
theorem EncoderPool.decodeDetected_of_decode {pool : EncoderPool} (hpool : pool.Sound) {c : Codec} {bytes : Bytes}
    {p : Payload} (h : c.decode pool.types bytes = .ok p) : (pool.decodeDetected bytes).1 = .ok p := by
  rw [hpool.decodeDetected_fst, Codec.detect_of_decode h, h]

/-- Whatever the pool has lent in the meantime. -/
theorem EncoderPool.SameDesk.decodeDetected_of_decode {pool pool' : EncoderPool} (hdesk : pool.SameDesk pool')
    (hpool : pool.Sound) {c : Codec} {bytes : Bytes} {p : Payload} (h : c.decode pool.types bytes = .ok p) :
    (pool'.decodeDetected bytes).1 = .ok p := by
  apply EncoderPool.decodeDetected_of_decode (hdesk.sound hpool)
  rw [hdesk.types]
  exact h

namespace Codec

/-- The payload comes back from its bytes. -/
def Conveys (c : Codec) (types : TypeRegistry) (p : Payload) : Prop :=
  ∃ bytes, c.encode p = .ok bytes ∧ c.decode types bytes = .ok p

/-- The limits of a format besides nesting: JSON has no text for numbers that are not finite, and MessagePack no
header for texts and lists of `2 ^ 32` elements or more. -/
def Fits (c : Codec) (r : Record) : Prop :=
  match c with
  | json => ∀ x ∈ r.floats, x.isFinite = true ∧ Json.FloatReadsBack x
  | messagePack => ∀ q ∈ r.within, ∀ e ∈ q.fields, MessagePack.FitsField e.2

/-- The payload keeps to the limits of a format, and a registry knows its types. -/
structure Admits (c : Codec) (types : TypeRegistry) (p : Payload) : Prop where
  knows : types.Knows p
  known : p.Known
  fits : c.Fits p.toRecord
  shallow : c.nesting p.toRecord ≤ c.maxNesting

variable {c : Codec} {types : TypeRegistry} {p : Payload}

/-- Payloads within the limits of a format come back from their bytes. -/
theorem Admits.conveys (h : c.Admits types p) : c.Conveys types p := by
  obtain ⟨htypes, hp, hfits, hdeep⟩ := h
  cases c with
  | json =>
    obtain ⟨bytes, hwrite, hread⟩ := Json.read_write hp.plain_toRecord hfits hdeep
    have hcarries := Json.carries_members p.toRecord hp.plain_toRecord
    refine ⟨bytes, hwrite, ?_⟩
    rw [decode, hread]
    exact Payload.ofDocument_of_knows htypes hp hcarries
  | messagePack =>
    have hrecords : ∀ r ∈ p.toRecord.within, MessagePack.FitsRecord r := by
      intro r hr
      exact .of_plain (hp.plain_toRecord r hr) (hfits r hr)
    have hcarries := MessagePack.carries_canonical p.toRecord hp.plain_toRecord
    refine ⟨MessagePack.encode p.toRecord, rfl, ?_⟩
    rw [decode, read, MessagePack.decode?_encode hrecords hdeep]
    exact Payload.ofDocument_of_knows htypes hp hcarries

/-! ### Packets with an error -/

theorem nesting_header_le (h : RpcHeader) : c.nesting h.toRecord ≤ c.perRecord + 1 := by
  obtain ⟨⟨subject, source, packetId⟩, group, client⟩ := h
  cases packetId <;> simp [RpcHeader.toRecord, Header.fields, nesting, nestingFields, nestingField, Nat.add_comm]

/-- A packet with a single error nests no deeper than any format allows. -/
theorem nesting_error_le (h : RpcHeader) (e : ErrorPayload) :
    c.nesting (Payload.packet (.rpc h) [.error e]).toRecord ≤ c.maxNesting := by
  have hheader := nesting_header_le (c := c) h
  have hrecord : c.perRecord ≤ 2 := by cases c <;> decide
  have herror : c.nesting e.toRecord = c.perRecord := by
    simp [ErrorPayload.toRecord, nesting, nestingFields, nestingField]
  have hpacket : c.nesting (Payload.packet (.rpc h) [.error e]).toRecord =
      max (c.nesting h.toRecord) (c.perRecord + 1) + c.perRecord := by
    simp [Payload.toRecord, Payload.toRecords, PacketHeader.toRecord, nesting, nestingFields, nestingField,
      nestingRecords, herror]
  have hmax : 5 ≤ c.maxNesting := by cases c <;> decide
  omega

theorem knows_error {h : PacketHeader} {e : ErrorPayload}
    (hpacket : types.find Payload.packetTag = .ok .packet) (herror : types.find ErrorPayload.tag = .ok .error) :
    types.Knows (.packet h [.error e]) := by
  intro t ht
  simp only [Payload.typesWithin, Payload.typesWithinAll, Payload.type?, Option.toList_some, List.append_nil,
    List.mem_cons, List.not_mem_nil, or_false] at ht
  rcases ht with rfl | rfl
  · exact hpacket
  · exact herror

theorem floats_error (h : RpcHeader) (e : ErrorPayload) :
    (Payload.packet (.rpc h) [.error e]).toRecord.floats = [] := by
  obtain ⟨⟨subject, source, packetId⟩, group, client⟩ := h
  cases packetId <;> rfl

/-- Every packet with a single error can be encoded. -/
theorem exists_encode_error (c : Codec) (h : RpcHeader) (e : ErrorPayload) :
    ∃ bytes, c.encode (.packet (.rpc h) [.error e]) = .ok bytes := by
  cases c with
  | json =>
    have hfloats : ∀ x ∈ (Payload.packet (.rpc h) [.error e]).toRecord.floats, x.isFinite = true := by
      rw [floats_error]
      nofun
    exact ⟨_, Json.write_eq_ok hfloats⟩
  | messagePack => exact ⟨_, rfl⟩

/-- A packet with a single error comes back from its bytes. -/
theorem conveys_error {h : RpcHeader} {e : ErrorPayload} (hpacket : types.find Payload.packetTag = .ok .packet)
    (herror : types.find ErrorPayload.tag = .ok .error)
    (hlengths : c = .messagePack → c.Fits (Payload.packet (.rpc h) [.error e]).toRecord) :
    c.Conveys types (.packet (.rpc h) [.error e]) := by
  refine Admits.conveys ⟨knows_error hpacket herror, ⟨trivial, trivial⟩, ?_, nesting_error_le h e⟩
  cases c with
  | json =>
    intro x hx
    rw [floats_error] at hx
    cases hx
  | messagePack => exact hlengths rfl

end Codec

end Switchboard
