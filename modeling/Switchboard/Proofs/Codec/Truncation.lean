import Switchboard.Proofs.Codec.Pool
import Switchboard.Proofs.Json.Prefix
import Switchboard.Proofs.Json.Record
import Switchboard.Proofs.MessagePack.Prefix

/-!
# Messages that are cut short

Both formats say where a message ends: a JSON object with its closing brace, a MessagePack map with the number of its
entries. So a message that is cut short anywhere is read by no codec (`Codec.truncation_noticed`), nor by a pool,
which goes by the first byte that is left.
-/

namespace Switchboard.Codec

/-- The error of bytes that do not spell a document at all. -/
def malformed : Codec → CodecError
  | json => .malformedJson
  | messagePack => .malformedMessagePack

/-! ### The first byte of a message -/

theorem exists_cons_encodeChars_print (members : Table Json) :
    ∃ rest, Utf8.encodeChars (Json.obj members).print = brace :: rest := ⟨_, rfl⟩

/-- A record is a map of two entries. -/
theorem exists_cons_encode (r : Record) : ∃ rest, MessagePack.encode r = 0x82 :: rest := by
  unfold MessagePack.encode
  cases r.canonical with
  | mk tag fields =>
    rw [MessagePack.ofRecord]
    exact ⟨_, rfl⟩

/-! ### Cut short -/

variable {c : Codec} {r : Record} {bytes p : Bytes}

private theorem read_of_properPrefix (hwrite : c.write r = .ok bytes)
    (hfits : c = messagePack → ∀ q ∈ r.canonical.within, MessagePack.FitsRecord q) (hp : ProperPrefix p bytes) :
    c.read p = .error c.malformed := by
  cases c with
  | json =>
    obtain rfl := Json.eq_of_write hwrite
    simp only [read, Json.parseBytes?_of_properPrefix hp, malformed]
  | messagePack =>
    cases hwrite
    simp only [read, MessagePack.decode?_of_properPrefix (hfits rfl) hp, malformed]

/-- What is left of a message still speaks for its codec, if it is anything. -/
private theorem detect_of_properPrefix (hwrite : c.write r = .ok bytes) (hp : ProperPrefix p bytes) :
    p = [] ∨ detect p = c := by
  cases c with
  | json =>
    obtain rfl := Json.eq_of_write hwrite
    obtain ⟨rest, hrest⟩ := exists_cons_encodeChars_print (Json.members r)
    rw [hrest] at hp
    exact hp.of_cons.imp_right fun ⟨p', hp', _⟩ => hp' ▸ rfl
  | messagePack =>
    cases hwrite
    obtain ⟨rest, hrest⟩ := exists_cons_encode r
    rw [hrest] at hp
    exact hp.of_cons.imp_right fun ⟨p', hp', _⟩ => hp' ▸ rfl

/-- Of a message that is cut short, if only by its last byte, no codec and no pool reads anything: neither the codec
that wrote it, nor the one that the rest speaks for. MessagePack can say no length from `2 ^ 32` on, so what is
written by it is to be shorter everywhere. -/
theorem truncation_noticed (hwrite : c.write r = .ok bytes)
    (hfits : c = messagePack → ∀ q ∈ r.canonical.within, MessagePack.FitsRecord q) (hp : p <+: bytes)
    (hcut : p ≠ bytes) :
    c.read p = .error c.malformed ∧ (detect p).read p = .error (detect p).malformed ∧
      ∀ pool : EncoderPool, pool.Sound → (pool.decodeDetected p).1 = .error (detect p).malformed := by
  have hread := read_of_properPrefix hwrite hfits ⟨hp, hcut⟩
  have hdetected : (detect p).read p = .error (detect p).malformed := by
    rcases detect_of_properPrefix hwrite ⟨hp, hcut⟩ with rfl | hdetect
    · rfl
    · rw [hdetect]
      exact hread
  refine ⟨hread, hdetected, fun pool hpool => ?_⟩
  rw [hpool.decodeDetected_fst, decode, hdetected]
  rfl

/-- A record with a text that needs escapes, a number, and a list of nested records. -/
private def gauge : Record :=
  .mk "Gauge" [("name", .str "\"säure\""), ("level", .float ⟨0x4035000000000000⟩),
    ("parts", .objectList [.mk "Valve" [("open", .bool true)], .mk "Valve" []])]

private def gaugeText : String :=
  "\x7b\"@type\":\"Gauge\",\"level\":21.0,\"name\":\"\\\"säure\\\"\",\"parts\":[" ++
    "\x7b\"@type\":\"Valve\",\"open\":true\x7d,\x7b\"@type\":\"Valve\"\x7d]\x7d"

theorem truncation_noticed_gauge :
    (json.read ((Utf8.encode gaugeText).take 21) = .error .malformedJson ∧
        ((EncoderPool.empty .standard .json 4).decodeDetected ((Utf8.encode gaugeText).take 21)).1 =
          .error .malformedJson) ∧
      messagePack.read ((MessagePack.encode gauge).take 40) = .error .malformedMessagePack ∧
        ((EncoderPool.empty .standard .json 4).decodeDetected ((MessagePack.encode gauge).take 40)).1 =
          .error .malformedMessagePack := by
  have hsound := EncoderPool.sound_empty .standard .json 4
  have hwrite : json.write gauge = .ok (Utf8.encode gaugeText) := by rfl
  have hfits : ∀ q ∈ gauge.canonical.within, MessagePack.FitsRecord q := by decide +kernel
  have hcutText : (Utf8.encode gaugeText).take 21 ≠ Utf8.encode gaugeText := by decide +kernel
  have hcut : (MessagePack.encode gauge).take 40 ≠ MessagePack.encode gauge := by decide +kernel
  obtain ⟨hreadText, -, hpoolText⟩ := truncation_noticed hwrite nofun (List.take_prefix _ _) hcutText
  obtain ⟨hread, -, hpool⟩ := truncation_noticed (c := messagePack) (r := gauge) rfl (fun _ => hfits)
    (List.take_prefix _ _) hcut
  exact ⟨⟨hreadText, hpoolText _ hsound⟩, hread, hpool _ hsound⟩

end Switchboard.Codec
