import Switchboard.Proofs.Json.Record
import Switchboard.Proofs.Payload

/-!
# JSON round trip

Every known payload comes back from JSON as it was, provided that its floats are finite and read back from their texts
and that it nests no deeper than the reader goes (`decode_encode_json`).
-/

namespace Switchboard.Json

/-- A plain record is read from its text as its members. -/
theorem read_write {r : Record} (hplain : ∀ q ∈ r.within, q.Plain)
    (hfloats : ∀ x ∈ r.floats, x.isFinite = true ∧ FloatReadsBack x) (hdeep : Codec.json.nesting r ≤ maxNesting) :
    ∃ bytes, Codec.json.write r = .ok bytes ∧ Codec.json.read bytes = .ok (.json (members r)) := by
  have hheight : (obj (members r)).height ≤ maxNesting := (height_members r hplain).trans_le hdeep
  have hparse := parseBytes?_print (ordered_members r) (readsBack_members r fun x hx => (hfloats x hx).2) hheight
  exact ⟨_, write_eq_ok fun x hx => (hfloats x hx).1, by rw [Codec.read, hparse]⟩

/-- A payload comes back from JSON as it was, as the type of its tag and as its own type. -/
theorem decode_encode_json {types : TypeRegistry} (htypes : types.Complete) {p : Payload} {t : PayloadType}
    (ht : p.type? = some t) (hp : p.Known) (hfloats : ∀ x ∈ p.toRecord.floats, x.isFinite = true ∧ FloatReadsBack x)
    (hdeep : Codec.json.nesting p.toRecord ≤ Codec.json.maxNesting) :
    ∃ bytes, Codec.json.encode p = .ok bytes ∧ Codec.json.decode types bytes = .ok p ∧
      Codec.json.decodeAs types t bytes = .ok p := by
  obtain ⟨bytes, hwrite, hread⟩ := read_write hp.plain_toRecord hfloats hdeep
  have hcarries := carries_members p.toRecord hp.plain_toRecord
  exact ⟨bytes, hwrite, Codec.decode_of_carries htypes ht hp hread hcarries⟩

private def station : Station :=
  ⟨"north\t\"sea\"", true, -9223372036854775808, ["säure", "\x00", "😀"], [⟨0x4035000000000000⟩, ⟨0x8000000000000000⟩],
    [9223372036854775807, 0], [0, 255], some (.of "t1" ⟨0x4035000000000000⟩), []⟩

/-- A packet with a station and with a packet that holds an error, and texts that need escapes. -/
private def nested : Payload :=
  .packet (.rpc ⟨⟨["level"], ["lab", "desk"], some "id"⟩, "pumps", "_all"⟩)
    [.station station, .packet (.plain ⟨["level"], [], none⟩) [.error ⟨"E", "no \"level\"\n"⟩]]

theorem decode_encode_json_nested :
    ∃ bytes, Codec.json.encode nested = .ok bytes ∧ Codec.json.decode .full bytes = .ok nested ∧
      Codec.json.decodeAs .full .packet bytes = .ok nested := by
  have hlabel : ∀ r ∈ station.latest, r.Labelled := by
    intro r hr
    cases hr
    rfl
  have hknown : nested.Known := ⟨⟨hlabel, by simp [station]⟩, ⟨trivial, trivial⟩, trivial⟩
  have hfloats : ∀ x ∈ nested.toRecord.floats, x.isFinite = true ∧ FloatReadsBack x := by
    unfold FloatReadsBack
    decide +kernel
  exact decode_encode_json TypeRegistry.complete_full rfl hknown hfloats (by decide)

end Switchboard.Json
