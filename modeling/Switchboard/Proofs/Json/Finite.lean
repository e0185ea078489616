import Switchboard.Codec.Basic
import Switchboard.Proofs.Json.Record

/-!
# Payloads that JSON has no text for

JSON has numbers, but neither infinities nor the values that are no number. A payload with such a float anywhere, also
in the payloads of a packet at any depth, is not encoded in JSON, and the error names the field that holds the first
of them in the order of writing (`Codec.json_encode_eq_error_iff`). MessagePack encodes every payload.

The floats of a payload are listed by what it is (`Payload.measures`): these are the floats of the record that it
writes, under the same names and in the same order (`Payload.namedFloats_toRecord`).
-/

namespace Switchboard

/-- A float is not finite if it is no number, or infinite. -/
theorem Binary64.isFinite_eq_false_iff (x : Binary64) :
    x.isFinite = false ↔ x.isNaN = true ∨ ∃ negative, x = infinity negative := by
  have hfinite : x.isFinite = false ↔ x.exponentField = 2047 := by simp [isFinite]
  have hnan : x.isNaN = true ↔ x.exponentField = 2047 ∧ x.fraction ≠ 0 := by simp [isNaN]
  rw [hfinite, hnan]
  constructor
  · intro hexponent
    by_cases hfraction : x.fraction = 0
    · have hbits : x.bits.toNat = (if x.isNegative then 1 <<< 63 else 0) + 2047 <<< 52 := by
        have hlt : x.bits.toNat < 2 ^ 64 := x.bits.toNat_lt
        simp only [exponentField, fraction, isNegative, Nat.shiftRight_eq_div_pow, Nat.shiftLeft_eq,
          decide_eq_true_eq] at hexponent hfraction ⊢
        split <;> omega
      refine .inr ⟨x.isNegative, ?_⟩
      rw [infinity, ofBits, ← hbits, UInt64.ofNat_toNat]
    · exact .inl ⟨hexponent, hfraction⟩
  · rintro (⟨hexponent, -⟩ | ⟨negative, rfl⟩)
    · exact hexponent
    · cases negative <;> decide +kernel

/-! ### The floats of a payload -/

theorem namedFloatsOfFields_append (l l' : List (String × Field)) :
    namedFloatsOfFields (l ++ l') = namedFloatsOfFields l ++ namedFloatsOfFields l' := by
  induction l with
  | nil => rfl
  | cons e l ih =>
    obtain ⟨name, f⟩ := e
    rw [List.cons_append, namedFloatsOfFields, namedFloatsOfFields, ih, List.append_assoc]

theorem Header.namedFloats_fields (h : Header) : namedFloatsOfFields h.fields = [] := by
  obtain ⟨subject, source, packetId⟩ := h
  cases packetId <;> rfl

theorem PacketHeader.namedFloats_toRecord (h : PacketHeader) : h.toRecord.namedFloats = [] := by
  cases h with
  | plain h => exact h.namedFloats_fields
  | rpc h =>
    rw [toRecord, RpcHeader.toRecord, Record.namedFloats, namedFloatsOfFields_append, h.base.namedFloats_fields]
    rfl

theorem LogRecord.namedFloats_toRecords (records : List LogRecord) :
    namedFloatsOfRecords (records.map toRecord) = [] := by
  induction records with
  | nil => rfl
  | cons r rs ih => exact ih

theorem Reading.namedFloats_toRecords (readings : List Reading) :
    namedFloatsOfRecords (readings.map toRecord) = readings.map fun r => ("value", r.value) := by
  induction readings with
  | nil => rfl
  | cons r rs ih => rw [List.map_cons, namedFloatsOfRecords, ih]; rfl

namespace Payload

mutual
/-- The floats of a payload and of the payloads inside in the order of writing, each with the field that holds it. -/
def measures : Payload → List (String × Binary64)
  | double x => [("value", x)]
  | reading r => [("value", r.value)]
  | station s =>
    s.samples.map (fun x => ("samples", x)) ++ s.latest.toList.map (fun r => ("value", r.value)) ++
      s.history.map fun r => ("value", r.value)
  | packet _ payloads => measuresAll payloads
  | custom r => r.namedFloats
  | _ => []

def measuresAll : List Payload → List (String × Binary64)
  | [] => []
  | p :: ps => p.measures ++ measuresAll ps
end

theorem namedFloats_station (s : Station) : s.toRecord.namedFloats = (station s).measures := by
  have hhistory := Reading.namedFloats_toRecords s.history
  cases hlatest : s.latest with
  | none =>
    simp [Station.toRecord, Record.namedFloats, namedFloatsOfFields, Field.namedFloats, measures, hlatest, hhistory]
  | some r =>
    have hr : r.toRecord.namedFloats = [("value", r.value)] := rfl
    simp [Station.toRecord, Record.namedFloats, namedFloatsOfFields, Field.namedFloats, measures, hlatest, hhistory,
      hr]

mutual
/-- A payload writes its floats. -/
theorem namedFloats_toRecord (p : Payload) : p.toRecord.namedFloats = p.measures := by
  cases p with
  | logBatch records =>
    simp only [toRecord, Record.namedFloats, namedFloatsOfFields, Field.namedFloats, measures,
      LogRecord.namedFloats_toRecords, List.append_nil]
  | header h => exact PacketHeader.namedFloats_toRecord (.plain h)
  | rpcHeader h => exact PacketHeader.namedFloats_toRecord (.rpc h)
  | packet h payloads =>
    have hheader := h.namedFloats_toRecord
    have hpayloads := namedFloats_toRecords payloads
    simp only [toRecord, Record.namedFloats, namedFloatsOfFields, Field.namedFloats, measures, hheader, hpayloads,
      List.nil_append, List.append_nil]
  | station s => exact namedFloats_station s
  | _ => rfl

theorem namedFloats_toRecords (payloads : List Payload) :
    namedFloatsOfRecords (toRecords payloads) = measuresAll payloads := by
  match payloads with
  | [] => rfl
  | p :: ps => rw [toRecords, namedFloatsOfRecords, measuresAll, namedFloats_toRecord p, namedFloats_toRecords ps]
end

end Payload

namespace Codec

/-- The error is settled by the first float that has no text. -/
theorem json_encode_eq (p : Payload) : json.encode p =
    Json.unlessFound (Json.firstUnwritable p.measures)
      (Utf8.encodeChars (Json.obj (Json.members p.toRecord)).print) := by
  rw [encode, Json.write_eq, Payload.namedFloats_toRecord]

/-- A payload is refused in JSON if and only if one of its floats is infinite or no number, and what is reported is
the first of them in the order of writing, with the field that holds it. In MessagePack no payload is refused. -/
theorem json_encode_eq_error_iff (p : Payload) :
    (∀ e, json.encode p = .error e ↔ ∃ before field x after, p.measures = before ++ (field, x) :: after ∧
      (∀ m ∈ before, m.2.isFinite = true) ∧ (x.isNaN = true ∨ ∃ negative, x = .infinity negative) ∧
      e = .invalidField field (.notFinite x)) ∧
    ((∃ e, json.encode p = .error e) ↔ ∃ m ∈ p.measures, m.2.isNaN = true ∨ ∃ negative, m.2 = .infinity negative) ∧
    ∃ bytes, messagePack.encode p = .ok bytes := by
  have herror : ∀ e, json.encode p = .error e ↔ ∃ field x, Json.firstUnwritable p.measures = some (field, x) ∧
      e = .invalidField field (.notFinite x) := by
    intro e
    rw [json_encode_eq]
    cases Json.firstUnwritable p.measures with
    | none => simp [Json.unlessFound]
    | some m =>
      obtain ⟨field, x⟩ := m
      constructor
      · rintro ⟨⟩
        exact ⟨field, x, rfl, rfl⟩
      · rintro ⟨_, _, ⟨⟩, rfl⟩
        rfl
  refine ⟨fun e => ?_, ?_, _, rfl⟩
  · rw [herror]
    constructor
    · rintro ⟨field, x, hfirst, he⟩
      obtain ⟨hx, before, after, hsplit, hbefore⟩ := List.find?_eq_some_iff_append.1 hfirst
      have hx : x.isFinite = false := by simpa using hx
      exact ⟨before, field, x, after, hsplit, fun m hm => by simpa using hbefore m hm,
        x.isFinite_eq_false_iff.1 hx, he⟩
    · rintro ⟨before, field, x, after, hsplit, hbefore, hx, he⟩
      have hx : x.isFinite = false := x.isFinite_eq_false_iff.2 hx
      exact ⟨field, x, List.find?_eq_some_iff_append.2 ⟨by simp [hx], before, after, hsplit,
        fun m hm => by simp [hbefore m hm]⟩, he⟩
  · simp only [herror, ← Binary64.isFinite_eq_false_iff]
    constructor
    · rintro ⟨-, field, x, hfirst, -⟩
      exact ⟨(field, x), List.mem_of_find?_eq_some hfirst, by simpa using List.find?_some hfirst⟩
    · rintro ⟨m, hm, hx⟩
      have hfound : (Json.firstUnwritable p.measures).isSome := List.find?_isSome.2 ⟨m, hm, by simp [hx]⟩
      obtain ⟨⟨field, x⟩, hfirst⟩ := Option.isSome_iff_exists.1 hfound
      exact ⟨_, field, x, hfirst, rfl⟩

/-- The samples of a station are written before its readings, and a packet's payloads in their order. -/
example : json.encode (.packet default [.double (.ofInt 1), .packet default [.station
      ⟨"weir", true, 7, [], [.ofInt 2, .infinity true], [], [], some (.of "level" (.infinity false)), []⟩]]) =
    .error (.invalidField "samples" (.notFinite (.infinity true))) := by rfl

end Codec

end Switchboard
