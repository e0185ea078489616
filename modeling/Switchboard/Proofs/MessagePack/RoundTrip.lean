import Switchboard.Proofs.MessagePack.Record
import Switchboard.Proofs.Payload

/-!
# MessagePack round trip

The bytes of a record are read as its canonical form, which carries the record. So every known payload comes back from
MessagePack as it was, provided that its texts and lists are shorter than 4 GiB and that it nests no deeper than the
reader goes (`decode_encode_messagePack`).
-/

namespace Switchboard.MessagePack

/-! ### Bytes -/

theorem fitsField_canonical {f : Field} (h : FitsField f) : FitsField f.canonical := by
  cases f with
  | object r => trivial
  | objectList l =>
    have hlength : (canonicalRecords l).length = l.length := by rw [canonicalRecords_eq_map, List.length_map]
    have hcount : (canonicalRecords l).length < UInt32.size := hlength ▸ h
    exact hcount
  | _ => exact h

theorem FitsRecord.canonical {r : Record} (h : FitsRecord r) : FitsRecord r.canonical := by
  rw [Record.canonical_eq]
  refine ⟨h.tag, ?_, fun e he => ?_⟩
  · have hle := Table.length_ofWrites_le (canonicalFields r.fields)
    rw [canonicalFields_eq_map, List.length_map] at hle
    rw [canonicalFields_eq_map]
    exact Nat.lt_of_le_of_lt hle h.count
  · have hwrite := Table.mem_of_mem_ofWrites he
    rw [canonicalFields_eq_map] at hwrite
    obtain ⟨e', he', rfl⟩ := List.mem_map.1 hwrite
    obtain ⟨hname, hf⟩ := h.fields e' he'
    exact ⟨hname, fitsField_canonical hf⟩

/-- It is the canonical form that is written, so only this has to keep to the limits of the format. -/
theorem decode?_encode_of_canonical {r : Record} (hfits : ∀ q ∈ r.canonical.within, FitsRecord q)
    (hdeep : Codec.messagePack.nesting r.canonical ≤ maxNesting) : decode? (encode r) = some r.canonical := by
  have hread := (ofRecord r.canonical).read?_write (fits_ofRecord _ hfits) (Nat.le_refl _) []
  have hrecord := toRecord?_ofRecord r.canonical (fun q hq => Record.ordered_canonical hq) hdeep
  rw [List.append_nil] at hread
  simp only [decode?, encode, hread, Option.bind_eq_bind, Option.bind_some, hrecord]

/-- A record comes back from its bytes in canonical form. -/
theorem decode?_encode {r : Record} (hfits : ∀ q ∈ r.within, FitsRecord q)
    (hdeep : Codec.messagePack.nesting r ≤ maxNesting) : decode? (encode r) = some r.canonical := by
  have hcanonical : ∀ q ∈ r.canonical.within, FitsRecord q := fun q hq => by
    obtain ⟨q', hq', rfl⟩ := Record.exists_of_mem_within_canonical hq
    exact (hfits q' hq').canonical
  exact decode?_encode_of_canonical hcanonical (Nat.le_trans (Codec.nesting_canonical_le r) hdeep)

/-! ### Documents -/

mutual
/-- The canonical form of a plain record carries the record. -/
theorem carries_canonical (r : Record) (h : ∀ q ∈ r.within, q.Plain) :
    (Document.messagePack r.canonical).Carries r := by
  match r with
  | .mk tag fields =>
    obtain ⟨htag, hdistinct, -⟩ := h _ (Record.mem_within_self _)
    have hnames : (canonicalFields fields).map (·.1) = fields.map (·.1) := by
      rw [canonicalFields_eq_map, List.map_map]
      rfl
    have hget : ∀ e ∈ fields, Table.get? e.1 (Table.ofWrites (canonicalFields fields)) = some e.2.canonical := by
      intro e he
      have hwrite : (e.1, e.2.canonical) ∈ canonicalFields fields := by
        rw [canonicalFields_eq_map]
        exact List.mem_map_of_mem he
      exact Table.get?_putAll_of_mem (hnames ▸ hdistinct) hwrite []
    rw [Record.canonical]
    refine ⟨?_, carriesFields_canonical fields (fun q hq => h q (List.mem_cons_of_mem _ hq)) hget, fun name _ => ?_⟩
    · have hpresent : ¬ tag.isEmpty = true := by simpa [Record.tag] using htag
      exact if_neg hpresent
    · exact hnames ▸ Table.has_ofWrites

theorem carriesFields_canonical {tag : String} {table : Table Field} (fields : List (String × Field))
    (h : ∀ q ∈ withinFields fields, q.Plain)
    (hget : ∀ e ∈ fields, Table.get? e.1 table = some e.2.canonical) :
    Document.CarriesFields (.messagePack (.mk tag table)) fields := by
  match fields with
  | [] => trivial
  | (name, f) :: r =>
    exact ⟨carriesField_canonical f (fun q hq => h q (List.mem_append_left _ hq)) (hget (name, f) List.mem_cons_self),
      carriesFields_canonical r (fun q hq => h q (List.mem_append_right _ hq))
        fun e he => hget e (List.mem_cons_of_mem _ he)⟩

theorem carriesField_canonical {tag name : String} {table : Table Field} (f : Field) (h : ∀ q ∈ f.within, q.Plain)
    (hget : Table.get? name table = some f.canonical) :
    Document.CarriesField (.messagePack (.mk tag table)) name f := by
  have hfield : ∀ {α : Type} (fromJson : Json → Except CodecError α) (fromField : Field → Except CodecError α),
      (Document.messagePack (.mk tag table)).field name fromJson fromField = fromField f.canonical := by
    intro α fromJson fromField
    simp only [Document.field, Record.fields, hget]
  cases f with
  | object r => exact ⟨.messagePack r.canonical, hfield _ _, carries_canonical r h⟩
  | objectList l =>
    exact ⟨(canonicalRecords l).map .messagePack, hfield _ _, carriesAll_canonical l h⟩
  | _ => exact hfield _ _

theorem carriesAll_canonical (l : List Record) (h : ∀ q ∈ withinRecords l, q.Plain) :
    Document.CarriesAll ((canonicalRecords l).map .messagePack) l := by
  match l with
  | [] => trivial
  | r :: rs =>
    exact ⟨carries_canonical r fun q hq => h q (List.mem_append_left _ hq),
      carriesAll_canonical rs fun q hq => h q (List.mem_append_right _ hq)⟩
end

/-! ### Payloads -/

/-- Names that are not long fit. -/
theorem FitsRecord.of_plain {r : Record} (h : r.Plain) (hfields : ∀ e ∈ r.fields, FitsField e.2) : FitsRecord r := by
  obtain ⟨-, -, -, hcount, hshort⟩ := h
  rw [Record.names, List.length_map] at hcount
  refine ⟨?_, Nat.lt_trans hcount (by decide), fun e he => ⟨?_, hfields e he⟩⟩
  · exact Nat.lt_trans (hshort r.tag List.mem_cons_self) (by decide)
  · exact Nat.lt_trans (hshort e.1 (List.mem_cons_of_mem _ (List.mem_map_of_mem he))) (by decide)

/-- A payload comes back from MessagePack as it was, as the type of its tag and as its own type. -/
theorem decode_encode_messagePack {types : TypeRegistry} (htypes : types.Complete) {p : Payload} {t : PayloadType}
    (ht : p.type? = some t) (hp : p.Known) (hsizes : ∀ r ∈ p.toRecord.within, ∀ e ∈ r.fields, FitsField e.2)
    (hdeep : Codec.messagePack.nesting p.toRecord ≤ Codec.messagePack.maxNesting) :
    ∃ bytes, Codec.messagePack.encode p = .ok bytes ∧ Codec.messagePack.decode types bytes = .ok p ∧
      Codec.messagePack.decodeAs types t bytes = .ok p := by
  have hfits : ∀ r ∈ p.toRecord.within, FitsRecord r := fun r hr =>
    .of_plain (hp.plain_toRecord r hr) (hsizes r hr)
  have hread : Codec.messagePack.read (encode p.toRecord) = .ok (.messagePack p.toRecord.canonical) := by
    simp only [Codec.read, decode?_encode hfits hdeep]
  have hcarries := carries_canonical p.toRecord hp.plain_toRecord
  exact ⟨encode p.toRecord, rfl, Codec.decode_of_carries htypes ht hp hread hcarries⟩

private def station : Station :=
  ⟨"north", true, -9223372036854775808, ["wind", "säure"], [⟨0x7ff8000000000001⟩, ⟨0xfff0000000000000⟩],
    [-33, 128, 65536, 4294967296], [0, 255], some (.of "t1" ⟨0x4035000000000000⟩), []⟩

/-- A packet with a station and with a packet that holds an error, a NaN and an infinity among the floats. -/
private def nested : Payload :=
  .packet (.rpc ⟨⟨["level"], ["lab", "desk"], some "id"⟩, "pumps", "_all"⟩)
    [.station station, .packet (.plain ⟨["level"], [], none⟩) [.error ⟨"E", "no \"level\""⟩]]

theorem decode_encode_messagePack_nested :
    ∃ bytes, Codec.messagePack.encode nested = .ok bytes ∧ Codec.messagePack.decode .full bytes = .ok nested ∧
      Codec.messagePack.decodeAs .full .packet bytes = .ok nested := by
  have hlabel : ∀ r ∈ station.latest, r.Labelled := by
    intro r hr
    cases hr
    rfl
  have hknown : nested.Known := ⟨⟨hlabel, by simp [station]⟩, ⟨trivial, trivial⟩, trivial⟩
  exact decode_encode_messagePack TypeRegistry.complete_full rfl hknown (by decide +kernel) (by decide)

end Switchboard.MessagePack
