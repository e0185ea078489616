import Switchboard.Packet.TypeRegistry
import Switchboard.Proofs.Document
import Switchboard.Proofs.Record

/-!
# Payloads from documents

A payload of a known type is read from any document that carries its record, be it read as the type of its tag
(`Payload.ofDocument_of_carries`) or as its own type (`Payload.ofDocumentAs_of_carries`). The readers of the single
types come first; a packet leaves its payloads to the reader of any type, which has room for them since documents are
as high as what they carry.
-/

namespace Switchboard

variable {d : Document}

namespace Document

@[simp] theorem carriesFields_append {l r : List (String × Field)} :
    CarriesFields d (l ++ r) ↔ CarriesFields d l ∧ CarriesFields d r := by
  induction l with
  | nil => simp [CarriesFields]
  | cons m l ih =>
    obtain ⟨name, f⟩ := m
    simp [CarriesFields, ih, and_assoc]

/-- Nested documents are read one by one. -/
theorem CarriesAll.mapM {α : Type} {toRecord : α → Record} {read : Document → Except CodecError α} {l : List α}
    {children : List Document} (h : CarriesAll children (l.map toRecord))
    (hread : ∀ a ∈ l, ∀ child : Document, child.Carries (toRecord a) → read child = .ok a) :
    children.mapM read = .ok l := by
  induction l generalizing children with
  | nil =>
    cases children with
    | nil => rfl
    | cons child children => exact h.elim
  | cons a l ih =>
    cases children with
    | nil => exact h.elim
    | cons child children =>
      obtain ⟨hfirst, hrest⟩ := h
      rw [List.mapM_cons, hread a List.mem_cons_self child hfirst,
        ih hrest fun a' ha' => hread a' (List.mem_cons_of_mem _ ha')]
      rfl

end Document

/-! ### Headers -/

theorem Header.read_of_carries {h : Header} {tag : String} {more : List (String × Field)}
    (hd : d.Carries (.mk tag (h.fields ++ more))) (hmore : "packet_id" ∉ more.map (·.1)) :
    Header.read d = .ok h := by
  obtain ⟨subject, source, packetId⟩ := h
  obtain ⟨-, hfields, hhas⟩ := hd
  have hpacket := hhas "packet_id" (by decide)
  cases packetId with
  | none =>
    obtain ⟨hsubject, hsource, -⟩ := (Document.carriesFields_append.1 hfields).1
    have habsent : d.hasField "packet_id" = false := by
      rw [Bool.eq_false_iff, Ne, hpacket]
      simpa [Header.fields] using hmore
    unfold Header.read Document.getStr?
    rw [hsubject, hsource, habsent]
    rfl
  | some id =>
    obtain ⟨hsubject, hsource, hid, -⟩ := (Document.carriesFields_append.1 hfields).1
    have hpresent : d.hasField "packet_id" = true := hpacket.2 (by simp [Header.fields])
    unfold Header.read Document.getStr?
    rw [hsubject, hsource, hpresent, if_pos rfl, hid]
    rfl

theorem RpcHeader.read_of_carries {h : RpcHeader} (hd : d.Carries h.toRecord) : RpcHeader.read d = .ok h := by
  have hbase := Header.read_of_carries hd (by simp)
  obtain ⟨-, hfields, -⟩ := hd
  obtain ⟨-, hgroup, hclient, -⟩ := Document.carriesFields_append.1 hfields
  unfold RpcHeader.read
  rw [hbase, hgroup, hclient]
  rfl

theorem PacketHeader.read_of_carries {h : PacketHeader} (hd : d.Carries h.toRecord) :
    PacketHeader.read d = .ok h := by
  cases h with
  | plain h =>
    have hd' : d.Carries (.mk Header.tag (h.fields ++ [])) := by
      rw [List.append_nil]
      exact hd
    have hread := Header.read_of_carries hd' List.not_mem_nil
    obtain ⟨htag, -, -⟩ := hd
    have hother : Header.tag ≠ RpcHeader.tag := by decide
    unfold PacketHeader.read Document.requireTag
    rw [htag, if_neg (by simpa using hother)]
    simp [hread]
    rfl
  | rpc h =>
    have hread := RpcHeader.read_of_carries hd
    obtain ⟨htag, -, -⟩ := hd
    unfold PacketHeader.read
    rw [htag, if_pos rfl, hread]
    rfl

/-! ### Errors, log records, readings and stations -/

theorem ErrorPayload.read_of_carries {e : ErrorPayload} (hd : d.Carries e.toRecord) :
    ErrorPayload.read d = .ok e := by
  obtain ⟨-, ⟨hcode, hmessage, -⟩, -⟩ := hd
  unfold ErrorPayload.read
  rw [hcode, hmessage]
  rfl

theorem LogLevel.ofText?_text (l : LogLevel) : ofText? l.text = some l := by
  cases l <;> decide +kernel

theorem LogRecord.read_of_carries {r : LogRecord} (hd : d.Carries r.toRecord) : LogRecord.read d = .ok r := by
  obtain ⟨-, ⟨htime, hlevel, hlogger, hmessage, -⟩, -⟩ := hd
  unfold LogRecord.read
  rw [htime, hlevel, hlogger, hmessage]
  simp only [bind, Except.bind, LogLevel.ofText?_text]
  rfl

theorem LogRecord.readTagged_of_carries {r : LogRecord} (hd : d.Carries r.toRecord) :
    LogRecord.readTagged d = .ok r := by
  have hread := LogRecord.read_of_carries hd
  obtain ⟨htag, -, -⟩ := hd
  unfold LogRecord.readTagged Document.requireTag
  rw [htag, hread]
  rfl

theorem Reading.read_of_carries {r : Reading} (hr : r.Labelled) (hd : d.Carries r.toRecord) :
    Reading.read d = .ok r := by
  obtain ⟨sensor, value, label⟩ := r
  obtain ⟨-, ⟨hsensor, hvalue, -⟩, -⟩ := hd
  obtain rfl : label = Reading.labelOf sensor value := hr
  unfold Reading.read
  rw [hsensor, hvalue]
  rfl

theorem Reading.readTagged_of_carries {r : Reading} (hr : r.Labelled) (hd : d.Carries r.toRecord) :
    Reading.readTagged d = .ok r := by
  have hread := Reading.read_of_carries hr hd
  obtain ⟨htag, -, -⟩ := hd
  unfold Reading.readTagged Document.requireTag
  rw [htag, hread]
  rfl

theorem Station.read_of_carries {s : Station} (hlatest : ∀ r ∈ s.latest, r.Labelled)
    (hhistory : ∀ r ∈ s.history, r.Labelled) (hd : d.Carries s.toRecord) : Station.read d = .ok s := by
  obtain ⟨name, active, id, tags, samples, counts, blob, latest, history⟩ := s
  obtain ⟨-, hfields, hhas⟩ := hd
  have hlatestField := hhas "latest" (by decide)
  obtain ⟨hplain, hend⟩ := Document.carriesFields_append.1 hfields
  obtain ⟨hplain, hmiddle⟩ := Document.carriesFields_append.1 hplain
  obtain ⟨hname, hactive, hid, htags, hsamples, hcounts, hblob, -⟩ := hplain
  obtain ⟨⟨children, hchildren, hcarries⟩, -⟩ := hend
  have hreadings : children.mapM Reading.readTagged = .ok history :=
    hcarries.mapM fun r hr child hchild => Reading.readTagged_of_carries (hhistory r hr) hchild
  unfold Station.read
  rw [hname, hactive, hid, htags, hsamples, hcounts, hblob, hchildren]
  cases latest with
  | none =>
    have habsent : d.hasField "latest" = false := by
      rw [Bool.eq_false_iff, Ne, hlatestField]
      simp
    simp only [habsent, bind, Except.bind, hreadings]
    rfl
  | some r =>
    have hpresent : d.hasField "latest" = true := hlatestField.2 (by simp)
    obtain ⟨⟨child, hchild, hcarried⟩, -⟩ := hmiddle
    have hread := Reading.readTagged_of_carries (hlatest r rfl) hcarried
    simp only [hpresent, hchild, hread, bind, Except.bind, hreadings]
    rfl

/-! ### All payloads -/

mutual
/-- Readings, here or in packets, have the label that follows from the rest, and all payloads in packets are of types
that can be decoded. -/
def Payload.Known : Payload → Prop
  | .reading r => r.Labelled
  | .station s => (∀ r ∈ s.latest, r.Labelled) ∧ ∀ r ∈ s.history, r.Labelled
  | .packet _ payloads => KnownAll payloads
  | .custom _ => False
  | _ => True

def KnownAll : List Payload → Prop
  | [] => True
  | p :: ps => p.Known ∧ KnownAll ps
end

namespace Payload

/-- The type of a payload. -/
def type? : Payload → Option PayloadType
  | boolean _ => some .boolean
  | integer _ => some .integer
  | double _ => some .double
  | string _ => some .string
  | error _ => some .error
  | logRecord _ => some .logRecord
  | logBatch _ => some .logBatch
  | header _ => some .header
  | rpcHeader _ => some .rpcHeader
  | packet _ _ => some .packet
  | reading _ => some .reading
  | station _ => some .station
  | custom _ => none

theorem tag_of_type? {p : Payload} {t : PayloadType} (ht : p.type? = some t) : p.tag = t.tag := by
  cases p <;> cases ht <;> rfl

theorem Known.exists_type? {p : Payload} (hp : p.Known) : ∃ t, p.type? = some t := by
  cases p <;> first | exact ⟨_, rfl⟩ | exact hp.elim

/-- The payloads of a packet. -/
def parts : Payload → List Payload
  | packet _ payloads => payloads
  | _ => []

theorem toRecords_eq_map (payloads : List Payload) : toRecords payloads = payloads.map toRecord := by
  induction payloads with
  | nil => rfl
  | cons p ps ih => rw [toRecords, ih, List.map_cons]

theorem knownAll_iff {payloads : List Payload} : KnownAll payloads ↔ ∀ p ∈ payloads, p.Known := by
  induction payloads with
  | nil => simp [KnownAll]
  | cons p ps ih => simp [KnownAll, ih]

theorem Known.of_mem_parts {p q : Payload} (hp : p.Known) (hq : q ∈ p.parts) : q.Known := by
  cases p with
  | packet h payloads => exact knownAll_iff.1 hp q hq
  | _ => cases hq

mutual
/-- The types of a payload and of the payloads inside. -/
def typesWithin : Payload → List PayloadType
  | packet _ payloads => .packet :: typesWithinAll payloads
  | p => p.type?.toList

def typesWithinAll : List Payload → List PayloadType
  | [] => []
  | p :: ps => p.typesWithin ++ typesWithinAll ps
end

theorem mem_typesWithin {p : Payload} {t : PayloadType} (ht : p.type? = some t) : t ∈ p.typesWithin := by
  cases p with
  | packet h payloads =>
    cases ht
    exact List.mem_cons_self
  | _ => exact Option.mem_toList.2 ht

theorem mem_typesWithinAll {payloads : List Payload} {t : PayloadType} :
    t ∈ typesWithinAll payloads ↔ ∃ p ∈ payloads, t ∈ p.typesWithin := by
  induction payloads with
  | nil => simp [typesWithinAll]
  | cons p ps ih => simp [typesWithinAll, ih]

theorem height_lt_of_mem_parts {p q : Payload} (hq : q ∈ p.parts) : q.toRecord.height < p.toRecord.height := by
  cases p with
  | packet h payloads =>
    have hle : q.toRecord.height ≤ heightRecords (toRecords payloads) := by
      rw [toRecords_eq_map]
      exact height_le_heightRecords (List.mem_map_of_mem hq)
    have hpacket : (packet h payloads).toRecord.height =
        max h.toRecord.height (max (heightRecords (toRecords payloads)) 0) + 1 := rfl
    omega
  | _ => cases hq

/-- A payload is read as its own type, if whoever reads the payloads inside reads these. -/
theorem readAs_of_carries {inner : Document → Except CodecError Payload} {p : Payload} {t : PayloadType}
    (ht : p.type? = some t) (hp : p.Known) (hd : d.Carries p.toRecord)
    (hinner : ∀ q ∈ p.parts, ∀ child : Document, child.Carries q.toRecord → inner child = .ok q) :
    readAs inner d t = .ok p := by
  cases p with
  | packet h payloads =>
    cases ht
    obtain ⟨-, ⟨⟨child, hchild, hheader⟩, ⟨children, hchildren, hcarries⟩, -⟩, -⟩ := hd
    rw [toRecords_eq_map] at hcarries
    have hpayloads : children.mapM inner = .ok payloads := hcarries.mapM hinner
    simp only [readAs, hchild, hchildren, PacketHeader.read_of_carries hheader, bind, Except.bind, hpayloads]
    rfl
  | logBatch records =>
    cases ht
    obtain ⟨-, ⟨⟨children, hchildren, hcarries⟩, -⟩, -⟩ := hd
    have hrecords : children.mapM LogRecord.readTagged = .ok records :=
      hcarries.mapM fun r _ child hchild => LogRecord.readTagged_of_carries hchild
    simp only [readAs, hchildren, bind, Except.bind, hrecords]
    rfl
  | header h =>
    cases ht
    have hd' : d.Carries (.mk Header.tag (h.fields ++ [])) := by
      rw [List.append_nil]
      exact hd
    simp only [readAs, Header.read_of_carries hd' List.not_mem_nil]
    rfl
  | rpcHeader h =>
    cases ht
    simp only [readAs, RpcHeader.read_of_carries hd]
    rfl
  | error e =>
    cases ht
    simp only [readAs, ErrorPayload.read_of_carries hd]
    rfl
  | logRecord r =>
    cases ht
    simp only [readAs, LogRecord.read_of_carries hd]
    rfl
  | reading r =>
    cases ht
    simp only [readAs, Reading.read_of_carries hp hd]
    rfl
  | station s =>
    cases ht
    simp only [readAs, Station.read_of_carries hp.1 hp.2 hd]
    rfl
  | boolean _ | integer _ | double _ | string _ =>
    cases ht
    obtain ⟨-, ⟨hvalue, -⟩, -⟩ := hd
    simp only [readAs]
    rw [hvalue]
    rfl
  | custom r => cases ht

end Payload

/-- The registry knows every type that can be decoded. -/
def TypeRegistry.Complete (types : TypeRegistry) : Prop := ∀ t : PayloadType, types.find t.tag = .ok t

theorem TypeRegistry.complete_full : full.Complete := by
  intro t
  cases t <;> rfl

/-- The registry knows the types of a payload and of the payloads inside. -/
def TypeRegistry.Knows (types : TypeRegistry) (p : Payload) : Prop := ∀ t ∈ p.typesWithin, types.find t.tag = .ok t

theorem TypeRegistry.Knows.of_mem_parts {types : TypeRegistry} {p q : Payload} (h : types.Knows p)
    (hq : q ∈ p.parts) : types.Knows q := by
  cases p with
  | packet header payloads =>
    intro t ht
    exact h t (List.mem_cons_of_mem _ (Payload.mem_typesWithinAll.2 ⟨q, hq, ht⟩))
  | _ => cases hq

namespace Payload

variable {types : TypeRegistry} {p : Payload}

theorem typeTag?_of_carries {t : PayloadType} (ht : p.type? = some t) (hd : d.Carries p.toRecord) :
    d.typeTag? = some t.tag := by
  have htag : p.toRecord.tag = t.tag := tag_of_type? ht
  cases hr : p.toRecord with
  | mk tag fields =>
    rw [hr] at hd htag
    rw [hd.1]
    exact congrArg some htag

/-- A payload whose types the registry knows is read back from a document that carries it, if there is room. -/
private theorem ofDocumentWithin_of_carries (htypes : types.Knows p) {room : Nat} (hp : p.Known)
    (hd : d.Carries p.toRecord) (hroom : p.toRecord.height ≤ room) : ofDocumentWithin types room d = .ok p := by
  induction room generalizing p d with
  | zero =>
    cases hr : p.toRecord with
    | mk tag fields =>
      rw [hr] at hroom
      exact absurd hroom (Nat.not_succ_le_zero _)
  | succ room ih =>
    -- the payloads inside are lower than `p`, so there is room for them
    obtain ⟨t, ht⟩ := hp.exists_type?
    have hread : readAs (ofDocumentWithin types room) d t = .ok p :=
      readAs_of_carries ht hp hd fun q hq child hchild =>
        ih (htypes.of_mem_parts hq) (hp.of_mem_parts hq) hchild (by have := height_lt_of_mem_parts hq; omega)
    simp only [ofDocumentWithin, typeTag?_of_carries ht hd, htypes t (mem_typesWithin ht), bind, Except.bind, hread]

theorem ofDocument_of_knows (htypes : types.Knows p) (hp : p.Known) (hd : d.Carries p.toRecord) :
    ofDocument types d = .ok p :=
  ofDocumentWithin_of_carries htypes hp hd (Nat.le_succ_of_le hd.height_le)

/-- A payload is read back from a document that carries it. -/
theorem ofDocument_of_carries (htypes : types.Complete) (hp : p.Known) (hd : d.Carries p.toRecord) :
    ofDocument types d = .ok p :=
  ofDocument_of_knows (fun t _ => htypes t) hp hd

/-- A payload is read back as its type from a document that carries it. -/
theorem ofDocumentAs_of_carries (htypes : types.Complete) (hp : p.Known) {t : PayloadType} (ht : p.type? = some t)
    (hd : d.Carries p.toRecord) : ofDocumentAs types t d = .ok p := by
  have hread : readAs (ofDocument types) d t = .ok p :=
    readAs_of_carries ht hp hd fun q hq child hchild => ofDocument_of_carries htypes (hp.of_mem_parts hq) hchild
  unfold ofDocumentAs Document.requireTag
  rw [typeTag?_of_carries ht hd]
  simp only [if_true, bind, Except.bind, hread]

end Payload

/-- A message that is read as a document is decoded to the payload that the document carries. -/
theorem Codec.decode_of_carries {c : Codec} {types : TypeRegistry} (htypes : types.Complete) {p : Payload}
    {t : PayloadType} (ht : p.type? = some t) (hp : p.Known) {bytes : Bytes} (hread : c.read bytes = .ok d)
    (hd : d.Carries p.toRecord) : c.decode types bytes = .ok p ∧ c.decodeAs types t bytes = .ok p := by
  constructor
  · rw [decode, hread]
    exact Payload.ofDocument_of_carries htypes hp hd
  · rw [decodeAs, hread]
    exact Payload.ofDocumentAs_of_carries htypes hp ht hd

/-! ### Plain records -/

/-- A record without nested ones has only itself within. -/
private theorem plain_of_withinFields_eq_nil {tag : String} {fields : List (String × Field)}
    (hplain : PlainNames tag (fields.map (·.1))) (hnone : withinFields fields = []) :
    ∀ r ∈ (Record.mk tag fields).within, r.Plain := by
  intro r hr
  rw [Record.within, hnone, List.mem_singleton] at hr
  subst hr
  exact hplain

theorem Header.plain_toRecord (h : Header) : ∀ r ∈ h.toRecord.within, r.Plain := by
  obtain ⟨subject, source, packetId⟩ := h
  cases packetId
  · exact plain_of_withinFields_eq_nil (by decide +kernel : PlainNames "Header" ["subject", "source"]) rfl
  · exact plain_of_withinFields_eq_nil
      (by decide +kernel : PlainNames "Header" ["subject", "source", "packet_id"]) rfl

theorem RpcHeader.plain_toRecord (h : RpcHeader) : ∀ r ∈ h.toRecord.within, r.Plain := by
  obtain ⟨⟨subject, source, packetId⟩, group, client⟩ := h
  cases packetId
  · exact plain_of_withinFields_eq_nil (by decide +kernel : PlainNames "RpcHeader"
      ["subject", "source", "destination_group_id", "destination_client_id"]) rfl
  · exact plain_of_withinFields_eq_nil (by decide +kernel : PlainNames "RpcHeader"
      ["subject", "source", "packet_id", "destination_group_id", "destination_client_id"]) rfl

theorem LogRecord.plain_toRecord (l : LogRecord) : ∀ r ∈ l.toRecord.within, r.Plain :=
  plain_of_withinFields_eq_nil (by decide +kernel : PlainNames "LogRecord"
    ["timestamp_ms", "level", "logger", "message"]) rfl

theorem Reading.plain_toRecord (q : Reading) : ∀ r ∈ q.toRecord.within, r.Plain :=
  plain_of_withinFields_eq_nil (by decide +kernel : PlainNames "Reading" ["sensor", "value"]) rfl

private theorem plain_withinRecords {α : Type} {toRecord : α → Record} {l : List α}
    (h : ∀ a : α, ∀ r ∈ (toRecord a).within, r.Plain) : ∀ r ∈ withinRecords (l.map toRecord), r.Plain := by
  intro r hr
  obtain ⟨q, hq, hr⟩ := mem_withinRecords.1 hr
  obtain ⟨a, -, rfl⟩ := List.mem_map.1 hq
  exact h a r hr

theorem Station.plain_toRecord (s : Station) : ∀ r ∈ s.toRecord.within, r.Plain := by
  obtain ⟨name, active, id, tags, samples, counts, blob, latest, history⟩ := s
  intro r hr
  rcases List.mem_cons.1 hr with rfl | hr
  · cases latest
    · exact (by decide +kernel : PlainNames "Station"
        ["name", "active", "id", "tags", "samples", "counts", "blob", "history"])
    · exact (by decide +kernel : PlainNames "Station"
        ["name", "active", "id", "tags", "samples", "counts", "blob", "latest", "history"])
  · have hnested : (∃ q ∈ latest, r ∈ q.toRecord.within) ∨ r ∈ withinRecords (history.map Reading.toRecord) := by
      cases latest <;> simpa [withinFields, Field.within] using hr
    rcases hnested with ⟨q, -, hr⟩ | hr
    · exact q.plain_toRecord r hr
    · exact plain_withinRecords Reading.plain_toRecord r hr

theorem PacketHeader.plain_toRecord (h : PacketHeader) : ∀ r ∈ h.toRecord.within, r.Plain := by
  cases h with
  | plain h => exact h.plain_toRecord
  | rpc h => exact h.plain_toRecord

mutual
/-- A known payload writes plain records only. -/
theorem Payload.Known.plain_toRecord {p : Payload} (hp : p.Known) : ∀ r ∈ p.toRecord.within, r.Plain := by
  match p with
  | .boolean _ => exact plain_of_withinFields_eq_nil (by decide +kernel : PlainNames "BooleanValue" ["value"]) rfl
  | .integer _ => exact plain_of_withinFields_eq_nil (by decide +kernel : PlainNames "IntegerValue" ["value"]) rfl
  | .double _ => exact plain_of_withinFields_eq_nil (by decide +kernel : PlainNames "DoubleValue" ["value"]) rfl
  | .string _ => exact plain_of_withinFields_eq_nil (by decide +kernel : PlainNames "StringValue" ["value"]) rfl
  | .error _ =>
    exact plain_of_withinFields_eq_nil (by decide +kernel : PlainNames "ErrorPayload" ["code", "message"]) rfl
  | .logRecord l => exact l.plain_toRecord
  | .logBatch records =>
    intro r hr
    rcases List.mem_cons.1 hr with rfl | hr
    · exact (by decide +kernel : PlainNames "LogBatch" ["records"])
    · have hnested : r ∈ withinRecords (records.map LogRecord.toRecord) := by
        simpa [withinFields, Field.within] using hr
      exact plain_withinRecords LogRecord.plain_toRecord r hnested
  | .header h => exact h.plain_toRecord
  | .rpcHeader h => exact h.plain_toRecord
  | .packet h payloads =>
    intro r hr
    rcases List.mem_cons.1 hr with rfl | hr
    · exact (by decide +kernel : PlainNames "Packet" ["header", "payloads"])
    · have hnested : r ∈ h.toRecord.within ∨ r ∈ withinRecords (Payload.toRecords payloads) := by
        simpa [withinFields, Field.within] using hr
      rcases hnested with hr | hr
      · exact h.plain_toRecord r hr
      · exact KnownAll.plain_toRecords hp r hr
  | .reading q => exact q.plain_toRecord
  | .station s => exact s.plain_toRecord
  | .custom _ => exact hp.elim

theorem KnownAll.plain_toRecords {payloads : List Payload} (h : KnownAll payloads) :
    ∀ r ∈ withinRecords (Payload.toRecords payloads), r.Plain := by
  match payloads with
  | [] => exact fun r hr => absurd hr List.not_mem_nil
  | p :: ps =>
    intro r hr
    rcases List.mem_append.1 hr with hr | hr
    · exact Payload.Known.plain_toRecord h.1 r hr
    · exact KnownAll.plain_toRecords h.2 r hr
end

end Switchboard
