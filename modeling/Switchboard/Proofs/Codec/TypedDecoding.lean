import Switchboard.Proofs.Codec.TypeTag
import Switchboard.Proofs.Table

/-!
# Decoding as an expected type, and by the tag

A message is decoded as one type, which its tag must name, or as whatever type the registry holds under its tag. The
first way checks the tag and the second looks it up; after that both read the same fields.

They do not give the payloads of a packet the same room, though: a packet that is read by its tag hands its own room
on. Whoever reads the fields of a document asks for lower documents only (`Payload.readAs_congr`), so the room does
not matter as long as there is enough (`Payload.ofDocumentWithin_eq`), and reading by the tag is a recursion without
any room (`Payload.ofDocument_eq`). From this the two ways agree on every message (`Codec.decodeAs_agrees`).
-/

namespace Switchboard

/-! ### Registries -/

/-- Registering types keeps a registry one that holds types under their own tags only. -/
theorem TypeRegistry.tag_of_mem_registerAll {types : TypeRegistry} (h : ∀ e ∈ types, e.2.tag = e.1)
    (ts : List PayloadType) : ∀ e ∈ types.registerAll ts, e.2.tag = e.1 := by
  induction ts generalizing types with
  | nil => exact h
  | cons t ts ih =>
    refine ih fun e he => ?_
    rcases Table.mem_put he with rfl | he
    · rfl
    · exact h e he

theorem TypeRegistry.tag_of_find {ts : List PayloadType} {tag : String} {t : PayloadType}
    (h : (registerAll .empty ts).find tag = .ok t) : t.tag = tag := by
  rw [find] at h
  split at h
  · rename_i t' ht'
    cases h
    have hempty : ∀ e ∈ TypeRegistry.empty, e.2.tag = e.1 := fun e he => absurd he List.not_mem_nil
    exact tag_of_mem_registerAll hempty ts _ (Table.mem_of_get? ht')
  · cases h

namespace Payload

variable {types : TypeRegistry} {d : Document} {t : PayloadType}

/-! ### Room -/

/-- Readers that agree on the documents below one read the same from its fields. -/
theorem readAs_congr {inner inner' : Document → Except CodecError Payload}
    (h : ∀ child : Document, child.height < d.height → inner child = inner' child) (t : PayloadType) :
    readAs inner d t = readAs inner' d t := by
  cases t with
  | packet =>
    simp only [readAs]
    cases hchildren : d.getObjects "payloads" with
    | error e => rfl
    | ok children =>
      have hmap : children.mapM inner = children.mapM inner' :=
        mapM_congr fun child hchild => h child (Document.getObjects_height hchildren hchild)
      simp only [bind, Except.bind, hmap]
  | _ => rfl

/-- With room for its height, a document is read alike whatever the room is. -/
theorem ofDocumentWithin_eq {room : Nat} (h : d.height < room) :
    ofDocumentWithin types room d = ofDocument types d := by
  suffices hrooms : ∀ room room' (d : Document), d.height < room → d.height < room' →
      ofDocumentWithin types room d = ofDocumentWithin types room' d from hrooms _ _ d h (Nat.lt_succ_self _)
  intro room
  induction room with
  | zero => exact fun _ d h => absurd h (Nat.not_lt_zero _)
  | succ room ih =>
    rintro (_ | room') d h h'
    · exact absurd h' (Nat.not_lt_zero _)
    · have hinner : readAs (ofDocumentWithin types room) d = readAs (ofDocumentWithin types room') d :=
        funext (readAs_congr fun child hchild => ih room' child (by omega) (by omega))
      simp only [ofDocumentWithin, hinner]

/-- A document is read as the type of its tag, and so are the payloads of a packet. -/
theorem ofDocument_eq (types : TypeRegistry) (d : Document) : ofDocument types d =
    match d.typeTag? with
    | none => .error .missingTypeTag
    | some tag => types.find tag >>= readAs (ofDocument types) d := by
  have hinner : readAs (ofDocumentWithin types d.height) d = readAs (ofDocument types) d :=
    funext (readAs_congr fun child hchild => ofDocumentWithin_eq hchild)
  have hwithin : ofDocument types d =
      match d.typeTag? with
      | none => .error .missingTypeTag
      | some tag => types.find tag >>= readAs (ofDocumentWithin types d.height) d := rfl
  rw [hwithin, hinner]

/-! ### The two ways -/

/-- A document with the tag of a known type is read alike in both ways. -/
theorem ofDocumentAs_eq_ofDocument (ht : types.find t.tag = .ok t) (htag : d.typeTag? = some t.tag) :
    ofDocumentAs types t d = ofDocument types d := by
  simp only [ofDocumentAs, Document.requireTag, ofDocument_eq types d, htag, ht, if_true, bind, Except.bind]

/-- What is read as a type has the tag of that type, and is of that type. -/
theorem typeTag?_of_ofDocumentAs {p : Payload} (h : ofDocumentAs types t d = .ok p) :
    d.typeTag? = some t.tag ∧ p.type? = some t := by
  rw [ofDocumentAs, Document.requireTag] at h
  split at h
  · rename_i found hfound
    by_cases heq : found = t.tag
    · rw [if_pos heq] at h
      exact ⟨heq ▸ hfound, type?_of_readAs h⟩
    · rw [if_neg heq] at h
      cases h
  · cases h

end Payload

/-! ### Messages -/

namespace Codec

/-- Decoding as one type, with the reading of the fields left open. -/
def decodeAsBy (c : Codec) (fields : Document → PayloadType → Except CodecError Payload) (t : PayloadType)
    (bytes : Bytes) : Except CodecError Payload := do
  let d ← c.read bytes
  d.requireTag t.tag
  fields d t

theorem decodeAs_eq_decodeAsBy (c : Codec) (types : TypeRegistry) (t : PayloadType) (bytes : Bytes) :
    c.decodeAs types t bytes = c.decodeAsBy (Payload.readAs (Payload.ofDocument types)) t bytes := rfl

variable {c : Codec} {t : PayloadType} {bytes : Bytes} {d : Document}

/-- With another tag the fields are not looked at, however they would be read. -/
theorem decodeAsBy_of_ne (hread : c.read bytes = .ok d) {tag : String} (htag : d.typeTag? = some tag)
    (hne : tag ≠ t.tag) (fields : Document → PayloadType → Except CodecError Payload) :
    c.decodeAsBy fields t bytes = .error (.typeMismatch t.tag tag) := by
  simp only [decodeAsBy, hread, Document.requireTag, htag, if_neg hne, bind, Except.bind]

/-- A message is decoded as a known type if and only if it is decoded by its tag to a value of that type. If it cannot
be read, both ways fail alike. If its tag is that of the type, both give the same value or the same error; if it has
another, the first way says so and looks at no field; if it has none, both say so. -/
theorem decodeAs_agrees {ts : List PayloadType} (ht : (TypeRegistry.registerAll .empty ts).find t.tag = .ok t)
    (c : Codec) (bytes : Bytes) :
    (∀ p, c.decodeAs (.registerAll .empty ts) t bytes = .ok p ↔
      c.decode (.registerAll .empty ts) bytes = .ok p ∧ p.type? = some t) ∧
    (∀ e, c.read bytes = .error e →
      c.decodeAs (.registerAll .empty ts) t bytes = .error e ∧ c.decode (.registerAll .empty ts) bytes = .error e) ∧
    ∀ d, c.read bytes = .ok d →
      (d.typeTag? = some t.tag →
        c.decodeAs (.registerAll .empty ts) t bytes = c.decode (.registerAll .empty ts) bytes) ∧
      (∀ tag, d.typeTag? = some tag → tag ≠ t.tag →
        c.decodeAs (.registerAll .empty ts) t bytes = .error (.typeMismatch t.tag tag) ∧
        ∀ fields, c.decodeAsBy fields t bytes = .error (.typeMismatch t.tag tag)) ∧
      (d.typeTag? = none →
        c.decodeAs (.registerAll .empty ts) t bytes = .error .missingTypeTag ∧
        c.decode (.registerAll .empty ts) bytes = .error .missingTypeTag) := by
  generalize htypes : TypeRegistry.registerAll .empty ts = types at ht ⊢
  have hdecode : ∀ d, c.read bytes = .ok d → c.decode types bytes = Payload.ofDocument types d := fun d hread => by
    rw [decode, hread]
    rfl
  have hdecodeAs : ∀ d, c.read bytes = .ok d → c.decodeAs types t bytes = Payload.ofDocumentAs types t d :=
    fun d hread => by
      rw [decodeAs, hread]
      rfl
  have hfail : ∀ e, c.read bytes = .error e →
      c.decodeAs types t bytes = .error e ∧ c.decode types bytes = .error e := fun e hread => by
    rw [decodeAs, decode, hread]
    exact ⟨rfl, rfl⟩
  refine ⟨fun p => ?_, hfail, fun d hread => ⟨fun htag => ?_, fun tag htag hne => ?_, fun hnone => ?_⟩⟩
  · cases hread : c.read bytes with
    | error e => simp [hfail e hread]
    | ok d =>
      rw [hdecode d hread, hdecodeAs d hread]
      constructor
      · intro h
        obtain ⟨htag, htype⟩ := Payload.typeTag?_of_ofDocumentAs h
        exact ⟨Payload.ofDocumentAs_eq_ofDocument ht htag ▸ h, htype⟩
      · rintro ⟨h, htype⟩
        -- the type was found under the tag of the document, and it is registered under no tag but its own
        obtain ⟨tag, t', htag, hfind, htype'⟩ := Payload.exists_find_of_ofDocument h
        obtain rfl : t = t' := Option.some.inj (htype.symm.trans htype')
        obtain rfl : t.tag = tag := TypeRegistry.tag_of_find (htypes ▸ hfind)
        rw [Payload.ofDocumentAs_eq_ofDocument ht htag, h]
  · rw [hdecode d hread, hdecodeAs d hread, Payload.ofDocumentAs_eq_ofDocument ht htag]
  · have hby := decodeAsBy_of_ne hread htag hne
    exact ⟨(decodeAs_eq_decodeAsBy c types t bytes).trans (hby _), hby⟩
  · rw [hdecode d hread, hdecodeAs d hread, Payload.ofDocument_eq, Payload.ofDocumentAs, Document.requireTag, hnone]
    exact ⟨rfl, rfl⟩

/-- A packet with a payload of the protocol, and one of a type that the protocol does not know. -/
private def crate : Record :=
  .mk "Packet" [("header", .object (.mk "Header" [("subject", .strList ["level"]), ("source", .strList ["tank"])])),
    ("payloads", .objectList [.mk "BooleanValue" [("value", .bool true)], .mk "Gauge" []])]

private theorem read_crate : messagePack.read (MessagePack.encode crate) = .ok (.messagePack crate.canonical) := by
  have hlengths : ∀ q ∈ crate.canonical.within, MessagePack.FitsRecord q := by decide +kernel
  have hkeeps : messagePack.Keeps crate := ⟨by decide +kernel, nofun, fun _ => hlengths⟩
  obtain ⟨bytes, hwrite, hread⟩ := hkeeps.read_write
  cases hwrite
  exact hread

theorem decodeAs_agrees_crate :
    messagePack.decodeAs .standard .packet (MessagePack.encode crate) = .error (.unknownType "Gauge") ∧
      messagePack.decode .standard (MessagePack.encode crate) = .error (.unknownType "Gauge") ∧
      messagePack.decodeAs .standard .header (MessagePack.encode crate) =
        .error (.typeMismatch "Header" "Packet") := by
  have hdecode : messagePack.decode .standard (MessagePack.encode crate) = .error (.unknownType "Gauge") := by
    rw [decode, read_crate]
    rfl
  have hpacket :
      (TypeRegistry.registerAll .empty PayloadType.standard).find PayloadType.packet.tag = .ok .packet := by
    decide +kernel
  have hheader :
      (TypeRegistry.registerAll .empty PayloadType.standard).find PayloadType.header.tag = .ok .header := by
    decide +kernel
  obtain ⟨-, -, hsame⟩ := decodeAs_agrees hpacket messagePack (MessagePack.encode crate)
  obtain ⟨-, -, hother⟩ := decodeAs_agrees hheader messagePack (MessagePack.encode crate)
  have htag : (Document.messagePack crate.canonical).typeTag? = some "Packet" := by decide +kernel
  have hagree : messagePack.decodeAs .standard .packet (MessagePack.encode crate) =
      messagePack.decode .standard (MessagePack.encode crate) := (hsame _ read_crate).1 htag
  obtain ⟨hmismatch, -⟩ := (hother _ read_crate).2.1 "Packet" htag (by decide +kernel)
  exact ⟨hagree.trans hdecode, hdecode, hmismatch⟩

end Codec

end Switchboard
