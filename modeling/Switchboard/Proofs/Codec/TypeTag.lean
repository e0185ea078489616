import Switchboard.Proofs.Codec.FieldStore
import Switchboard.Proofs.Payload

/-!
# Type tags and fields of their name

In MessagePack the type tag of a record stands apart from its fields. In JSON it is one of the members, and a field of
that name takes its place (`Codec.tagOf`). A record without such a field has its own tag in either format.

An object is decoded as the type that the tag names which is read, and as no other (`Codec.resolved_by_tag`). So a
record with a field of that name is decoded as its own type from MessagePack, and from JSON as whatever type the field
says (`Codec.forged_tag`).
-/

namespace Switchboard

/-! ### Types -/

namespace Payload

variable {types : TypeRegistry} {d : Document} {t : PayloadType} {p : Payload}

/-- Whatever is read as a type is of that type. -/
theorem type?_of_readAs {inner : Document → Except CodecError Payload} (h : readAs inner d t = .ok p) :
    p.type? = some t := by
  have hmap : ∀ {α : Type} {make : α → Payload} {x : Except CodecError α}, make <$> x = .ok p → ∃ a, p = make a := by
    intro α make x hx
    cases x with
    | error e => cases hx
    | ok a => exact ⟨a, (Except.ok.inj hx).symm⟩
  have hbind : ∀ {α : Type} {x : Except CodecError α} {next : α → Except CodecError Payload},
      x >>= next = .ok p → ∃ a, next a = .ok p := by
    intro α x next hx
    cases x with
    | error e => cases hx
    | ok a => exact ⟨a, hx⟩
  cases t with
  | packet =>
    obtain ⟨header, h⟩ := hbind h
    obtain ⟨rpcHeader, h⟩ := hbind h
    obtain ⟨documents, h⟩ := hbind h
    obtain ⟨payloads, h⟩ := hbind h
    cases h
    rfl
  | logBatch =>
    obtain ⟨documents, h⟩ := hbind h
    obtain ⟨records, h⟩ := hbind h
    cases h
    rfl
  | _ =>
    obtain ⟨a, rfl⟩ := hmap h
    rfl

/-- Whatever is read by its tag is of the type that is known under the tag. -/
theorem exists_find_of_ofDocument (h : ofDocument types d = .ok p) :
    ∃ tag t, d.typeTag? = some tag ∧ types.find tag = .ok t ∧ p.type? = some t := by
  rw [ofDocument, ofDocumentWithin] at h
  split at h
  · cases h
  · rename_i tag htag
    cases hfind : types.find tag with
    | error e =>
      rw [hfind] at h
      cases h
    | ok t =>
      rw [hfind] at h
      exact ⟨tag, t, htag, hfind, type?_of_readAs h⟩

end Payload

/-! ### Tags -/

namespace Codec

variable {c : Codec} {r : Record}

/-- In every object that is read back, the tag is the one of its record, unless in JSON a field of the record has the
name of the tag: then the tag is what this field says. The tag decides of what type the object is when it is
decoded. -/
theorem resolved_by_tag (htags : ∀ q ∈ r.within, q.tag ≠ "") (hkeeps : c.Keeps r) :
    ∃ bytes d, c.write r = .ok bytes ∧ c.read bytes = .ok d ∧ ∀ d' q, d.Finds r d' q →
      d'.typeTag? = c.tagOf q ∧ (c = messagePack ∨ Json.tagName ∉ q.names → c.tagOf q = some q.tag) ∧
        ∀ types p, Payload.ofDocument types d' = .ok p →
          ∃ tag t, c.tagOf q = some tag ∧ types.find tag = .ok t ∧ p.type? = some t := by
  obtain ⟨bytes, hwrite, hread⟩ := hkeeps.read_write
  refine ⟨bytes, _, hwrite, hread, fun d' q hfinds => ?_⟩
  obtain ⟨rfl, hq⟩ := eq_documentOf_of_finds hfinds rfl
  have htag := typeTag?_documentOf (c := c) (htags q hq)
  refine ⟨htag, tagOf_eq_tag, fun types p hp => ?_⟩
  rw [← htag]
  exact Payload.exists_find_of_ofDocument hp

/-- A gauge that says of itself, and of one of its valves, that it is something else. -/
private def forged : Record :=
  .mk "Gauge" [("@type", .str "BooleanValue"), ("value", .bool true),
    ("parts", .objectList [.mk "Valve" [("@type", .int 1)], .mk "Valve" []])]

private theorem keeps_forged (c : Codec) : c.Keeps forged := by
  have hlengths : ∀ q ∈ forged.canonical.within, MessagePack.FitsRecord q := by decide +kernel
  refine ⟨by cases c <;> decide +kernel, fun _ x hx => ?_, fun _ => hlengths⟩
  cases hx

private theorem tags_forged : ∀ q ∈ forged.within, q.tag ≠ "" := by decide +kernel

theorem resolved_by_tag_forged :
    (∃ bytes d, json.write forged = .ok bytes ∧ json.read bytes = .ok d ∧ d.typeTag? = some "BooleanValue") ∧
      ∃ bytes d, messagePack.write forged = .ok bytes ∧ messagePack.read bytes = .ok d ∧
        d.typeTag? = some "Gauge" := by
  obtain ⟨text, d, hwrite, hread, hd⟩ := resolved_by_tag tags_forged (keeps_forged json)
  obtain ⟨bytes, d', hwrite', hread', hd'⟩ := resolved_by_tag tags_forged (keeps_forged messagePack)
  exact ⟨⟨text, d, hwrite, hread, (hd d forged (.here d forged)).1⟩,
    ⟨bytes, d', hwrite', hread', (hd' d' forged (.here d' forged)).1⟩⟩

/-- A record can say in JSON that it is of another type, and is decoded as this type; from MessagePack it is not. -/
theorem forged_tag :
    ∃ text d, json.write forged = .ok text ∧ json.read text = .ok d ∧ d.typeTag? ≠ some forged.tag ∧
      json.decode .standard text = .ok (.boolean true) ∧
      messagePack.decode .standard (MessagePack.encode forged) = .error (.unknownType forged.tag) := by
  obtain ⟨text, hwrite, hread⟩ := (keeps_forged json).read_write
  obtain ⟨bytes, hpack, hunpack⟩ := (keeps_forged messagePack).read_write
  cases hpack
  refine ⟨text, _, hwrite, hread, ?_, ?_, ?_⟩
  · decide +kernel
  · rw [decode, hread]
    rfl
  · rw [decode, hunpack]
    rfl

end Codec

end Switchboard
