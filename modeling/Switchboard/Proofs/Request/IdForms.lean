import Switchboard.Proofs.Delivery.Publishing

/-!
# Forms of ids

A UUID may be written in four forms, and an id read from a text keeps the form (`CorrelationId.parse?_eq_some_iff`).
Bare and hyphenated ids may stand in a topic. Braces and the colons of a URN may not, so the topic on which the
replies to a request come in is refused if the id of the request is written in one of these two forms
(`CorrelationId.form_decides_segment`).
-/

namespace Switchboard

/-! ### Letters of either case -/

theorem toLower_cases (c : Char) :
    c.toLower = c ∨ (65 ≤ c.toNat ∧ c.toNat ≤ 90) ∧ c.toLower.toNat = c.toNat + 32 := by
  unfold Char.toLower
  split
  · rename_i h
    have hrange : 65 ≤ c.toNat ∧ c.toNat ≤ 90 := by
      simp only [UInt32.le_iff_toNat_le, ge_iff_le] at h
      exact h
    have hsum : (c.val + 32).toNat = c.toNat + 32 := by
      rw [UInt32.toNat_add]
      change (c.toNat + 32) % 4294967296 = _
      omega
    exact .inr ⟨hrange, hsum⟩
  · exact .inl rfl

theorem toLower_eq_colon {c : Char} (h : c.toLower = ':') : c = ':' := by
  rcases toLower_cases c with hsame | ⟨hrange, hlower⟩
  · rw [← hsame, h]
  · rw [h] at hlower
    change 58 = c.toNat + 32 at hlower
    omega

theorem toNat_lt_of_toLower {c : Char} (h : c.toLower.toNat < 128) : c.toNat < 128 := by
  rcases toLower_cases c with hsame | ⟨hrange, -⟩
  · rwa [hsame] at h
  · omega

/-- A letter may stand in a segment if the same letter in lower case may. -/
theorem Segment.allows_toLower (c : Char) : allows c.toLower = allows c := by
  rcases toLower_cases c with hsame | ⟨hrange, hlower⟩
  · rw [hsame]
  · rw [allows_of_ascii (.inl hrange), allows_of_ascii (.inr (.inl (by omega)))]

/-! ### Forms -/

namespace CorrelationId

/-- The forms in which a UUID is written. -/
inductive Form
  | bare
  | hyphenated
  | braced
  | urn

namespace Form

/-- The texts that a form allows. -/
def Writes : Form → List Char → Prop
  | bare, cs => isBare cs = true
  | hyphenated, cs => isHyphenated cs = true
  | braced, cs => ∃ inner, isHyphenated inner = true ∧ cs = '\x7b' :: (inner ++ ['\x7d'])
  | urn, cs => ∃ head inner, head.map Char.toLower = urnHead ∧ isHyphenated inner = true ∧ cs = head ++ inner

/-- The first character of a text of the form that may not stand in a segment. -/
def mark? : Form → Option Char
  | bare | hyphenated => none
  | braced => some '\x7b'
  | urn => some ':'

/-- The number of characters of a text of the form. -/
def length : Form → Nat
  | bare => 32
  | hyphenated => 36
  | braced => 38
  | urn => 45

/-- What the check of segments says to a text of the form. -/
def verdict (form : Form) (text : String) : Except ValidationError Unit :=
  form.mark?.elim (.ok ()) fun c => .error (.invalidSegment text (.forbidden c))

end Form

theorem braced_iff {cs : List Char} :
    ((cs.head? == some '\x7b' && cs.getLast? == some '\x7d' && isHyphenated (cs.drop 1).dropLast) = true) ↔
      Form.braced.Writes cs := by
  simp only [Bool.and_eq_true, beq_iff_eq]
  constructor
  · rintro ⟨⟨hhead, hlast⟩, hinner⟩
    obtain ⟨rest, rfl⟩ := List.head?_eq_some_iff.1 hhead
    obtain ⟨front, hfront⟩ := List.getLast?_eq_some_iff.1 hlast
    cases front with
    | nil => cases hfront
    | cons c inner =>
      rw [List.cons_append, List.cons.injEq] at hfront
      obtain ⟨rfl, rfl⟩ := hfront
      rw [List.drop_one, List.tail_cons, List.dropLast_concat] at hinner
      exact ⟨inner, hinner, rfl⟩
  · rintro ⟨inner, hinner, rfl⟩
    refine ⟨⟨rfl, List.getLast?_eq_some_iff.2 ⟨'\x7b' :: inner, rfl⟩⟩, ?_⟩
    rwa [List.drop_one, List.tail_cons, List.dropLast_concat]

theorem length_of_urnHead {head : List Char} (h : head.map Char.toLower = urnHead) :
    head.length = urnHead.length := by
  rw [← h, List.length_map]

theorem urn_iff {cs : List Char} :
    (startsAsUrn cs && isHyphenated (cs.drop urnHead.length)) = true ↔ Form.urn.Writes cs := by
  rw [startsAsUrn, Bool.and_eq_true, beq_iff_eq]
  constructor
  · rintro ⟨hhead, hinner⟩
    exact ⟨_, _, hhead, hinner, (List.take_append_drop _ cs).symm⟩
  · rintro ⟨head, inner, hhead, hinner, rfl⟩
    have hlength := length_of_urnHead hhead
    rw [List.take_left' hlength, List.drop_left' hlength]
    exact ⟨hhead, hinner⟩

/-- A text is a UUID if it is written in one of the forms. -/
theorem isUuid_iff {cs : List Char} : isUuid cs = true ↔ ∃ form : Form, form.Writes cs := by
  rw [isUuid, Bool.or_eq_true, Bool.or_eq_true, Bool.or_eq_true, braced_iff, urn_iff]
  constructor
  · rintro (((h | h) | h) | h)
    · exact ⟨.bare, h⟩
    · exact ⟨.hyphenated, h⟩
    · exact ⟨.braced, h⟩
    · exact ⟨.urn, h⟩
  · rintro ⟨form, h⟩
    cases form with
    | bare => exact .inl (.inl (.inl h))
    | hyphenated => exact .inl (.inl (.inr h))
    | braced => exact .inl (.inr h)
    | urn => exact .inr h

/-- The id of a text keeps its form. -/
theorem parse?_eq_some_iff {text : String} {id : CorrelationId} :
    parse? text = some id ↔ id = ⟨text⟩ ∧ ∃ form : Form, form.Writes text.toList := by
  rw [parse?, Option.ite_none_right_eq_some, isUuid_iff, Option.some.injEq, and_comm, eq_comm]

/-! ### Forms and segments -/

theorem allows_of_isBare {cs : List Char} (h : isBare cs = true) :
    ∀ c ∈ cs, c.toNat < 128 ∧ Segment.allows c = true := by
  simp only [isBare, Bool.and_eq_true, List.all_eq_true] at h
  exact fun c hc => allows_of_isHexDigit_or_hyphen (.inl (h.2 c hc))

theorem ascii_of_urnHead {head : List Char} (h : head.map Char.toLower = urnHead) : ∀ c ∈ head, c.toNat < 128 := by
  intro c hc
  have hlower : c.toLower ∈ urnHead := by
    rw [← h]
    exact List.mem_map_of_mem hc
  have hurn : (urnHead.all fun d => d.toNat < 128) = true := rfl
  exact toNat_lt_of_toLower (of_decide_eq_true (List.all_eq_true.1 hurn _ hlower))

/-- The head of a URN holds a colon behind letters. -/
theorem find?_of_urnHead {head : List Char} (h : head.map Char.toLower = urnHead) :
    head.find? (!Segment.allows ·) = some ':' := by
  have hlower : (head.map Char.toLower).find? (!Segment.allows ·) = some ':' := by
    rw [h]
    decide
  rw [List.find?_map] at hlower
  obtain ⟨c, hc, hcolon⟩ := Option.map_eq_some_iff.1 hlower
  have hsame : ((!Segment.allows ·) ∘ Char.toLower) = (!Segment.allows ·) := by
    funext d
    rw [Function.comp_apply, Segment.allows_toLower]
  rw [hsame] at hc
  rw [hc, toLower_eq_colon hcolon]

namespace Form

variable {form : Form} {cs : List Char}

theorem Writes.length_eq (h : form.Writes cs) : cs.length = form.length := by
  cases form with
  | bare =>
    simp only [Writes, isBare, Bool.and_eq_true, beq_iff_eq] at h
    exact h.1
  | hyphenated => exact length_of_isHyphenated h
  | braced =>
    obtain ⟨inner, hinner, rfl⟩ := h
    rw [List.length_cons, List.length_append, length_of_isHyphenated hinner]
    rfl
  | urn =>
    obtain ⟨head, inner, hhead, hinner, rfl⟩ := h
    rw [List.length_append, length_of_urnHead hhead, length_of_isHyphenated hinner]
    rfl

theorem Writes.ascii (h : form.Writes cs) : ∀ c ∈ cs, c.toNat < 128 := by
  cases form with
  | bare => exact fun c hc => (allows_of_isBare h c hc).1
  | hyphenated => exact fun c hc => (allows_of_isHyphenated h c hc).1
  | braced =>
    obtain ⟨inner, hinner, rfl⟩ := h
    rw [List.forall_mem_cons, List.forall_mem_append, List.forall_mem_singleton]
    exact ⟨by decide, fun c hc => (allows_of_isHyphenated hinner c hc).1, by decide⟩
  | urn =>
    obtain ⟨head, inner, hhead, hinner, rfl⟩ := h
    exact List.forall_mem_append.2 ⟨ascii_of_urnHead hhead, fun c hc => (allows_of_isHyphenated hinner c hc).1⟩

theorem Writes.find?_eq (h : form.Writes cs) : cs.find? (!Segment.allows ·) = form.mark? := by
  cases form with
  | bare => exact List.find?_eq_none.2 fun c hc => by simp [(allows_of_isBare h c hc).2]
  | hyphenated => exact List.find?_eq_none.2 fun c hc => by simp [(allows_of_isHyphenated h c hc).2]
  | braced =>
    obtain ⟨inner, -, rfl⟩ := h
    exact List.find?_cons_of_pos (by decide)
  | urn =>
    obtain ⟨head, inner, hhead, -, rfl⟩ := h
    rw [List.find?_append, find?_of_urnHead hhead]
    rfl

end Form

/-- The form decides what the check of segments says. -/
theorem validate_of_writes {form : Form} {s : String} (h : form.Writes s.toList) (position : Nat) :
    Segment.validate s position = form.verdict s := by
  have hsize : s.utf8ByteSize = form.length := by rw [utf8ByteSize_of_ascii h.ascii, h.length_eq]
  have hempty : s ≠ "" := by
    rintro rfl
    cases form <;> cases hsize
  have hbound : s.utf8ByteSize ≤ maxSegmentBytes := by
    rw [hsize]
    cases form <;> decide
  rw [Segment.validate_of_size hempty hbound, h.find?_eq, Form.verdict]

/-- The check of a topic on which replies come in comes down to that of the id. -/
theorem approve_replyTopic {source : Identity} (hsource : source.Valid) (subject : Subject) (d : Destination)
    {form : Form} {s : String} (h : form.Writes s.toList) (packet : Packet) :
    EncoderPool.approve (RpcHeader.of subject source d ⟨s⟩).replyTopic (some packet) =
      (form.verdict s).bind fun _ => packet.validate.map fun _ => packet := by
  have htopic : Segment.validateAll (RpcHeader.of subject source d ⟨s⟩).replyTopic = form.verdict s := by
    rw [RpcHeader.replyTopic_of, Segment.validateAll, Segment.validateFrom_append hsource, Segment.validateFrom,
      (Segment.validate_eq_ok_iff _ _).2 Segment.valid_reply, Segment.validateFrom, validate_of_writes h]
    cases form.verdict s <;> rfl
  have hne : (RpcHeader.of subject source d ⟨s⟩).replyTopic ≠ [] := by simp [RpcHeader.replyTopic_of]
  rw [EncoderPool.approve_eq_bind hne, htopic]

/-- The texts that are read as ids are those of the four forms, and the id is the text. Whether the id may stand in a
topic depends on the form alone: a bare or a hyphenated id may, one in braces or of a URN is refused for the brace or
the colon. So is what is published on the topic on which the replies to a request with this id come in, whoever asks
about whatever. -/
theorem form_decides_segment (text : String) {source : Identity} (hsource : source.Valid) :
    (∀ id, parse? text = some id ↔ id = ⟨text⟩ ∧ ∃ form : Form, form.Writes text.toList) ∧
      ∀ form : Form, form.Writes text.toList →
        (∀ position, Segment.validate text position = form.verdict text) ∧
          ∀ subject d packet, EncoderPool.approve (RpcHeader.of subject source d ⟨text⟩).replyTopic (some packet) =
            (form.verdict text).bind fun _ => packet.validate.map fun _ => packet :=
  ⟨fun _ => parse?_eq_some_iff, fun _ h =>
    ⟨validate_of_writes h, fun subject d packet => approve_replyTopic hsource subject d h packet⟩⟩

private def lighthouse : Identity := ⟨["coast"], "watch", "north", "lighthouse"⟩

private def flash (id : String) : RpcHeader := .of ⟨["flash"]⟩ lighthouse .all ⟨id⟩

private def flashed : Packet := ⟨.plain ⟨["flash"], ["coast", "watch"], none⟩, [.integer 3]⟩

private def bareId : String := "0190B5A47C1E70008000000000000021"

private def bracedId : String := "\x7b0190b5a4-7c1e-7000-8000-000000000021\x7d"

private def urnId : String := "urn:uuid:0190b5a4-7c1e-7000-8000-000000000021"

/-- A bare id in capitals may stand in the topic of a reply. -/
theorem form_decides_segment_bare :
    parse? bareId = some ⟨bareId⟩ ∧ Segment.validate bareId 4 = .ok () ∧
      EncoderPool.approve (flash bareId).replyTopic (some flashed) = .ok flashed := by
  have hvalid : lighthouse.Valid := (Segment.validateAll_eq_ok_iff lighthouse.address).1 rfl
  have hbare : isBare bareId.toList = true := by decide
  obtain ⟨hparse, hform⟩ := form_decides_segment bareId hvalid
  obtain ⟨hsegment, htopic⟩ := hform .bare hbare
  exact ⟨(hparse _).2 ⟨rfl, .bare, hbare⟩, hsegment 4, htopic _ _ flashed⟩

/-- An id in braces is read from a text, but may not stand in a topic, and nothing can be published where the replies
to a request with it would come in. Nor can it where they would for the id of a URN. -/
theorem braced_id_refused :
    (parse? bracedId = some ⟨bracedId⟩ ∧
        Segment.validate bracedId 0 = .error (.invalidSegment bracedId (.forbidden '\x7b')) ∧
        EncoderPool.approve (flash bracedId).replyTopic (some flashed) =
          .error (.invalidSegment bracedId (.forbidden '\x7b'))) ∧
      parse? urnId = some ⟨urnId⟩ ∧
      Segment.validate urnId 0 = .error (.invalidSegment urnId (.forbidden ':')) ∧
      EncoderPool.approve (flash urnId).replyTopic (some flashed) =
        .error (.invalidSegment urnId (.forbidden ':')) :=
  ⟨⟨by decide, rfl, rfl⟩, by decide, rfl, rfl⟩

end CorrelationId

end Switchboard
