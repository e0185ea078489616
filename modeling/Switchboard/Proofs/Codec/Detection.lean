import Switchboard.Proofs.Codec.Pool
import Switchboard.Proofs.Json.Text

/-!
# Detection of codecs

The codec of a message is guessed from one byte, the first that is no blank. The guess is exact (`detect_exact`):
whatever either codec reads as a message speaks for that codec, so no message is read by both, and a pool that
decodes with the codec it detects misses nothing.

* (JSON) an object is spelled by tokens that start with an opening brace, such tokens by a text that has the brace
  behind its blanks, and such a text by bytes with the same beginning;
* (MessagePack) the first byte of a record announces a map or an array, and is above all blanks and the brace.
-/

namespace Switchboard

/-! ### The first token of an object -/

namespace Json

namespace Reader

/-- The outermost of the open arrays and objects is an array. -/
def InArray (stack : List Frame) : Prop := ∃ items, stack.getLast? = some (.items items)

theorem inArray_cons {stack : List Frame} (h : InArray stack) (frame : Frame) : InArray (frame :: stack) := by
  cases stack with
  | nil =>
    obtain ⟨items, hitems⟩ := h
    cases hitems
  | cons g stack =>
    obtain ⟨items, hitems⟩ := h
    exact ⟨items, by rw [List.getLast?_cons_cons, hitems]⟩

theorem inArray_of_cons {frame g : Frame} {stack : List Frame} (h : InArray (frame :: g :: stack)) :
    InArray (g :: stack) := by
  obtain ⟨items, hitems⟩ := h
  rw [List.getLast?_cons_cons] at hitems
  exact ⟨items, hitems⟩

/-- The innermost array or object may be replaced by one of its kind. -/
theorem InArray.items {read read' : List Json} {stack : List Frame} (h : InArray (.items read :: stack)) :
    InArray (.items read' :: stack) := by
  cases stack with
  | nil => exact ⟨read', rfl⟩
  | cons g stack => exact inArray_cons (inArray_of_cons h) _

theorem InArray.members {read read' : Table Json} {name name' : String} {stack : List Frame}
    (h : InArray (.members read name :: stack)) : InArray (.members read' name' :: stack) := by
  cases stack with
  | nil =>
    obtain ⟨items, hitems⟩ := h
    cases hitems
  | cons g stack => exact inArray_cons (inArray_of_cons h) _

/-- The reader has finished an array, or is in the middle of one. -/
def OfArray (r : Reader) : Prop :=
  (∃ items, r.mode = .done (.arr items)) ∨ ((∀ v, r.mode ≠ .done v) ∧ InArray r.stack)

theorem ofArray_finish {stack : List Frame} (h : InArray stack) (v : Json) : OfArray (finish v stack) := by
  match stack, h with
  | [], h =>
    obtain ⟨items, hitems⟩ := h
    cases hitems
  | .items read :: stack, h => exact .inr ⟨nofun, h.items⟩
  | .members read name :: stack, h => exact .inr ⟨nofun, h.members⟩

theorem ofArray_value? {stack : List Frame} (h : InArray stack) {t : Token} {r' : Reader}
    (hstep : value? stack t = some r') : OfArray r' := by
  cases t with
  | null | bool _ | num _ | str _ =>
    cases hstep
    exact ofArray_finish h _
  | openArray | openObject =>
    simp only [value?, enter?] at hstep
    split at hstep
    · cases hstep
      exact .inr ⟨nofun, inArray_cons h _⟩
    · cases hstep
  | closeArray | closeObject | comma | colon => cases hstep

/-- Closing the innermost array leaves the reader in the outermost one, or with it. -/
theorem ofArray_close {read : List Json} {stack : List Frame} (h : InArray (.items read :: stack)) :
    OfArray (finish (.arr read) stack) := by
  cases stack with
  | nil => exact .inl ⟨read, rfl⟩
  | cons g stack => exact ofArray_finish (inArray_of_cons h) _

theorem ofArray_closeObject {read : Table Json} {name : String} {stack : List Frame}
    (h : InArray (.members read name :: stack)) : OfArray (finish (.obj read) stack) := by
  cases stack with
  | nil =>
    obtain ⟨items, hitems⟩ := h
    cases hitems
  | cons g stack => exact ofArray_finish (inArray_of_cons h) _

/-- A reader in an array stays in it, whatever token comes. -/
theorem OfArray.step? {r r' : Reader} (h : r.OfArray) {t : Token} (hstep : r.step? t = some r') : r'.OfArray := by
  obtain ⟨mode, stack⟩ := r
  rcases h with ⟨items, hdone⟩ | ⟨hmode, hstack⟩
  · simp only at hdone
    subst hdone
    cases hstep
  · simp only at hmode hstack
    rcases step?_cases hstep with hvalue | ⟨read, rest, hs, -, rfl⟩ | ⟨read, name, rest, hs, -, rfl⟩ |
      ⟨read, name, s, rest, hs, -, rfl⟩ | ⟨-, hs, hmode'⟩
    · exact ofArray_value? hstack hvalue
    · obtain rfl : stack = _ := hs
      exact ofArray_close hstack
    · obtain rfl : stack = _ := hs
      exact ofArray_closeObject hstack
    · obtain rfl : stack = _ := hs
      exact .inr ⟨nofun, hstack.members⟩
    · exact .inr ⟨hmode', hs ▸ hstack⟩

end Reader

/-- The tokens of an object start with an opening brace. -/
theorem exists_openObject_of_ofTokens? {ts : List Token} {members : Table Json}
    (h : ofTokens? ts = some (.obj members)) : ∃ ts', ts = .openObject :: ts' := by
  obtain ⟨r, hrun, hmode⟩ := Option.bind_eq_some_iff.1 h
  have hdone : r.mode = .done (.obj members) := by
    split at hmode
    · rename_i v hv
      cases hmode
      exact hv
    · cases hmode
  cases ts with
  | nil =>
    cases hrun
    cases hdone
  | cons t ts =>
    rw [List.foldlM_cons] at hrun
    obtain ⟨r₁, hstep, hrest⟩ := Option.bind_eq_some_iff.1 hrun
    cases t with
    | openObject => exact ⟨ts, rfl⟩
    | closeArray | closeObject | comma | colon => cases hstep
    | null | bool _ | num _ | str _ =>
      -- a scalar is finished at once, and nothing may follow it
      cases hstep
      cases ts with
      | nil =>
        cases hrest
        cases hdone
      | cons u ts => cases hrest
    | openArray =>
      have hopened : r₁.OfArray := by
        cases hstep
        exact .inr ⟨nofun, [], rfl⟩
      rcases Reader.foldlM_of_kept (fun h => h.step?) hopened hrest with ⟨items, hitems⟩ | ⟨hopen, -⟩
      · rw [hdone] at hitems
        cases hitems
      · exact absurd hdone (hopen _)

/-! ### The first character of an object -/

/-- A text that starts inside a string starts with the token of this string. -/
theorem exists_str_of_lexString? {acc cs : List Char} {ts : List Token} (h : lexString? acc cs = some ts) :
    ∃ s ts', ts = .str s :: ts' := by
  induction hn : cs.length using Nat.strongRecOn generalizing acc cs with
  | ind n ih =>
    subst hn
    rw [lexString?.eq_def] at h
    split at h
    · cases h
    · obtain ⟨ts', -, rfl⟩ := Option.map_eq_some_iff.1 h
      exact ⟨_, _, rfl⟩
    · split at h
      · cases h
      · split at h
        · exact ih _ (by simp only [List.length_cons]; omega) h rfl
        · split at h
          · cases h
          · split at h
            · split at h
              · cases h
              · split at h
                · exact ih _ (by simp only [List.length_cons]; omega) h rfl
                · cases h
            · cases h
    · split at h
      · exact ih _ (by simp only [List.length_cons]; omega) h rfl
      · cases h
    · split at h
      · cases h
      · exact ih _ (by simp only [List.length_cons]; omega) h rfl

/-- A text that starts inside a number starts with the token of this number. -/
theorem exists_num_of_lexNumber? {acc cs : List Char} {ts : List Token} (h : lexNumber? acc cs = some ts) :
    ∃ n ts', ts = .num n :: ts' := by
  induction cs generalizing acc with
  | nil =>
    rw [lexNumber?] at h
    obtain ⟨n, -, rfl⟩ := Option.map_eq_some_iff.1 h
    exact ⟨n, [], rfl⟩
  | cons c cs ih =>
    rw [lexNumber?] at h
    split at h
    · exact ih h
    · split at h
      · cases h
      · obtain ⟨ts', -, rfl⟩ := Option.map_eq_some_iff.1 h
        exact ⟨_, _, rfl⟩

theorem eq_of_punctuation?_eq_openObject {c : Char} (h : punctuation? c = some .openObject) : c = '\x7b' := by
  unfold punctuation? at h
  split at h
  · cases h
  split at h
  · cases h
  split at h
  · assumption
  split at h
  · cases h
  split at h
  · cases h
  split at h
  · cases h
  · cases h

/-- A text of which the first token is an opening brace has the brace behind its blanks. -/
theorem find?_of_lex? {cs : List Char} {ts : List Token} (h : lex? cs = some (.openObject :: ts)) :
    cs.find? (!isBlank ·) = some '\x7b' := by
  induction cs with
  | nil =>
    rw [lex?] at h
    cases h
  | cons c cs ih =>
    rw [lex?.eq_def] at h
    split at h
    · cases h
    · obtain ⟨ts', -, hts⟩ := Option.map_eq_some_iff.1 h
      cases hts
    · obtain ⟨ts', -, hts⟩ := Option.map_eq_some_iff.1 h
      cases hts
    · obtain ⟨ts', -, hts⟩ := Option.map_eq_some_iff.1 h
      cases hts
    · rename_i hcs
      cases hcs
      split at h
      · rename_i hblank
        rw [List.find?_cons_of_neg (by simp [hblank])]
        exact ih h
      · rename_i hblank
        rw [List.find?_cons_of_pos (by simp [hblank])]
        split at h
        · obtain ⟨s, ts', hts⟩ := exists_str_of_lexString? h
          cases hts
        split at h
        · obtain ⟨n, ts', hts⟩ := exists_num_of_lexNumber? h
          cases hts
        split at h
        · rename_i t ht
          obtain ⟨ts', -, hts⟩ := Option.map_eq_some_iff.1 h
          cases hts
          rw [eq_of_punctuation?_eq_openObject ht]
        · cases h

end Json

/-! ### The first byte of an object -/

namespace Utf8

theorem toNat_ofNat {n : Nat} (h : n.isValidChar) : (Char.ofNat n).toNat = n := by
  unfold Char.ofNat
  rw [dif_pos h]
  rfl

theorem le_toNat_of_scalar? {least n : Nat} {c : Char} (h : scalar? least n = some c) : least ≤ c.toNat := by
  unfold scalar? at h
  split at h
  · rename_i hn
    cases h
    rw [toNat_ofNat hn.2]
    exact hn.1
  · cases h

/-- A character below U+0080 is spelled by one byte. -/
theorem eq_cons_of_decodeChars? {bs : Bytes} {c : Char} {cs : List Char} (h : decodeChars? bs = some (c :: cs))
    (hc : c.toNat < 0x80) : ∃ rest, bs = UInt8.ofNat c.toNat :: rest ∧ decodeChars? rest = some cs := by
  rw [decodeChars?.eq_def] at h
  split at h
  · cases h
  · rename_i a rest
    split at h
    · rename_i ha
      obtain ⟨cs', hcs', heq⟩ := Option.map_eq_some_iff.1 h
      cases heq
      have hvalue : (Char.ofNat a.toNat).toNat = a.toNat := toNat_ofNat (.inl (by omega))
      exact ⟨rest, by rw [hvalue, UInt8.ofNat_toNat], hcs'⟩
    -- every longer form spells a character from U+0080 on
    split at h
    · cases h
    split at h
    · split at h
      · simp only [Option.bind_eq_bind, Option.bind_eq_some_iff, Option.map_eq_map, Option.map_eq_some_iff] at h
        obtain ⟨x, -, d, hd, cs', -, heq⟩ := h
        cases heq
        have hleast := le_toNat_of_scalar? hd
        omega
      · cases h
    split at h
    · split at h
      · simp only [Option.bind_eq_bind, Option.bind_eq_some_iff, Option.map_eq_map, Option.map_eq_some_iff] at h
        obtain ⟨x, -, y, -, d, hd, cs', -, heq⟩ := h
        cases heq
        have hleast := le_toNat_of_scalar? hd
        omega
      · cases h
    split at h
    · split at h
      · simp only [Option.bind_eq_bind, Option.bind_eq_some_iff, Option.map_eq_map, Option.map_eq_some_iff] at h
        obtain ⟨x, -, y, -, z, -, d, hd, cs', -, heq⟩ := h
        cases heq
        have hleast := le_toNat_of_scalar? hd
        omega
      · cases h
    · cases h

end Utf8

namespace Json

/-- A blank of JSON is a byte that detection passes over. -/
theorem isBlank_ofNat {c : Char} (h : isBlank c = true) :
    c.toNat < 0x80 ∧ Codec.isBlank (UInt8.ofNat c.toNat) = true := by
  simp only [isBlank, Bool.or_eq_true, decide_eq_true_eq] at h
  rcases h with ((rfl | rfl) | rfl) | rfl <;> exact ⟨by decide, rfl⟩

/-- If the characters have a brace behind their blanks, so have the bytes. -/
theorem find?_of_decodeChars? {bs : Bytes} {cs : List Char} (h : Utf8.decodeChars? bs = some cs)
    (hbrace : cs.find? (!isBlank ·) = some '\x7b') : bs.find? (!Codec.isBlank ·) = some Codec.brace := by
  induction cs generalizing bs with
  | nil => cases hbrace
  | cons c cs ih =>
    by_cases hblank : isBlank c = true
    · obtain ⟨hc, hbyte⟩ := isBlank_ofNat hblank
      obtain ⟨rest, rfl, hrest⟩ := Utf8.eq_cons_of_decodeChars? h hc
      rw [List.find?_cons_of_neg (by simp [hblank])] at hbrace
      rw [List.find?_cons_of_neg (by simp [hbyte])]
      exact ih hrest hbrace
    · rw [List.find?_cons_of_pos (by simp [hblank])] at hbrace
      cases hbrace
      obtain ⟨rest, rfl, -⟩ := Utf8.eq_cons_of_decodeChars? h (by decide)
      rfl

/-- Whatever is read as a JSON object speaks for JSON. -/
theorem detect_of_parseBytes? {bs : Bytes} {members : Table Json} (h : parseBytes? bs = some (.obj members)) :
    Codec.detect bs = .json := by
  obtain ⟨cs, hcs, hparse⟩ := Option.bind_eq_some_iff.1 h
  obtain ⟨ts, hts, htree⟩ := Option.bind_eq_some_iff.1 hparse
  obtain ⟨ts', rfl⟩ := exists_openObject_of_ofTokens? htree
  exact if_pos (find?_of_decodeChars? hcs (find?_of_lex? hts))

end Json

/-! ### The first byte of a record -/

namespace MessagePack

/-- A byte below 128 is an integer, and no record. -/
theorem exists_cons_of_decode? {bs : Bytes} {r : Record} (h : decode? bs = some r) :
    ∃ head rest, bs = head :: rest ∧ 0x80 ≤ head.toNat := by
  obtain ⟨⟨item, rest⟩, hread, hrecord⟩ := Option.bind_eq_some_iff.1 h
  cases bs with
  | nil => cases hread
  | cons head bs =>
    rcases Nat.lt_or_ge head.toNat 0x80 with hlow | hhigh
    · rw [List.length_cons, read?] at hread
      simp only [if_pos hlow] at hread
      cases hread
      cases hrecord
    · exact ⟨head, bs, rfl, hhigh⟩

/-- Whatever is read as a MessagePack record speaks for MessagePack. -/
theorem detect_of_decode? {bs : Bytes} {r : Record} (h : decode? bs = some r) : Codec.detect bs = .messagePack := by
  obtain ⟨head, rest, rfl, hhead⟩ := exists_cons_of_decode? h
  have hne : ∀ b : UInt8, b.toNat < 0x80 → head ≠ b := by
    rintro b hb rfl
    omega
  have hblank : Codec.isBlank head = false := by
    simp [Codec.isBlank, hne 32 (by decide), hne 9 (by decide), hne 10 (by decide), hne 12 (by decide),
      hne 13 (by decide)]
  unfold Codec.detect
  rw [List.find?_cons_of_pos (by simp [hblank]), if_neg]
  intro hbrace
  exact hne Codec.brace (by decide) (Option.some.inj hbrace)

end MessagePack

/-! ### Detection is exact -/

namespace Codec

/-- What a codec reads speaks for this codec. -/
theorem detect_of_read {c : Codec} {bytes : Bytes} {d : Document} (h : c.read bytes = .ok d) : detect bytes = c := by
  cases c with
  | json =>
    simp only [read] at h
    split at h
    · cases h
    · rename_i members hparse
      exact Json.detect_of_parseBytes? hparse
    · cases h
  | messagePack =>
    simp only [read] at h
    split at h
    · cases h
    · rename_i r hdecode
      exact MessagePack.detect_of_decode? hdecode

theorem detect_of_decode {c : Codec} {types : TypeRegistry} {bytes : Bytes} {v : Payload}
    (h : c.decode types bytes = .ok v) : detect bytes = c := by
  unfold decode at h
  cases hread : c.read bytes with
  | error e =>
    rw [hread] at h
    cases h
  | ok d => exact detect_of_read hread

/-- What a codec reads as a message speaks for this codec, so no message is read by both; and a pool, which decodes
with the codec that a message speaks for, finds a value exactly if some codec does. -/
theorem detect_exact (bytes : Bytes) :
    (∀ c d, Codec.read c bytes = .ok d → detect bytes = c) ∧
      (¬∃ d d', json.read bytes = .ok d ∧ messagePack.read bytes = .ok d') ∧
      ∀ p : EncoderPool, p.Sound → ∀ v,
        (p.decodeDetected bytes).1 = .ok v ↔ ∃ c : Codec, c.decode p.types bytes = .ok v := by
  refine ⟨fun c d => detect_of_read, ?_, ?_⟩
  · rintro ⟨d, d', hjson, hmessagePack⟩
    have hsame : json = messagePack := (detect_of_read hjson).symm.trans (detect_of_read hmessagePack)
    cases hsame
  · intro p hp v
    rw [hp.decodeDetected_fst]
    constructor
    · intro h
      exact ⟨detect bytes, h⟩
    · rintro ⟨c, h⟩
      rwa [detect_of_decode h]

/-- A truth value in JSON with blanks around everything. -/
private def spaced : String := "\r\n \x7b \"value\" : true, \"@type\" : \"BooleanValue\" \x7d"

private theorem read_spaced :
    json.read (Utf8.encode spaced) = .ok (.json [("@type", .str "BooleanValue"), ("value", .bool true)]) := by
  have hchars : Utf8.decodeChars? (Utf8.encode spaced) = some spaced.toList := by decide +kernel
  have htokens : Json.lex? spaced.toList =
      some [.openObject, .str "value".toList, .colon, .bool true, .comma, .str "@type".toList, .colon,
        .str "BooleanValue".toList, .closeObject] := by decide +kernel
  have hparse : Json.parseBytes? (Utf8.encode spaced) =
      some (.obj [("@type", .str "BooleanValue"), ("value", .bool true)]) := by
    rw [Json.parseBytes?, hchars, Option.bind_eq_bind, Option.bind_some, Json.parseChars?, htokens]
    rfl
  rw [read, hparse]

theorem detect_exact_spaced :
    detect (Utf8.encode spaced) = json ∧
      ((EncoderPool.empty .standard .messagePack 4).decodeDetected (Utf8.encode spaced)).1 = .ok (.boolean true) := by
  obtain ⟨hdetect, -, hpool⟩ := detect_exact (Utf8.encode spaced)
  have hdecode : json.decode .standard (Utf8.encode spaced) = .ok (.boolean true) := by
    rw [decode, read_spaced]
    rfl
  exact ⟨hdetect json _ read_spaced, (hpool _ (EncoderPool.sound_empty _ _ _) _).2 ⟨json, hdecode⟩⟩

end Codec

end Switchboard
