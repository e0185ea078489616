import Switchboard.CorrelationId
import Switchboard.Topic.Subject

/-!
# Segments and the texts of topics

A list of segments passes the check if and only if each of them is valid, and a hyphenated id is a valid segment. No
valid segment holds a separator, so a topic comes back from its text (`Topic.split_join`), and so does a filter, whose
wildcards hold none either (`Topic.pieces_join`). Every text is cut into parts in exactly one way
(`Topic.cutInto_iff`).
-/

namespace Switchboard

/-! ### Valid segments -/

namespace Segment

theorem validate_eq_ok_iff (s : String) (position : Nat) : validate s position = .ok () ↔ Valid s := by
  unfold validate Valid
  constructor
  · intro h
    split at h
    · cases h
    · rename_i hempty
      split at h
      · cases h
      · rename_i hsize
        split at h
        · cases h
        · rename_i hfind
          refine ⟨by simpa using hempty, Nat.le_of_not_lt hsize, fun c hc => ?_⟩
          have hallows := List.find?_eq_none.1 hfind c hc
          simpa using hallows
  · rintro ⟨hempty, hsize, hallows⟩
    have hfind : s.toList.find? (!allows ·) = none := by
      apply List.find?_eq_none.2
      intro c hc
      simp [hallows c hc]
    rw [if_neg (by simpa using hempty), if_neg (Nat.not_lt.2 hsize), hfind]

theorem validateFrom_eq_ok_iff (l : List String) (position : Nat) :
    validateFrom position l = .ok () ↔ ∀ s ∈ l, Valid s := by
  induction l generalizing position with
  | nil => simp [validateFrom]
  | cons s l ih =>
    rw [validateFrom, List.forall_mem_cons, ← validate_eq_ok_iff s position, ← ih (position + 1)]
    cases validate s position with
    | error e =>
      constructor
      · intro h
        cases h
      · rintro ⟨h, -⟩
        cases h
    | ok u =>
      constructor
      · intro h
        exact ⟨rfl, h⟩
      · rintro ⟨-, h⟩
        exact h

/-- A list of segments passes the check if and only if each of them is valid. -/
theorem validateAll_eq_ok_iff (l : List String) : validateAll l = .ok () ↔ ∀ s ∈ l, Valid s :=
  validateFrom_eq_ok_iff l 0

/-- Segments in front of a list leave the check to what follows them. -/
theorem validateFrom_append {front : List String} (h : ∀ s ∈ front, Valid s) (rest : List String) (position : Nat) :
    validateFrom position (front ++ rest) = validateFrom (position + front.length) rest := by
  induction front generalizing position with
  | nil => rfl
  | cons s front ih =>
    rw [List.forall_mem_cons] at h
    have hrest := ih h.2 (position + 1)
    rw [Nat.add_assoc, Nat.add_comm 1] at hrest
    rw [List.cons_append, validateFrom, (validate_eq_ok_iff s position).2 h.1, List.length_cons, ← hrest]
    rfl

/-- A text that is neither empty nor too long can only be refused for the first character that a segment may not
hold. -/
theorem validate_of_size {s : String} (hempty : s ≠ "") (hsize : s.utf8ByteSize ≤ maxSegmentBytes) (position : Nat) :
    validate s position =
      (s.toList.find? (!allows ·)).elim (.ok ()) fun c => .error (.invalidSegment s (.forbidden c)) := by
  rw [validate, if_neg (by simpa using hempty), if_neg (Nat.not_lt.2 hsize)]
  cases s.toList.find? (!allows ·) <;> rfl

/-- The letters and digits of ASCII may stand in a segment. -/
theorem allows_of_ascii {c : Char} (h : (65 ≤ c.toNat ∧ c.toNat ≤ 90) ∨ (97 ≤ c.toNat ∧ c.toNat ≤ 122) ∨
    (48 ≤ c.toNat ∧ c.toNat ≤ 57)) : allows c = true := by
  have halphanum : c.isAlphanum = true := by
    unfold Char.isAlphanum Char.isAlpha Char.isUpper Char.isLower Char.isDigit
    simp only [Bool.or_eq_true, Bool.and_eq_true, decide_eq_true_eq, UInt32.le_iff_toNat_le, ge_iff_le, or_assoc]
    exact h
  have hascii : c.toNat < 128 := by omega
  simp [allows, Text.isAlphanumeric, hascii, halphanum]

theorem valid_broadcast : Valid broadcast := (validate_eq_ok_iff _ 0).1 rfl

theorem valid_reply : Valid reply := (validate_eq_ok_iff _ 0).1 rfl

theorem Valid.ne_anyRest {s : String} (h : Valid s) : s ≠ Filter.anyRest := by
  rintro rfl
  exact absurd (h.2.2 '#' (by decide)) (by decide)

theorem Valid.ne_anyOne {s : String} (h : Valid s) : s ≠ Filter.anyOne := by
  rintro rfl
  exact absurd (h.2.2 '+' (by decide)) (by decide)

theorem Valid.separator_notMem {s : String} (h : Valid s) : Topic.separator ∉ s.toList := by
  intro hmem
  have hallows := h.2.2 _ hmem
  simp [allows, Topic.separator, Text.isAlphanumeric_dot] at hallows

end Segment

/-! ### Hyphenated ids -/

namespace CorrelationId

theorem allows_of_isHexDigit_or_hyphen {c : Char} (h : isHexDigit c = true ∨ c = '-') :
    c.toNat < 128 ∧ Segment.allows c = true := by
  rcases h with h | rfl
  · have hrange : (48 ≤ c.toNat ∧ c.toNat ≤ 57) ∨ (97 ≤ c.toNat ∧ c.toNat ≤ 102) ∨ (65 ≤ c.toNat ∧ c.toNat ≤ 70) := by
      simp only [isHexDigit, Char.isDigit, Bool.or_eq_true, Bool.and_eq_true, decide_eq_true_eq, Char.le_def,
        ge_iff_le, UInt32.le_iff_toNat_le, or_assoc] at h
      exact h
    exact ⟨by omega, Segment.allows_of_ascii (by omega)⟩
  · decide

private theorem mem_take_drop {cs : List Char} {c : Char} {i first count : Nat} (hi : cs[i]? = some c)
    (hfrom : first ≤ i) (hcount : i < first + count) : c ∈ (cs.drop first).take count := by
  apply List.mem_iff_getElem?.2
  refine ⟨i - first, ?_⟩
  rw [List.getElem?_take, if_pos (by omega), List.getElem?_drop, Nat.add_sub_cancel' hfrom, hi]

/-- The characters of a hyphenated id are hexadecimal digits and hyphens. -/
theorem isHexDigit_or_hyphen {cs : List Char} (h : isHyphenated cs = true) :
    ∀ c ∈ cs, isHexDigit c = true ∨ c = '-' := by
  simp only [isHyphenated, Bool.and_eq_true, beq_iff_eq, List.all_eq_true, List.mem_append] at h
  obtain ⟨⟨⟨⟨⟨hlength, h8⟩, h13⟩, h18⟩, h23⟩, hdigits⟩ := h
  intro c hc
  obtain ⟨i, hi⟩ := List.mem_iff_getElem?.1 hc
  have hlt : i < 36 := hlength ▸ (List.getElem?_eq_some_iff.1 hi).1
  have hhyphen : cs[i]? = some '-' → c = '-' := fun heq => Option.some.inj (hi.symm.trans heq)
  -- the four hyphens stand between the five groups of digits
  rcases (by omega : i < 8 ∨ i = 8 ∨ (9 ≤ i ∧ i < 13) ∨ i = 13 ∨ (14 ≤ i ∧ i < 18) ∨ i = 18 ∨ (19 ≤ i ∧ i < 23) ∨
    i = 23 ∨ 24 ≤ i) with hg | rfl | hg | rfl | hg | rfl | hg | rfl | hg
  · exact .inl (hdigits c (.inl (.inl (.inl (.inl (mem_take_drop hi (Nat.zero_le i) (by omega)))))))
  · exact .inr (hhyphen h8)
  · exact .inl (hdigits c (.inl (.inl (.inl (.inr (mem_take_drop hi hg.1 (by omega)))))))
  · exact .inr (hhyphen h13)
  · exact .inl (hdigits c (.inl (.inl (.inr (mem_take_drop hi hg.1 (by omega))))))
  · exact .inr (hhyphen h18)
  · exact .inl (hdigits c (.inl (.inr (mem_take_drop hi hg.1 (by omega)))))
  · exact .inr (hhyphen h23)
  · have hrest : c ∈ (cs.drop 24).take 12 := mem_take_drop hi hg (by omega)
    exact .inl (hdigits c (.inr (List.mem_of_mem_take hrest)))

theorem allows_of_isHyphenated {cs : List Char} (h : isHyphenated cs = true) :
    ∀ c ∈ cs, c.toNat < 128 ∧ Segment.allows c = true :=
  fun c hc => allows_of_isHexDigit_or_hyphen (isHexDigit_or_hyphen h c hc)

theorem utf8ByteSize_ofList_of_ascii {cs : List Char} (h : ∀ c ∈ cs, c.toNat < 128) :
    (String.ofList cs).utf8ByteSize = cs.length := by
  induction cs with
  | nil => rfl
  | cons c cs ih =>
    rw [List.forall_mem_cons] at h
    have hsize : c.utf8Size = 1 := by
      rw [Char.utf8Size_eq_one_iff, UInt32.le_iff_toNat_le]
      exact Nat.le_of_lt_succ h.1
    rw [String.ofList_cons, String.utf8ByteSize_append, String.utf8ByteSize_singleton, hsize, ih h.2,
      List.length_cons, Nat.add_comm]

theorem utf8ByteSize_of_ascii {s : String} (h : ∀ c ∈ s.toList, c.toNat < 128) :
    s.utf8ByteSize = s.toList.length := by
  rw [← utf8ByteSize_ofList_of_ascii h, String.ofList_toList]

theorem length_of_isHyphenated {cs : List Char} (h : isHyphenated cs = true) : cs.length = 36 := by
  simp only [isHyphenated, Bool.and_eq_true, beq_iff_eq] at h
  exact h.1.1.1.1.1

/-- A hyphenated id is a segment. -/
theorem valid_of_isHyphenated {id : CorrelationId} (h : isHyphenated id.text.toList = true) :
    Segment.Valid id.text := by
  have hlength := length_of_isHyphenated h
  have hchars := allows_of_isHyphenated h
  refine ⟨?_, ?_, fun c hc => (hchars c hc).2⟩
  · intro hempty
    rw [hempty] at hlength
    cases hlength
  · rw [utf8ByteSize_of_ascii fun c hc => (hchars c hc).1, hlength]
    decide

/-- The segments on which the replies to a request come in. -/
theorem valid_replySegments {id : CorrelationId} (h : isHyphenated id.text.toList = true) :
    ∀ s ∈ [Segment.reply, id.text], Segment.Valid s := by
  intro s hs
  simp only [List.mem_cons, List.not_mem_nil, or_false] at hs
  rcases hs with rfl | rfl
  · exact Segment.valid_reply
  · exact valid_of_isHyphenated h

end CorrelationId

/-! ### Texts of topics -/

namespace Topic

theorem cut_ne_nil (cs : List Char) : cut cs ≠ [] := by
  cases cs with
  | nil => nofun
  | cons c cs =>
    rw [cut]
    split
    · nofun
    · split <;> nofun

theorem cut_of_notMem {cs : List Char} (h : separator ∉ cs) : cut cs = [cs] := by
  induction cs with
  | nil => rfl
  | cons c cs ih =>
    rw [List.mem_cons, not_or] at h
    rw [cut, if_neg (Ne.symm h.1), ih h.2]

theorem cut_append {cs : List Char} (h : separator ∉ cs) (rest : List Char) :
    cut (cs ++ separator :: rest) = cs :: cut rest := by
  induction cs with
  | nil => exact if_pos rfl
  | cons c cs ih =>
    rw [List.mem_cons, not_or] at h
    rw [List.cons_append, cut, if_neg (Ne.symm h.1), ih h.2]

/-- Pieces without separators come back from the text that joins them. -/
theorem cut_intercalate {l : List (List Char)} (hne : l ≠ []) (h : ∀ cs ∈ l, separator ∉ cs) :
    cut (List.intercalate [separator] l) = l := by
  induction l with
  | nil => exact absurd rfl hne
  | cons cs l ih =>
    rw [List.forall_mem_cons] at h
    cases l with
    | nil =>
      rw [List.intercalate_singleton]
      exact cut_of_notMem h.1
    | cons cs' l =>
      rw [List.intercalate_cons_cons, List.append_assoc, List.singleton_append, cut_append h.1, ih (by simp) h.2]

/-- Parts without separators come back from the text that joins them. -/
theorem pieces_join {l : List String} (hne : l ≠ []) (h : ∀ s ∈ l, separator ∉ s.toList) : pieces (join l) = l := by
  rw [pieces, join, String.toList_ofList, cut_intercalate (by simpa using hne)]
  · simp [List.map_map, Function.comp_def]
  · intro cs hcs
    obtain ⟨s, hs, rfl⟩ := List.mem_map.1 hcs
    exact h s hs

/-- No piece that a text is cut into holds a separator. -/
theorem separator_notMem_of_mem_cut {cs piece : List Char} (h : piece ∈ cut cs) : separator ∉ piece := by
  induction cs generalizing piece with
  | nil =>
    obtain rfl : piece = [] := by simpa [cut] using h
    exact List.not_mem_nil
  | cons c cs ih =>
    rw [cut] at h
    split at h
    · rcases List.mem_cons.1 h with rfl | h
      · exact List.not_mem_nil
      · exact ih h
    · rename_i hc
      split at h
      · obtain rfl := List.mem_singleton.1 h
        simpa using Ne.symm hc
      · rename_i first rest hcut
        rw [hcut] at ih
        rcases List.mem_cons.1 h with rfl | h
        · rw [List.mem_cons, not_or]
          exact ⟨Ne.symm hc, ih List.mem_cons_self⟩
        · exact ih (List.mem_cons_of_mem _ h)

theorem intercalate_cut (cs : List Char) : List.intercalate [separator] (cut cs) = cs := by
  induction cs with
  | nil => rfl
  | cons c cs ih =>
    rw [cut]
    split
    · rename_i hc
      subst hc
      cases hcut : cut cs with
      | nil => exact absurd hcut (cut_ne_nil cs)
      | cons piece pieces =>
        rw [List.intercalate_cons_cons, ← hcut, ih]
        rfl
    · cases hcut : cut cs with
      | nil => exact absurd hcut (cut_ne_nil cs)
      | cons piece pieces =>
        -- the character goes in front of the first part, and so in front of the text
        rw [hcut] at ih
        cases pieces with
        | nil =>
          rw [List.intercalate_singleton] at ih ⊢
          rw [ih]
        | cons next pieces =>
          rw [List.intercalate_cons_cons] at ih ⊢
          rw [List.cons_append, List.cons_append, ih]

/-- The parts of a text give the text when they are joined. -/
theorem join_pieces (text : String) : join (pieces text) = text := by
  have hchars : (pieces text).map String.toList = cut text.toList := by
    rw [pieces, List.map_map]
    exact List.map_id'' (fun cs => String.toList_ofList) _
  rw [join, hchars, intercalate_cut, String.ofList_toList]

/-- Parts of a text, one or more, with one separator between each two of them and no other. -/
structure CutInto (text : String) (parts : List String) : Prop where
  ne_nil : parts ≠ []
  separator_notMem : ∀ s ∈ parts, separator ∉ s.toList
  join_eq : join parts = text

/-- Every text is cut into its parts, and in no other way. -/
theorem cutInto_iff {text : String} {parts : List String} : CutInto text parts ↔ parts = pieces text := by
  constructor
  · rintro ⟨hne, hseparator, rfl⟩
    exact (pieces_join hne hseparator).symm
  · rintro rfl
    refine ⟨?_, fun s hs => ?_, join_pieces text⟩
    · rw [pieces, Ne, List.map_eq_nil_iff]
      exact cut_ne_nil text.toList
    · obtain ⟨piece, hpiece, rfl⟩ := List.mem_map.1 hs
      rw [String.toList_ofList]
      exact separator_notMem_of_mem_cut hpiece

theorem separator_notMem_of_mem_split {text s : String} (h : s ∈ split text) : separator ∉ s.toList := by
  rw [split] at h
  split at h
  · cases h
  · obtain ⟨piece, hpiece, rfl⟩ := List.mem_map.1 h
    rw [String.toList_ofList]
    exact separator_notMem_of_mem_cut hpiece

/-- A topic comes back from its text if and only if none of its segments holds a separator and it is not one empty
segment, whose text is that of no segments. -/
theorem split_join_iff {l : List String} : split (join l) = l ↔ (∀ s ∈ l, separator ∉ s.toList) ∧ l ≠ [""] := by
  constructor
  · intro h
    refine ⟨fun s hs => ?_, ?_⟩
    · rw [← h] at hs
      exact separator_notMem_of_mem_split hs
    · rintro rfl
      cases h
  · rintro ⟨hseparator, hempty⟩
    by_cases hl : l = []
    · subst hl
      rfl
    have hpieces := pieces_join hl hseparator
    have hne : join l ≠ "" := fun htext => hempty (by rw [← hpieces, htext]; rfl)
    rw [split, if_neg (by simpa using hne), hpieces]

/-- A topic of valid segments comes back from its text. -/
theorem split_join {l : List String} (h : ∀ s ∈ l, Segment.Valid s) : split (join l) = l := by
  refine split_join_iff.2 ⟨fun s hs => (h s hs).separator_notMem, ?_⟩
  rintro rfl
  exact (h "" List.mem_cons_self).1 rfl

end Topic

end Switchboard
