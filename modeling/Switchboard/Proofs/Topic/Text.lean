import Switchboard.Proofs.Topic.Origin

/-!
# Topics, subjects and their texts

A text is the text of its own segments (`Topic.join_split`), and a list of segments is that of its text unless a
separator or a lone empty segment gets in the way. So a subject is parsed from its text and from no other
(`Subject.parse_eq_ok_iff`), and a text that is refused is refused for its first faulty segment
(`Subject.parse_eq_error_iff`).
-/

namespace Switchboard

theorem Topic.join_split (text : String) : join (split text) = text := by
  unfold split
  split
  · rename_i hempty
    rw [String.isEmpty_iff] at hempty
    rw [hempty]
    rfl
  · exact join_pieces text

/-! ### The first faulty segment -/

namespace Segment

/-- The first segment of a list that is not valid stands at a position, and the error says what is wrong with it. -/
def FirstFault (segments : List String) (position : Nat) (e : ValidationError) : Prop :=
  ∃ segment, segments[position]? = some segment ∧ (∀ s ∈ segments.take position, Valid s) ∧
    validate segment position = .error e

theorem not_valid_of_validate {s : String} {position : Nat} {e : ValidationError}
    (h : validate s position = .error e) :
    ¬Valid s := by
  intro hvalid
  rw [(validate_eq_ok_iff s position).2 hvalid] at h
  cases h

theorem validateFrom_eq_error_iff (l : List String) (first : Nat) {e : ValidationError} :
    validateFrom first l = .error e ↔
      ∃ i s, l[i]? = some s ∧ (∀ x ∈ l.take i, Valid x) ∧ validate s (first + i) = .error e := by
  induction l generalizing first with
  | nil => simp [validateFrom]
  | cons s l ih =>
    rw [validateFrom]
    cases hs : validate s first with
    | error e' =>
      -- nothing behind a faulty segment is looked at
      constructor
      · intro h
        cases h
        exact ⟨0, s, rfl, by simp, hs⟩
      · rintro ⟨i, x, hx, hfront, he⟩
        cases i with
        | zero =>
          cases hx
          exact hs.symm.trans he
        | succ i => exact absurd (hfront s List.mem_cons_self) (not_valid_of_validate hs)
    | ok u =>
      have hvalid : Valid s := (validate_eq_ok_iff s first).1 hs
      refine (ih (first + 1)).trans ?_
      constructor
      · rintro ⟨i, x, hx, hfront, he⟩
        rw [Nat.add_assoc, Nat.add_comm 1] at he
        exact ⟨i + 1, x, hx, List.forall_mem_cons.2 ⟨hvalid, hfront⟩, he⟩
      · rintro ⟨i, x, hx, hfront, he⟩
        cases i with
        | zero =>
          cases hx
          exact absurd hvalid (not_valid_of_validate he)
        | succ i =>
          rw [Nat.add_comm i, ← Nat.add_assoc] at he
          exact ⟨i, x, hx, (List.forall_mem_cons.1 hfront).2, he⟩

/-- A list of segments is refused for its first faulty segment. -/
theorem validateAll_eq_error_iff {l : List String} {e : ValidationError} :
    validateAll l = .error e ↔ ∃ position, FirstFault l position e := by
  rw [validateAll, validateFrom_eq_error_iff]
  simp only [Nat.zero_add, FirstFault]

end Segment

/-! ### Subjects -/

namespace Subject

variable {text : String} {segments : List String} {s : Subject} {e : ValidationError}

theorem ofSegments_eq_error_iff :
    ofSegments segments = .error e ↔
      (segments = [] ∧ e = .emptySubject) ∨ ∃ position, Segment.FirstFault segments position e := by
  unfold ofSegments
  split
  · rename_i hempty
    obtain rfl := List.isEmpty_iff.1 hempty
    simp [Segment.FirstFault, eq_comm]
  · rename_i hne
    rw [List.isEmpty_iff] at hne
    rw [← Segment.validateAll_eq_error_iff, or_iff_right fun h => hne h.1]
    cases Segment.validateAll segments with
    | error e' =>
      constructor
      · intro h
        cases h
        rfl
      · intro h
        cases h
        rfl
    | ok u => exact iff_of_false nofun nofun

/-- A subject is parsed from its text and from no other. -/
theorem parse_eq_ok_iff : parse text = .ok s ↔ (∃ l, ofSegments l = .ok s) ∧ s.text = text := by
  constructor
  · intro h
    obtain ⟨rfl, -⟩ := ofSegments_eq_ok_iff.1 h
    exact ⟨⟨Topic.split text, h⟩, Topic.join_split text⟩
  · rintro ⟨⟨l, hl⟩, rfl⟩
    obtain ⟨rfl, hvalid⟩ := ofSegments_eq_ok_iff.1 hl
    have hsplit : Topic.split (Topic.join l) = l := Topic.split_join hvalid.2
    rw [parse, Subject.text, hsplit, hl]

theorem parse_eq_error_iff :
    parse text = .error e ↔
      (text = "" ∧ e = .emptySubject) ∨ ∃ position, Segment.FirstFault (Topic.split text) position e := by
  have hnil : Topic.split text = [] ↔ text = "" := by
    constructor
    · intro h
      rw [← Topic.join_split text, h]
      rfl
    · rintro rfl
      rfl
  rw [parse, ofSegments_eq_error_iff, hnil]

/-- Texts and segments determine each other: a text is that of its segments, and a list of segments is that of its
text if no segment holds a separator and it is not one empty segment. A subject is parsed from its text and from no
other. Parsing a text, taking its segments as a list and building them up one by one come to the same, also in what is
wrong with a text: that it is empty, or its first faulty segment. -/
theorem texts_and_segments (text : String) (segments : List String) (s : Subject) (e : ValidationError) :
    Topic.join (Topic.split text) = text ∧
    (Topic.split (Topic.join segments) = segments ↔
      (∀ x ∈ segments, Topic.separator ∉ x.toList) ∧ segments ≠ [""]) ∧
    (parse text = .ok s ↔ (∃ l, ofSegments l = .ok s) ∧ s.text = text) ∧
    parse text = ofSegments (Topic.split text) ∧
    parse text = ((Topic.split text).foldl SubjectBuilder.segment {}).build ∧
    (parse text = .error e ↔
      (text = "" ∧ e = .emptySubject) ∨ ∃ position, Segment.FirstFault (Topic.split text) position e) :=
  ⟨Topic.join_split text, Topic.split_join_iff, parse_eq_ok_iff, rfl, (build_foldl_segment _ {}).symm,
    parse_eq_error_iff⟩

/-- A dot at the end of a text leaves an empty segment behind it, which is the third one here; a text that is a dot
alone has two. -/
example : parse "valve.open." = .error (.emptySegment 2) ∧ parse "." = .error (.emptySegment 0) ∧
    Topic.split "." = ["", ""] := ⟨rfl, rfl, rfl⟩

end Subject

end Switchboard
