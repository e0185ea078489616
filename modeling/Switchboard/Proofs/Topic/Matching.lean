import Switchboard.Proofs.Topic.Segment

/-!
# What a filter matches

A filter is compared with a topic segment by segment, both at once, until a wildcard for any rest or one of the two
ends. Seen as a whole it matches if its parts before the first such wildcard stand for the first segments of the
topic, and, if it has none, if there are no others on either side (`Filter.covering_iff`).
-/

namespace Switchboard.Filter

/-- Each of the first parts of a filter is the wildcard for one segment, or the segment of the topic at its place. -/
def StandsFor (filter topic : List String) (count : Nat) : Prop :=
  ∀ i < count, ∀ part, filter[i]? = some part → part = anyOne ∨ topic[i]? = some part

theorem standsFor_zero (filter topic : List String) : StandsFor filter topic 0 :=
  fun i hi => absurd hi (Nat.not_lt_zero i)

theorem standsFor_cons_iff {part segment : String} {filter topic : List String} {count : Nat} :
    StandsFor (part :: filter) (segment :: topic) (count + 1) ↔
      (part = anyOne ∨ part = segment) ∧ StandsFor filter topic count := by
  constructor
  · intro h
    refine ⟨?_, fun i hi p hp => ?_⟩
    · have hfirst := h 0 (Nat.succ_pos count) part rfl
      rwa [List.getElem?_cons_zero, Option.some.injEq, eq_comm (a := segment)] at hfirst
    · have hnext := h (i + 1) (Nat.succ_lt_succ hi) p
      rw [List.getElem?_cons_succ, List.getElem?_cons_succ] at hnext
      exact hnext hp
  · rintro ⟨hfirst, hrest⟩ i hi p hp
    cases i with
    | zero =>
      rw [List.getElem?_cons_zero, Option.some.injEq] at hp ⊢
      subst hp
      exact hfirst.imp_right Eq.symm
    | succ i =>
      rw [List.getElem?_cons_succ] at hp ⊢
      exact hrest i (Nat.lt_of_succ_lt_succ hi) p hp

/-- The parts of a filter match the segments of a topic. -/
def Matches (filter topic : List String) : Prop :=
  (anyRest ∉ filter ∧ filter.length = topic.length ∧ StandsFor filter topic filter.length) ∨
    (anyRest ∈ filter ∧ filter.idxOf anyRest ≤ topic.length ∧ StandsFor filter topic (filter.idxOf anyRest))

theorem matches_nil_iff {topic : List String} : Matches [] topic ↔ topic = [] := by
  simp [Matches, StandsFor, eq_comm (a := 0)]

theorem matches_anyRest_cons (filter topic : List String) : Matches (anyRest :: filter) topic := by
  refine .inr ⟨List.mem_cons_self, ?_⟩
  rw [List.idxOf_cons_self]
  exact ⟨Nat.zero_le _, standsFor_zero _ _⟩

variable {part : String} (hpart : part ≠ anyRest)
include hpart

theorem idxOf_cons_of_ne (filter : List String) : (part :: filter).idxOf anyRest = filter.idxOf anyRest + 1 := by
  rw [List.idxOf_cons, beq_eq_false_iff_ne.2 hpart, cond_false]

theorem not_matches_cons_nil (filter : List String) : ¬Matches (part :: filter) [] := by
  rintro (⟨-, hlength, -⟩ | ⟨-, hfront, -⟩)
  · cases hlength
  · rw [idxOf_cons_of_ne hpart] at hfront
    cases hfront

theorem matches_cons_cons_iff {segment : String} {filter topic : List String} :
    Matches (part :: filter) (segment :: topic) ↔ (part = anyOne ∨ part = segment) ∧ Matches filter topic := by
  have hmem : anyRest ∈ part :: filter ↔ anyRest ∈ filter := by
    rw [List.mem_cons, or_iff_right (Ne.symm hpart)]
  rw [Matches, hmem, idxOf_cons_of_ne hpart, List.length_cons, List.length_cons, standsFor_cons_iff,
    standsFor_cons_iff, Nat.add_right_cancel_iff, Nat.succ_le_succ_iff, Matches, and_or_left]
  refine or_congr ?_ ?_
  · rw [← and_assoc, and_left_comm, and_assoc]
  · rw [← and_assoc, and_left_comm, and_assoc]

omit hpart

/-- The comparison of segments comes to whether the filter matches as a whole. -/
theorem covers_iff_matches {filter topic : List String} : covers filter topic = true ↔ Matches filter topic := by
  induction filter generalizing topic with
  | nil => rw [matches_nil_iff, covers, List.isEmpty_iff]
  | cons part filter ih =>
    rw [covers.eq_def]
    by_cases hpart : part = anyRest
    · subst hpart
      simp only [if_true, true_iff]
      exact matches_anyRest_cons filter topic
    · simp only [if_neg hpart]
      cases topic with
      | nil =>
        simp only [Bool.false_eq_true, false_iff]
        exact not_matches_cons_nil hpart filter
      | cons segment topic =>
        rw [matches_cons_cons_iff hpart, ← ih, Bool.and_eq_true, Bool.or_eq_true, beq_iff_eq, beq_iff_eq]

/-- A filter text and a topic text are each cut at the separators, in the one way there is. The filter matches if it
has no wildcard for any rest, the two have as many parts, and each part of the filter is the wildcard for one segment
or the part of the topic at its place; or if it has such a wildcard, the topic has at least as many parts as stand
before the first of them, and for each of these the same holds. -/
theorem covering_iff (filter topic : String) :
    let parts := Topic.pieces filter
    let segments := Topic.pieces topic
    let front := parts.idxOf anyRest
    (∀ l, Topic.CutInto filter l ↔ l = parts) ∧ (∀ l, Topic.CutInto topic l ↔ l = segments) ∧
      (covering filter topic = true ↔
        (anyRest ∉ parts ∧ parts.length = segments.length ∧ StandsFor parts segments parts.length) ∨
          (anyRest ∈ parts ∧ front ≤ segments.length ∧ StandsFor parts segments front)) :=
  ⟨fun _ => Topic.cutInto_iff, fun _ => Topic.cutInto_iff, covers_iff_matches⟩

/-- A wildcard for any rest in the middle covers no segments as well, and what follows it does not count. -/
example : covering "a.+.#.z" "a." = true ∧ covering "a.+.#.z" "a" = false ∧ covering "a.+" "a.+.b" = false := by
  decide

end Switchboard.Filter
