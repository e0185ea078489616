import Switchboard.Proofs.Json.Reading
import Switchboard.Proofs.Table
import Switchboard.Proofs.Topic.Subscription

/-!
# Where identities and subjects come from

An identity or a subject that is made is checked: its segments are valid, and a subject has one (`Identity.made_iff`,
`Subject.made_iff`). One that is read has the segments of the document, whatever these are
(`Identity.ofJson?_eq_some_iff`, `Subject.ofJson?_eq_some_iff`). So the topics of those that are made come back from
their texts, and those of others unless a segment holds a separator (`Destination.comes_back_of_made`).
-/

namespace Switchboard

/-! ### Identities -/

namespace Identity

variable {i : Identity}

/-- Put together from its parts, which are checked. -/
def Made (i : Identity) : Prop := ∃ namespaces app group client, of? namespaces app group client = .ok i

/-- The names of the parts in a document. -/
def partNames : List String := ["namespace", "app_id", "group_id", "client_id"]

/-- The parts as they stand in a document. -/
def parts (i : Identity) : List Json := [.strings i.namespaces, .str i.app, .str i.group, .str i.client]

theorem made_iff : i.Made ↔ i.Valid := by
  constructor
  · rintro ⟨namespaces, app, group, client, h⟩
    exact (of?_eq_ok_iff.1 h).2
  · intro h
    exact ⟨i.namespaces, i.app, i.group, i.client, of?_eq_ok_iff.2 ⟨rfl, h⟩⟩

theorem ofJson?_arr_iff {items : List Json} : ofJson? (.arr items) = some i ↔ items = i.parts := by
  simp only [ofJson?, Option.bind_eq_bind, Option.bind_some]
  split
  · rename_i namespaces app group client
    rw [← Option.bind_assoc]
    constructor
    · intro h
      obtain ⟨l, hnamespaces, h⟩ := Option.bind_eq_some_iff.1 h
      obtain ⟨a, happ, h⟩ := Option.bind_eq_some_iff.1 h
      obtain ⟨g, hgroup, h⟩ := Option.bind_eq_some_iff.1 h
      obtain ⟨c, hclient, h⟩ := Option.bind_eq_some_iff.1 h
      cases h
      rw [Json.strings?_eq_some_iff.1 hnamespaces, Json.getStr?_eq_some_iff.1 happ,
        Json.getStr?_eq_some_iff.1 hgroup, Json.getStr?_eq_some_iff.1 hclient, parts]
    · rintro ⟨⟩
      rw [Json.strings?_eq_some_iff.2 rfl]
      rfl
  · rename_i hlength
    simp only [reduceCtorEq, false_iff]
    rintro rfl
    exact hlength _ _ _ _ rfl

/-- An identity is read from the documents that hold its parts, under their names or in their order. No part is
checked. -/
theorem ofJson?_eq_some_iff {v : Json} :
    ofJson? v = some i ↔ partNames.map v.member? = i.parts.map some ∨ v = .arr i.parts := by
  cases v with
  | obj members =>
    have hread : ofJson? (.obj members) = (partNames.mapM (Json.obj members).member?).bind fun parts =>
      ofJson? (.arr parts) := rfl
    simp only [hread, Option.bind_eq_some_iff, ofJson?_arr_iff, exists_eq_right, mapM_eq_some_iff, reduceCtorEq,
      or_false]
  | arr items =>
    rw [ofJson?_arr_iff, Json.arr.injEq]
    exact ⟨.inr, fun h => h.resolve_left nofun⟩
  | _ => simp [ofJson?, parts, partNames, Json.member?]

/-- What starts with an address has several segments. -/
theorem addressed_append_ne_singleton (group client : String) (rest : List String) (segment : String) :
    i.addressed group client ++ rest ≠ [segment] := by
  intro h
  have hlength := congrArg List.length h
  simp only [addressed, List.length_append, List.length_cons, List.length_nil] at hlength
  omega

end Identity

/-! ### Subjects -/

namespace Subject

variable {s : Subject}

theorem build_foldl_segment (segments : List String) (b : SubjectBuilder) :
    (segments.foldl SubjectBuilder.segment b).build = ofSegments (b.segments ++ segments) := by
  induction segments generalizing b with
  | nil => rw [List.append_nil, List.foldl_nil, SubjectBuilder.build]
  | cons segment segments ih =>
    rw [List.foldl_cons, ih, SubjectBuilder.segment, List.append_assoc, List.singleton_append]

/-- Built, taken from a text or taken from a list of segments, which are checked each time. -/
inductive Made (s : Subject) : Prop
  | built (segments : List String) (h : (segments.foldl SubjectBuilder.segment {}).build = .ok s)
  | parsed (text : String) (h : parse text = .ok s)
  | listed (segments : List String) (h : ofSegments segments = .ok s)

theorem made_iff : s.Made ↔ s.Valid := by
  constructor
  · intro h
    obtain ⟨segments, h⟩ : ∃ segments, ofSegments segments = .ok s := by
      cases h with
      | built segments h => exact ⟨segments, by rwa [build_foldl_segment] at h⟩
      | parsed text h => exact ⟨Topic.split text, h⟩
      | listed segments h => exact ⟨segments, h⟩
    exact (ofSegments_eq_ok_iff.1 h).2
  · intro h
    exact .listed s.segments (ofSegments_eq_ok_iff.2 ⟨rfl, h⟩)

/-- A subject is read from the list of its segments, and no segment is checked. -/
theorem ofJson?_eq_some_iff {v : Json} : ofJson? v = some s ↔ v = .strings s.segments := by
  have hread : ofJson? v = (v.getArr?.bind fun items => items.mapM Json.getStr?).bind fun l => some ⟨l⟩ :=
    (Option.bind_assoc _ _ _).symm
  rw [← Json.strings?_eq_some_iff, hread, Option.bind_eq_some_iff]
  constructor
  · rintro ⟨l, hl, ⟨⟩⟩
    exact hl
  · intro h
    exact ⟨s.segments, h, rfl⟩

end Subject

/-! ### Their topics -/

namespace Destination

/-- An identity or a subject that is made is valid, and every valid one can be made; what is read is whatever the
document holds. The topics of what is made come back from their texts, to whomever they are addressed, and those of
anything else if and only if no segment holds a separator. -/
theorem comes_back_of_made {d : Destination} {i : Identity} {s : Subject} {group client : String}
    (hgroup : Segment.Valid group) (hclient : Segment.Valid client) (hd : ∀ x ∈ d.names, Segment.Valid x) :
    ((i.Made ↔ i.Valid) ∧ (s.Made ↔ s.Valid)) ∧
    (∀ v, Identity.ofJson? v = some i ↔
      Identity.partNames.map v.member? = i.parts.map some ∨ v = .arr i.parts) ∧
    (∀ v, Subject.ofJson? v = some s ↔ v = .strings s.segments) ∧
    (i.Made → Topic.split (Topic.join (i.addressed group client)) = i.addressed group client) ∧
    (i.Made → s.Made → Topic.split (Topic.join (i.topicFor s)) = i.topicFor s ∧
      Topic.split (Topic.join (d.topicFor i s)) = d.topicFor i s) ∧
    ∀ topic ∈ [i.addressed group client, i.topicFor s, d.topicFor i s],
      Topic.split (Topic.join topic) = topic ↔ ∀ x ∈ topic, Topic.separator ∉ x.toList := by
  refine ⟨⟨Identity.made_iff, Subject.made_iff⟩, fun v => Identity.ofJson?_eq_some_iff,
    fun v => Subject.ofJson?_eq_some_iff, fun hi => ?_, fun hi hs => ?_, fun topic htopic => ?_⟩
  · exact Topic.split_join (i.valid_addressed (Identity.made_iff.1 hi) hgroup hclient)
  · rw [Identity.made_iff] at hi
    rw [Subject.made_iff] at hs
    exact ⟨Topic.split_join (valid_topicFor (d := own) hi nofun hs), Topic.split_join (valid_topicFor hi hd hs)⟩
  · have hlong : topic ≠ [""] := by
      simp only [List.mem_cons, List.not_mem_nil, or_false] at htopic
      rcases htopic with rfl | rfl | rfl
      · rw [← List.append_nil (i.addressed group client)]
        exact i.addressed_append_ne_singleton _ _ _ _
      · exact i.addressed_append_ne_singleton _ _ _ _
      · exact i.addressed_append_ne_singleton _ _ _ _
    rw [Topic.split_join_iff, and_iff_left hlong]

private def meter : Identity := ⟨["lab"], "sim", "plant", "c1"⟩

/-- A topic addressed to another client of the same group. -/
theorem comes_back_of_made_client :
    Topic.split (Topic.join ((client "plant" "c2").topicFor meter ⟨["valve", "open"]⟩)) =
      ["lab", "sim", "plant", "c2", "valve", "open"] := by
  have hplant : Segment.Valid "plant" := (Segment.validate_eq_ok_iff _ 0).1 rfl
  have hc2 : Segment.Valid "c2" := (Segment.validate_eq_ok_iff _ 0).1 rfl
  have hnames : ∀ x ∈ (client "plant" "c2").names, Segment.Valid x := by
    simp [names, hplant, hc2]
  obtain ⟨-, -, -, -, hback, -⟩ := comes_back_of_made (i := meter) (s := ⟨["valve", "open"]⟩) hplant hc2 hnames
  have hmeter : meter.Made := ⟨["lab"], "sim", "plant", "c1", rfl⟩
  exact (hback hmeter (.parsed "valve.open" rfl)).2

private def skid : Identity := ⟨["lab.rig"], "sim", "plant", "c1"⟩

/-- From an empty list a subject without segments is read, and from a namespace with a separator in it an identity
whose topics do not come back from their texts. -/
theorem read_unchecked :
    Subject.ofJson? (.arr []) = some ⟨[]⟩ ∧ ¬Subject.Valid ⟨[]⟩ ∧
      Identity.ofJson? (.object [("namespace", .strings ["lab.rig"]), ("app_id", .str "sim"),
        ("group_id", .str "plant"), ("client_id", .str "c1")]) = some skid ∧ ¬skid.Valid ∧
      Topic.split (Topic.join (skid.topicFor ⟨["step"]⟩)) ≠ skid.topicFor ⟨["step"]⟩ := by
  refine ⟨rfl, fun h => h.1 rfl, ?_, fun h => ?_, ?_⟩
  · exact Identity.ofJson?_eq_some_iff.2 (.inl rfl)
  · exact absurd (h "lab.rig" (by decide)).separator_notMem (by decide)
  · decide

end Destination

end Switchboard
