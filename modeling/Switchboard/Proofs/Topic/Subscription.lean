import Switchboard.Proofs.Identity
import Switchboard.Proofs.Topic.Segment
import Switchboard.Topic.Destination

/-!
# Who is addressed

A client subscribes to the topics that start with its address, with the broadcast address of its group, or with that
of its application (`Identity.any_filters_iff`). So of the clients of one application a message reaches exactly those
that its destination addresses, and each of them finds the subject behind the address
(`Destination.heard_iff_addressed`).
-/

namespace Switchboard

/-! ### Filters -/

namespace Filter

/-- A filter that ends with a wildcard for any rest covers what starts with its other segments. -/
theorem covers_append_anyRest_iff {front : List String} (hfront : ∀ s ∈ front, Segment.Valid s)
    (topic : List String) :
    covers (front ++ [anyRest]) topic = true ↔ front <+: topic := by
  induction front generalizing topic with
  | nil => simp [covers]
  | cons s front ih =>
    rw [List.forall_mem_cons] at hfront
    rw [List.cons_append, covers.eq_def]
    simp only [if_neg hfront.1.ne_anyRest]
    cases topic with
    | nil => simp
    | cons t topic =>
      simp [ih hfront.2, hfront.1.ne_anyOne, List.cons_prefix_cons]

/-- So its text matches the texts whose pieces start with these segments. -/
theorem covering_append_anyRest_iff {front : List String} (hfront : ∀ s ∈ front, Segment.Valid s) (topic : String) :
    covering (Topic.join (front ++ [anyRest])) topic = true ↔ front <+: Topic.pieces topic := by
  have hfilter : Topic.pieces (Topic.join (front ++ [anyRest])) = front ++ [anyRest] := by
    apply Topic.pieces_join (by simp)
    intro s hs
    rcases List.mem_append.1 hs with hs | hs
    · exact (hfront s hs).separator_notMem
    · rw [List.mem_singleton.1 hs]
      decide
  rw [covering, hfilter, covers_append_anyRest_iff hfront]

theorem covering_join_iff {front path : List String} (hfront : ∀ s ∈ front, Segment.Valid s)
    (hpath : ∀ s ∈ path, Segment.Valid s) (hne : path ≠ []) :
    covering (Topic.join (front ++ [anyRest])) (Topic.join path) = true ↔ front <+: path := by
  rw [covering_append_anyRest_iff hfront, Topic.pieces_join hne fun s hs => (hpath s hs).separator_notMem]

end Filter

namespace Identity

variable {i : Identity}

theorem valid_addressed (hi : i.Valid) {group client : String} (hgroup : Segment.Valid group)
    (hclient : Segment.Valid client) : ∀ s ∈ i.addressed group client, Segment.Valid s := by
  have happ : ∀ s ∈ i.namespaces ++ [i.app], Segment.Valid s := by
    intro s hs
    apply hi s
    rcases List.mem_append.1 hs with hs | hs
    · exact List.mem_append_left _ hs
    · rw [List.mem_singleton.1 hs]
      simp [address, addressed]
  intro s hs
  simp only [addressed, List.mem_append, List.mem_cons, List.not_mem_nil, or_false] at hs
  rcases hs with hs | rfl | rfl | rfl
  · exact happ s (List.mem_append_left _ hs)
  · exact happ _ (by simp)
  · exact hgroup
  · exact hclient

theorem of?_eq_ok_iff {namespaces : List String} {app group client : String} :
    of? namespaces app group client = .ok i ↔ i = ⟨namespaces, app, group, client⟩ ∧ i.Valid := by
  have hof : of? namespaces app group client =
      (Segment.validateAll (Identity.mk namespaces app group client).address).map
        fun _ => Identity.mk namespaces app group client := rfl
  rw [hof]
  constructor
  · intro h
    cases hvalid : Segment.validateAll (Identity.mk namespaces app group client).address with
    | error e =>
      rw [hvalid] at h
      cases h
    | ok u =>
      rw [hvalid] at h
      cases h
      exact ⟨rfl, (Segment.validateAll_eq_ok_iff _).1 hvalid⟩
  · rintro ⟨rfl, hvalid⟩
    rw [(Segment.validateAll_eq_ok_iff _).2 hvalid]
    rfl

theorem Valid.group (hi : i.Valid) : Segment.Valid i.group := hi _ (by simp [address, addressed])

theorem Valid.client (hi : i.Valid) : Segment.Valid i.client := hi _ (by simp [address, addressed])

/-- A client subscribes to what starts with one of three addresses. -/
theorem any_filters_iff (hi : i.Valid) {path : List String} (hpath : ∀ s ∈ path, Segment.Valid s) (hne : path ≠ []) :
    i.filters.any (Filter.covering · (Topic.join path)) = true ↔
      i.address <+: path ∨ i.addressed i.group Segment.broadcast <+: path ∨
        i.addressed Segment.broadcast Segment.broadcast <+: path := by
  have hgroup := i.valid_addressed hi hi.group Segment.valid_broadcast
  have hall := i.valid_addressed hi Segment.valid_broadcast Segment.valid_broadcast
  simp only [filters, List.map_cons, List.map_nil, List.any_cons, List.any_nil, Bool.or_false, Bool.or_eq_true,
    Filter.covering_join_iff hi hpath hne, Filter.covering_join_iff hgroup hpath hne,
    Filter.covering_join_iff hall hpath hne]

/-- Two clients of one application. -/
def SharesApp (i j : Identity) : Prop := i.namespaces = j.namespaces ∧ i.app = j.app

/-- Clients of one application with the same group and name are called the same. -/
theorem SharesApp.eq_of_names {j : Identity} (h : i.SharesApp j) (hgroup : i.group = j.group)
    (hclient : i.client = j.client) : i = j := by
  obtain ⟨hnamespaces, happ⟩ := h
  cases i
  cases j
  simp only at hnamespaces happ hgroup hclient
  rw [hnamespaces, happ, hgroup, hclient]

theorem addressed_isPrefix_iff {j : Identity} (h : i.SharesApp j) (group client group' client' : String)
    (rest : List String) :
    i.addressed group client <+: j.addressed group' client' ++ rest ↔ group = group' ∧ client = client' := by
  obtain ⟨hnamespaces, happ⟩ := h
  simp only [addressed, hnamespaces, happ, List.append_assoc, List.prefix_append_right_inj, List.cons_append,
    List.nil_append, List.cons_prefix_cons, List.nil_prefix, true_and, and_true]

/-- A client hears what another client of its application sends to a group and a client if they are its own, or its
group and everyone there, or everyone. -/
theorem any_filters_addressed_iff {j : Identity} (hi : i.Valid) (hj : j.Valid) (h : i.SharesApp j)
    {group client : String} (hgroup : Segment.Valid group) (hclient : Segment.Valid client) {rest : List String}
    (hrest : ∀ s ∈ rest, Segment.Valid s) :
    i.filters.any (Filter.covering · (Topic.join (j.addressed group client ++ rest))) = true ↔
      (i.group = group ∧ i.client = client) ∨ (i.group = group ∧ Segment.broadcast = client) ∨
        (Segment.broadcast = group ∧ Segment.broadcast = client) := by
  have hpath : ∀ s ∈ j.addressed group client ++ rest, Segment.Valid s := by
    intro s hs
    rcases List.mem_append.1 hs with hs | hs
    · exact j.valid_addressed hj hgroup hclient s hs
    · exact hrest s hs
  rw [any_filters_iff hi hpath (by simp [addressed]), address, addressed_isPrefix_iff h, addressed_isPrefix_iff h,
    addressed_isPrefix_iff h]

end Identity

theorem Subject.ofSegments_eq_ok_iff {segments : List String} {s : Subject} :
    Subject.ofSegments segments = .ok s ↔ s = ⟨segments⟩ ∧ s.Valid := by
  unfold ofSegments
  split
  · rename_i hempty
    constructor
    · intro h
      cases h
    · rintro ⟨rfl, hne, -⟩
      exact absurd (List.isEmpty_iff.1 hempty) hne
  · rename_i hne
    rw [List.isEmpty_iff] at hne
    constructor
    · intro h
      cases hvalid : Segment.validateAll segments with
      | error e =>
        rw [hvalid] at h
        cases h
      | ok u =>
        rw [hvalid] at h
        cases h
        exact ⟨rfl, hne, (Segment.validateAll_eq_ok_iff _).1 hvalid⟩
    · rintro ⟨rfl, -, hvalid⟩
      rw [(Segment.validateAll_eq_ok_iff segments).2 hvalid]
      rfl

/-! ### Destinations -/

namespace Destination

/-- The groups and clients that a destination names. -/
def names : Destination → List String
  | all | own => []
  | group g => [g]
  | client g c => [g, c]

/-- The clients that a destination of a sender stands for, among those of the same application. -/
def Addresses (d : Destination) (source i : Identity) : Prop :=
  match d with
  | all => True
  | group g => i.group = g
  | client g c => i.group = g ∧ i.client = c
  | own => i.group = source.group ∧ i.client = source.client

variable {d : Destination} {source i : Identity}

theorem valid_groupFor (hsource : source.Valid) (hd : ∀ s ∈ d.names, Segment.Valid s) :
    Segment.Valid (d.groupFor source) := by
  cases d with
  | all => exact Segment.valid_broadcast
  | group g => exact hd g (by simp [names])
  | client g c => exact hd g (by simp [names])
  | own => exact hsource.group

theorem valid_clientFor (hsource : source.Valid) (hd : ∀ s ∈ d.names, Segment.Valid s) :
    Segment.Valid (d.clientFor source) := by
  cases d with
  | all => exact Segment.valid_broadcast
  | group g => exact Segment.valid_broadcast
  | client g c => exact hd c (by simp [names])
  | own => exact hsource.client

theorem valid_topicFor (hsource : source.Valid) (hd : ∀ s ∈ d.names, Segment.Valid s) {subject : Subject}
    (hsubject : subject.Valid) : ∀ s ∈ d.topicFor source subject, Segment.Valid s := by
  intro s hs
  rcases List.mem_append.1 hs with hs | hs
  · exact source.valid_addressed hsource (valid_groupFor hsource hd) (valid_clientFor hsource hd) s hs
  · exact hsubject.2 s hs

/-- A message reaches exactly the clients that its destination addresses. -/
theorem any_filters_topicFor_iff (hsource : source.Valid) (hi : i.Valid) (h : i.SharesApp source)
    (hreserved : source.group ≠ Segment.broadcast ∧ source.client ≠ Segment.broadcast)
    (hd : ∀ s ∈ d.names, Segment.Valid s ∧ s ≠ Segment.broadcast) {subject : Subject} (hsubject : subject.Valid) :
    i.filters.any (Filter.covering · (Topic.join (d.topicFor source subject))) = true ↔ d.Addresses source i := by
  have hvalid : ∀ s ∈ d.names, Segment.Valid s := fun s hs => (hd s hs).1
  rw [topicFor, Identity.any_filters_addressed_iff hi hsource h (valid_groupFor hsource hvalid)
    (valid_clientFor hsource hvalid) hsubject.2]
  cases d with
  | all => simp [groupFor, clientFor, Addresses]
  | group g =>
    have hg := (hd g (by simp [names])).2
    simp only [groupFor, clientFor, Addresses, and_true, Ne.symm hg, or_false]
    constructor
    · rintro (⟨hgroup, -⟩ | hgroup) <;> exact hgroup
    · exact .inr
  | client g c =>
    have hc := (hd c (by simp [names])).2
    simp [groupFor, clientFor, Addresses, Ne.symm hc]
  | own => simp [groupFor, clientFor, Addresses, Ne.symm hreserved.2]

/-- A client that a destination addresses finds the subject behind the address. -/
theorem relative_topicFor (h : i.SharesApp source) (haddressed : d.Addresses source i) (subject : Subject) :
    i.relative (d.topicFor source subject) = subject.segments := by
  have howns : i.Owns (source.addressed (d.groupFor source) (d.clientFor source)) := by
    refine ⟨d.groupFor source, d.clientFor source, ?_, ?_, ?_⟩
    · cases d with
      | all => exact .inr rfl
      | group g => exact .inl haddressed.symm
      | client g c => exact .inl haddressed.1.symm
      | own => exact .inl haddressed.1.symm
    · cases d with
      | all => exact .inr rfl
      | group g => exact .inr rfl
      | client g c => exact .inl haddressed.2.symm
      | own => exact .inl haddressed.2.symm
    · rw [Identity.addressed, Identity.addressed, h.1, h.2]
  exact Identity.relative_append howns _

/-- Among the clients of one application a message is heard exactly by those that its destination addresses, and each
of these finds what the message is about behind the address. -/
theorem heard_iff_addressed {receiver : Identity} {namespaces segments : List String}
    {app group client group' client' : String} (hsource : Identity.of? namespaces app group client = .ok source)
    (hreceiver : Identity.of? namespaces app group' client' = .ok receiver)
    (hreserved : group ≠ Segment.broadcast ∧ client ≠ Segment.broadcast)
    (hd : ∀ s ∈ d.names, Segment.Valid s ∧ s ≠ Segment.broadcast) {subject : Subject}
    (hsubject : Subject.ofSegments segments = .ok subject) :
    (receiver.filters.any (Filter.covering · (Topic.join (d.topicFor source subject))) = true ↔
      d.Addresses source receiver) ∧
    (d.Addresses source receiver →
      receiver.relative (Topic.split (Topic.join (d.topicFor source subject))) = segments) := by
  obtain ⟨rfl, hsource⟩ := Identity.of?_eq_ok_iff.1 hsource
  obtain ⟨rfl, hreceiver⟩ := Identity.of?_eq_ok_iff.1 hreceiver
  obtain ⟨rfl, hsubject⟩ := Subject.ofSegments_eq_ok_iff.1 hsubject
  have hshared : Identity.SharesApp ⟨namespaces, app, group', client'⟩ ⟨namespaces, app, group, client⟩ := ⟨rfl, rfl⟩
  refine ⟨any_filters_topicFor_iff hsource hreceiver hshared hreserved hd hsubject, fun haddressed => ?_⟩
  rw [Topic.split_join (valid_topicFor hsource (fun s hs => (hd s hs).1) hsubject)]
  exact relative_topicFor hshared haddressed _

private def valve : Identity := ⟨["lab"], "sim", "plant", "c1"⟩

private def desk : Identity := ⟨["lab"], "sim", "ctrl", "c9"⟩

/-- What the desk sends to the group of the valve reaches the valve, also if the subject looks like the address of the
valve; what it sends to itself does not. -/
theorem heard_iff_addressed_group :
    valve.filters.any (Filter.covering ·
        (Topic.join ((group "plant").topicFor desk ⟨["lab", "sim", "plant", "c1", "step"]⟩))) = true ∧
      valve.relative (Topic.split
        (Topic.join ((group "plant").topicFor desk ⟨["lab", "sim", "plant", "c1", "step"]⟩))) =
          ["lab", "sim", "plant", "c1", "step"] ∧
      valve.filters.any (Filter.covering · (Topic.join (own.topicFor desk ⟨["step"]⟩))) = false := by
  have hplant : ∀ s ∈ (group "plant").names, Segment.Valid s ∧ s ≠ Segment.broadcast := by
    intro s hs
    obtain rfl := List.mem_singleton.1 hs
    exact ⟨(Segment.validate_eq_ok_iff _ 0).1 rfl, by decide⟩
  have hdesk : Identity.of? ["lab"] "sim" "ctrl" "c9" = .ok desk := rfl
  have hvalve : Identity.of? ["lab"] "sim" "plant" "c1" = .ok valve := rfl
  have hstep : Subject.ofSegments ["step"] = .ok ⟨["step"]⟩ := rfl
  have hlong : Subject.ofSegments ["lab", "sim", "plant", "c1", "step"] =
      .ok ⟨["lab", "sim", "plant", "c1", "step"]⟩ := rfl
  have hreserved : "ctrl" ≠ Segment.broadcast ∧ "c9" ≠ Segment.broadcast := ⟨by decide, by decide⟩
  obtain ⟨hheard, hfound⟩ := heard_iff_addressed hdesk hvalve hreserved hplant hlong
  obtain ⟨hown, -⟩ := heard_iff_addressed (d := own) hdesk hvalve hreserved (by simp [names]) hstep
  refine ⟨hheard.2 rfl, hfound rfl, Bool.eq_false_iff.2 fun h => ?_⟩
  obtain ⟨hgroup, -⟩ := hown.1 h
  exact absurd hgroup (by decide)

end Destination

end Switchboard
