import Switchboard.Proofs.Topic.Subscription

/-!
# Prefixes owned and prefixes subscribed to

A client subscribes to what starts with one of three prefixes (`Identity.fronts`), and takes one of four for its own:
the fourth names the client itself within everyone's group. So all that it hears it takes for its own, but not the
other way round: the two differ on the paths with the fourth prefix, for every client without a reserved name
(`Identity.owned_iff_subscribed`).
-/

namespace Switchboard.Identity

variable {i : Identity} {path : List String}

/-- The prefixes of the topics to which a client subscribes: its address, and those of its group and its
application. -/
def fronts (i : Identity) : List (List String) :=
  [i.address, i.addressed i.group Segment.broadcast, i.addressed Segment.broadcast Segment.broadcast]

/-- The name of the client, but in everyone's group. -/
def strayFront (i : Identity) : List String := i.addressed Segment.broadcast i.client

/-! ### Prefixes -/

theorem owns_iff {front : List String} : i.Owns front ↔ front ∈ i.fronts ∨ front = i.strayFront := by
  simp only [fronts, strayFront, address, List.mem_cons, List.not_mem_nil, or_false]
  constructor
  · rintro ⟨group, client, rfl | rfl, rfl | rfl, rfl⟩
    · exact .inl (.inl rfl)
    · exact .inl (.inr (.inl rfl))
    · exact .inr rfl
    · exact .inl (.inr (.inr rfl))
  · rintro ((rfl | rfl | rfl) | rfl)
    · exact ⟨_, _, .inl rfl, .inl rfl, rfl⟩
    · exact ⟨_, _, .inl rfl, .inr rfl, rfl⟩
    · exact ⟨_, _, .inr rfl, .inr rfl, rfl⟩
    · exact ⟨_, _, .inr rfl, .inl rfl, rfl⟩

theorem valid_of_owns {front : List String} (hi : i.Valid) (h : i.Owns front) : ∀ s ∈ front, Segment.Valid s := by
  obtain ⟨group, client, hgroup, hclient, rfl⟩ := h
  apply i.valid_addressed hi
  · rcases hgroup with rfl | rfl
    · exact hi.group
    · exact Segment.valid_broadcast
  · rcases hclient with rfl | rfl
    · exact hi.client
    · exact Segment.valid_broadcast

theorem length_of_owns {front : List String} (h : i.Owns front) : front.length = i.namespaces.length + 3 := by
  obtain ⟨group, client, -, -, rfl⟩ := h
  simp [addressed]

/-- Two prefixes of a client that start one path are one prefix. -/
theorem eq_of_isPrefix {front front' : List String} (h : i.Owns front) (h' : i.Owns front') (hpath : front <+: path)
    (hpath' : front' <+: path) : front = front' := by
  have hlength : front.length = front'.length := (length_of_owns h).trans (length_of_owns h').symm
  exact (List.prefix_of_prefix_length_le hpath hpath' (Nat.le_of_eq hlength)).eq_of_length hlength

/-- The fourth prefix is one of the three if and only if the client has a reserved name. -/
theorem strayFront_mem_fronts_iff :
    i.strayFront ∈ i.fronts ↔ i.group = Segment.broadcast ∨ i.client = Segment.broadcast := by
  simp only [fronts, strayFront, address, addressed, List.mem_cons, List.not_mem_nil, or_false,
    List.append_cancel_left_eq, List.cons.injEq, and_true, true_and, eq_comm (a := Segment.broadcast)]
  constructor
  · rintro (hgroup | ⟨-, hclient⟩ | hclient)
    · exact .inl hgroup
    · exact .inr hclient
    · exact .inr hclient
  · rintro (hgroup | hclient)
    · exact .inl hgroup
    · exact .inr (.inr hclient)

/-! ### Paths -/

/-- A path has an owned length if and only if it starts with an owned prefix. -/
theorem isSome_ownedLength?_iff : (i.ownedLength? path).isSome = true ↔ ∃ front, i.Owns front ∧ front <+: path := by
  constructor
  · intro h
    obtain ⟨n, hn⟩ := Option.isSome_iff_exists.1 h
    obtain ⟨front, hfront, hpath⟩ := exists_owned_of_ownedLength? hn
    exact ⟨front, hfront, path.drop n, hpath.symm⟩
  · rintro ⟨front, hfront, rest, rfl⟩
    rw [ownedLength?_append hfront]
    rfl

/-- A filter of the client matches a topic if and only if the topic starts with one of the three prefixes. -/
theorem any_filters_iff_exists_front (hi : i.Valid) (hpath : ∀ s ∈ path, Segment.Valid s) :
    i.filters.any (Filter.covering · (Topic.join path)) = true ↔ ∃ front ∈ i.fronts, front <+: path := by
  by_cases hne : path = []
  · -- to a filter the empty topic is one empty segment, and every prefix is longer than that
    subst hne
    have hfilters : i.filters = i.fronts.map fun front => Topic.join (front ++ [Filter.anyRest]) := rfl
    have hpieces : Topic.pieces (Topic.join []) = [""] := by decide
    have hlong : ∀ front ∈ i.fronts, 1 < front.length := by
      intro front hfront
      rw [length_of_owns (owns_iff.2 (.inl hfront))]
      omega
    constructor
    · intro h
      rw [hfilters, List.any_map, List.any_eq_true] at h
      obtain ⟨front, hfront, hcovering⟩ := h
      have hvalid := valid_of_owns hi (owns_iff.2 (.inl hfront))
      have hprefix := (Filter.covering_append_anyRest_iff hvalid _).1 hcovering
      rw [hpieces] at hprefix
      exact absurd hprefix.length_le (Nat.not_le.2 (hlong front hfront))
    · rintro ⟨front, hfront, hprefix⟩
      exact absurd hprefix.length_le (Nat.not_le.2 (Nat.lt_of_succ_lt (hlong front hfront)))
  · rw [any_filters_iff hi hpath hne]
    simp [fronts]

/-- What a client hears it takes for its own, and what it takes for its own it hears, unless that starts with the name
of the client in everyone's group and the client has no reserved name. -/
theorem owned_iff_subscribed {namespaces : List String} {app group client : String}
    (hi : of? namespaces app group client = .ok i) (hpath : Segment.validateAll path = .ok ()) :
    (i.filters.any (Filter.covering · (Topic.join path)) = true → (i.ownedLength? path).isSome = true) ∧
    (((i.ownedLength? path).isSome = true ↔ i.filters.any (Filter.covering · (Topic.join path)) = true) ↔
      (i.addressed Segment.broadcast i.client <+: path →
        i.group = Segment.broadcast ∨ i.client = Segment.broadcast)) := by
  rw [any_filters_iff_exists_front (of?_eq_ok_iff.1 hi).2 ((Segment.validateAll_eq_ok_iff path).1 hpath),
    isSome_ownedLength?_iff, ← strayFront_mem_fronts_iff]
  have hheard : (∃ front ∈ i.fronts, front <+: path) → ∃ front, i.Owns front ∧ front <+: path := by
    rintro ⟨front, hfront, hprefix⟩
    exact ⟨front, owns_iff.2 (.inl hfront), hprefix⟩
  refine ⟨hheard, fun h hstray => ?_, fun h => ⟨?_, hheard⟩⟩
  · obtain ⟨front, hfront, hprefix⟩ := h.1 ⟨i.strayFront, owns_iff.2 (.inr rfl), hstray⟩
    -- a path starts with one prefix of the client only
    rw [eq_of_isPrefix (owns_iff.2 (.inr rfl)) (owns_iff.2 (.inl hfront)) hstray hprefix]
    exact hfront
  · rintro ⟨front, howns, hprefix⟩
    rcases owns_iff.1 howns with hfront | rfl
    · exact ⟨front, hfront, hprefix⟩
    · exact ⟨i.strayFront, h hprefix, hprefix⟩

private def pump : Identity := ⟨["lab"], "sim", "plant", "c1"⟩

/-- What is sent to the group of the client is heard, as it should be. -/
theorem owned_iff_subscribed_group :
    (pump.ownedLength? ["lab", "sim", "plant", "_all", "step"]).isSome = true ∧
      pump.filters.any (Filter.covering · (Topic.join ["lab", "sim", "plant", "_all", "step"])) = true := by
  have hpump : of? ["lab"] "sim" "plant" "c1" = .ok pump := rfl
  have hpath : Segment.validateAll ["lab", "sim", "plant", "_all", "step"] = .ok () := rfl
  obtain ⟨-, hagree⟩ := owned_iff_subscribed hpump hpath
  have howned : (pump.ownedLength? ["lab", "sim", "plant", "_all", "step"]).isSome = true := by decide
  have hsame := hagree.2 fun hstray => absurd hstray (by decide)
  exact ⟨howned, hsame.1 howned⟩

/-- A topic with the name of the client in everyone's group is taken for its own, though none of its filters
matches. -/
theorem owned_unsubscribed : of? ["lab"] "sim" "plant" "c1" = .ok pump ∧
    Segment.validateAll ["lab", "sim", "_all", "c1", "step"] = .ok () ∧
      ¬((pump.ownedLength? ["lab", "sim", "_all", "c1", "step"]).isSome = true ↔
        pump.filters.any (Filter.covering · (Topic.join ["lab", "sim", "_all", "c1", "step"])) = true) := by
  refine ⟨rfl, rfl, fun h => ?_⟩
  have hsilent : pump.filters.any (Filter.covering · (Topic.join ["lab", "sim", "_all", "c1", "step"])) = false := by
    decide +kernel
  exact Bool.false_ne_true (hsilent.symm.trans (h.1 (by decide)))

end Switchboard.Identity
