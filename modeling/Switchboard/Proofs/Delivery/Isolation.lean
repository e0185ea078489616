import Switchboard.Proofs.Delivery.Closing
import Switchboard.Proofs.Topic.Ownership

/-!
# Applications on one broker

Topics are flat lists of segments, and the application of a sender is no more than a prefix of its topics: the
namespace and the name of the application. A client of another application subscribes to prefixes as well, and hears a
topic that starts with one of them, wherever the application of the sender ends in it.

* (topics) behind the application a sender can have any three segments or more (`Destination.exists_topicFor_eq`), so
  some topic of it starts with a given prefix if and only if the prefix and the application start one another;
* (isolation) a client hears nothing of a sender if and only if no prefix it subscribes to and the application of the
  sender start one another; for two applications at the same depth this is always so (`Bus.isolated_iff`).
-/

namespace Switchboard

namespace Identity

variable {i j : Identity}

/-- The segments that name the application of a client. -/
def application (i : Identity) : List String := i.namespaces ++ [i.app]

/-- Neither application starts with the other. -/
def Apart (i j : Identity) : Prop := ¬i.application <+: j.application ∧ ¬j.application <+: i.application

theorem addressed_eq (i : Identity) (group client : String) :
    i.addressed group client = i.application ++ [group, client] := by
  simp [addressed, application]

/-- A client subscribes to prefixes of its own application only. -/
theorem application_isPrefix_of_mem_fronts {front : List String} (h : front ∈ i.fronts) :
    i.application <+: front := by
  simp only [fronts, address, addressed_eq, List.mem_cons, List.not_mem_nil, or_false] at h
  rcases h with rfl | rfl | rfl <;> exact List.prefix_append _ _

/-- Different applications at the same depth do not start one another. -/
theorem apart_of_length_eq (hdiffer : i.namespaces ≠ j.namespaces ∨ i.app ≠ j.app)
    (hlength : i.namespaces.length = j.namespaces.length) : i.Apart j := by
  have hsame : i.application.length = j.application.length := by simp [application, hlength]
  have hne : i.application ≠ j.application := by
    intro heq
    obtain ⟨hnamespaces, happ⟩ := List.append_inj heq hlength
    rcases hdiffer with h | h
    · exact h hnamespaces
    · exact h (List.singleton_inj.1 happ)
  exact ⟨fun h => hne (h.eq_of_length hsame), fun h => hne (h.eq_of_length hsame.symm).symm⟩

end Identity

/-! ### The topics of an application -/

namespace Destination

variable {source : Identity}

theorem application_isPrefix_topicFor (d : Destination) (source : Identity) (subject : Subject) :
    source.application <+: d.topicFor source subject := by
  rw [topicFor, Identity.addressed_eq, List.append_assoc]
  exact List.prefix_append _ _

/-- A sender has every topic of at least three valid segments behind its application. -/
theorem exists_topicFor_eq (source : Identity) {rest : List String} (hvalid : ∀ s ∈ rest, Segment.Valid s)
    (hlength : 3 ≤ rest.length) :
    ∃ (d : Destination) (subject : Subject), (∀ s ∈ d.names, Segment.Valid s) ∧ subject.Valid ∧
      d.topicFor source subject = source.application ++ rest := by
  match rest with
  | g :: c :: s :: r =>
    refine ⟨.client g c, ⟨s :: r⟩, fun x hx => hvalid x ?_, ⟨nofun, fun x hx => hvalid x ?_⟩, ?_⟩
    · exact List.mem_append_left (s :: r) hx
    · exact List.mem_append_right [g, c] hx
    · simp [topicFor, groupFor, clientFor, Identity.addressed_eq]
  | [] | [_] | [_, _] => simp at hlength

/-- Some topic of a sender starts with a list of valid segments if and only if that list and the application of the
sender start one another. -/
theorem exists_isPrefix_topicFor_iff {front : List String} (hfront : ∀ s ∈ front, Segment.Valid s) :
    (∃ (d : Destination) (subject : Subject), (∀ s ∈ d.names, Segment.Valid s) ∧ subject.Valid ∧
      front <+: d.topicFor source subject) ↔ front <+: source.application ∨ source.application <+: front := by
  constructor
  · rintro ⟨d, subject, -, -, hprefix⟩
    exact List.prefix_or_prefix_of_prefix hprefix (application_isPrefix_topicFor d source subject)
  · intro hcomparable
    -- three more segments make a topic of whatever stands behind the application
    have hrest : ∃ rest, (∀ s ∈ rest, Segment.Valid s) ∧ front <+: source.application ++ rest := by
      rcases hcomparable with hshort | ⟨rest, rfl⟩
      · exact ⟨[], nofun, by rwa [List.append_nil]⟩
      · exact ⟨rest, fun s hs => hfront s (List.mem_append_right _ hs), List.prefix_refl _⟩
    obtain ⟨rest, hvalid, hprefix⟩ := hrest
    have hpadded : ∀ s ∈ rest ++ List.replicate 3 Segment.broadcast, Segment.Valid s := by
      intro s hs
      rcases List.mem_append.1 hs with hs | hs
      · exact hvalid s hs
      · exact List.eq_of_mem_replicate hs ▸ Segment.valid_broadcast
    obtain ⟨d, subject, hd, hsubject, htopic⟩ := exists_topicFor_eq source hpadded (by simp)
    refine ⟨d, subject, hd, hsubject, ?_⟩
    rw [htopic, ← List.append_assoc]
    exact hprefix.trans (List.prefix_append _ _)

end Destination

/-! ### Isolation -/

namespace Identity

variable {sender receiver : Identity}

/-- A client hears no topic of a sender if and only if no prefix that it subscribes to and the application of the
sender start one another. -/
theorem hears_none_iff (hsender : sender.Valid) (hreceiver : receiver.Valid) :
    (∀ (d : Destination) (subject : Subject), (∀ s ∈ d.names, Segment.Valid s) → subject.Valid →
      receiver.filters.any (Filter.covering · (Topic.join (d.topicFor sender subject))) = false) ↔
      ∀ front ∈ receiver.fronts, ¬front <+: sender.application ∧ ¬sender.application <+: front := by
  have hvalid : ∀ front ∈ receiver.fronts, ∀ s ∈ front, Segment.Valid s :=
    fun front hfront => valid_of_owns hreceiver (owns_iff.2 (.inl hfront))
  constructor
  · intro hsilent front hfront
    rw [← not_or, ← Destination.exists_isPrefix_topicFor_iff (hvalid front hfront)]
    rintro ⟨d, subject, hd, hsubject, hprefix⟩
    have htopic := Destination.valid_topicFor hsender hd hsubject
    have hheard := (any_filters_iff_exists_front hreceiver htopic).2 ⟨front, hfront, hprefix⟩
    exact Bool.false_ne_true ((hsilent d subject hd hsubject).symm.trans hheard)
  · intro hapart d subject hd hsubject
    have htopic := Destination.valid_topicFor hsender hd hsubject
    rw [Bool.eq_false_iff, ne_eq, any_filters_iff_exists_front hreceiver htopic]
    rintro ⟨front, hfront, hprefix⟩
    have hcomparable := (Destination.exists_isPrefix_topicFor_iff (hvalid front hfront)).1
      ⟨d, subject, hd, hsubject, hprefix⟩
    exact not_or.2 (hapart front hfront) hcomparable

/-- If the applications do not start one another, neither do the prefixes and the application of the sender. -/
theorem Apart.fronts (h : sender.Apart receiver) :
    ∀ front ∈ receiver.fronts, ¬front <+: sender.application ∧ ¬sender.application <+: front := by
  intro front hfront
  have hown := application_isPrefix_of_mem_fronts hfront
  refine ⟨fun hshort => h.2 (hown.trans hshort), fun hlong => ?_⟩
  rcases List.prefix_or_prefix_of_prefix hlong hown with hstart | hstart
  · exact h.1 hstart
  · exact h.2 hstart

end Identity

namespace Bus

/-- A client hears nothing of a sender if and only if no prefix that it subscribes to and the application of the
sender start one another. So applications that do not start one another are isolated, and different applications at
the same depth never do: whatever happens on the bus, no message of the one is passed to a connection of the other. -/
theorem isolated_iff {sender receiver : Identity} {namespaces namespaces' : List String}
    {app group client app' group' client' : String} (hsender : Identity.of? namespaces app group client = .ok sender)
    (hreceiver : Identity.of? namespaces' app' group' client' = .ok receiver) :
    ((∀ (d : Destination) (subject : Subject), (∀ s ∈ d.names, Segment.Valid s) → subject.Valid →
        receiver.filters.any (Filter.covering · (Topic.join (d.topicFor sender subject))) = false) ↔
      ∀ front ∈ receiver.fronts, ¬front <+: sender.application ∧ ¬sender.application <+: front) ∧
    (sender.Apart receiver →
      ∀ (d : Destination) (subject : Subject), (∀ s ∈ d.names, Segment.Valid s) → subject.Valid →
        receiver.filters.any (Filter.covering · (Topic.join (d.topicFor sender subject))) = false ∧
        ∀ (room : Nat) (opening operations : List Operation) (b : Bus) (j e : Nat),
          ((empty room).performAll opening).Opens j e receiver b → (∀ o ∈ operations, o.LeavesTo e) →
          j ∉ (b.performAll operations).reachedClients (Topic.join (d.topicFor sender subject))) ∧
    (namespaces ≠ namespaces' ∨ app ≠ app' → namespaces.length = namespaces'.length → sender.Apart receiver) := by
  obtain ⟨rfl, hsender⟩ := Identity.of?_eq_ok_iff.1 hsender
  obtain ⟨rfl, hreceiver⟩ := Identity.of?_eq_ok_iff.1 hreceiver
  have hiff := Identity.hears_none_iff hsender hreceiver
  refine ⟨hiff, fun hapart d subject hd hsubject => ?_, fun hdiffer hlength => ?_⟩
  · have hsilent := hiff.2 hapart.fronts d subject hd hsubject
    refine ⟨hsilent, fun room opening operations b j e hopens hoperations => ?_⟩
    have hb : b.Sound := hopens.sound (sound_performAll room opening)
    have hmoored := (hopens.moored (lt_length_of_listener room opening)).performAll hb hoperations
    rw [hmoored.mem_reachedClients_iff (hb.performAll operations), hsilent]
    exact fun hreached => Bool.false_ne_true hreached.2.2
  · exact Identity.apart_of_length_eq hdiffer hlength

private def northGate : Identity := ⟨[], "canal", "north", "gate"⟩

private def eastSluice : Identity := ⟨["canal"], "lock", "east", "sluice"⟩

private def ferry : Identity := ⟨["river"], "lock", "east", "sluice"⟩

/-- The ferry, on the only endpoint. -/
private def ferryOpened : Except BusError Nat × Bus :=
  (empty.performAll [.create]).openOn ferry 0 (.empty .standard .json 4)

/-- What an application without a namespace sends to a client `lock.east` is not heard by a client with that address
in another namespace, also after its connection was lost and made again. -/
theorem isolated_iff_ferry : northGate.Apart ferry ∧
    ferry.filters.any (Filter.covering ·
      (Topic.join ((Destination.client "lock" "east").topicFor northGate ⟨["sluice", "level"]⟩))) = false ∧
    0 ∉ (ferryOpened.2.performAll [.lose 0 "cable", .connect 0]).reachedClients
      (Topic.join ((Destination.client "lock" "east").topicFor northGate ⟨["sluice", "level"]⟩)) := by
  have hgate : Identity.of? [] "canal" "north" "gate" = .ok northGate := rfl
  have hferry : Identity.of? ["river"] "lock" "east" "sluice" = .ok ferry := rfl
  have hapart : northGate.Apart ferry := ⟨by decide, by decide⟩
  have hnames : ∀ s ∈ (Destination.client "lock" "east").names, Segment.Valid s :=
    (Segment.validateAll_eq_ok_iff _).1 rfl
  have hbuilt : Subject.ofSegments ["sluice", "level"] = .ok ⟨["sluice", "level"]⟩ := rfl
  have hsubject := (Subject.ofSegments_eq_ok_iff.1 hbuilt).2
  have hopens : (empty.performAll [.create]).Opens 0 0 ferry ferryOpened.2 :=
    .openOn ⟨rfl, nofun⟩ (.empty .standard .json 4) (EncoderPool.sound_empty .standard .json 4) rfl
  obtain ⟨-, hisolated, -⟩ := isolated_iff hgate hferry
  obtain ⟨hsilent, hreached⟩ := hisolated hapart _ _ hnames hsubject
  exact ⟨hapart, hsilent, hreached usualRoom [.create] _ _ 0 0 hopens (by simp [Operation.LeavesTo])⟩

/-- Where the namespace of the one starts with the application of the other, a topic of that application can spell a
prefix that the client subscribes to. -/
theorem nested_application_heard : Identity.of? [] "canal" "north" "gate" = .ok northGate ∧
    Identity.of? ["canal"] "lock" "east" "sluice" = .ok eastSluice ∧
      (northGate.namespaces ≠ eastSluice.namespaces ∨ northGate.app ≠ eastSluice.app) ∧
        (∀ s ∈ (Destination.client "lock" "east").names, Segment.Valid s) ∧
          Subject.ofSegments ["sluice", "level"] = .ok ⟨["sluice", "level"]⟩ ∧
            eastSluice.filters.any (Filter.covering ·
              (Topic.join ((Destination.client "lock" "east").topicFor northGate ⟨["sluice", "level"]⟩))) = true := by
  refine ⟨rfl, rfl, .inl (by decide), (Segment.validateAll_eq_ok_iff _).1 rfl, rfl, ?_⟩
  decide +kernel

end Bus

end Switchboard
