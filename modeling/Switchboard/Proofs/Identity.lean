import Switchboard.Topic.Identity

/-!
# Prefixes of a client

The prefixes that address a client are its address and the forms of it in which the group, the client or both are
replaced by the broadcast segment. The relative form of a path is what stands behind such a prefix, and the path
itself if it starts with none.
-/

namespace Switchboard.Identity

variable {i : Identity}

/-- A prefix of topics that the client takes for one of its own: that of its address, of its group or of its
application, and also that of its own name among all groups, which none of its filters has. -/
def Owns (i : Identity) (front : List String) : Prop :=
  ∃ group client, (group = i.group ∨ group = Segment.broadcast) ∧ (client = i.client ∨ client = Segment.broadcast) ∧
    front = i.addressed group client

theorem owns_address (i : Identity) : i.Owns i.address := ⟨i.group, i.client, .inl rfl, .inl rfl, rfl⟩

theorem Owns.ne_nil {front : List String} (h : i.Owns front) : front ≠ [] := by
  obtain ⟨group, client, -, -, rfl⟩ := h
  simp [addressed]

theorem ownedLength?_append {front : List String} (h : i.Owns front) (rest : List String) :
    i.ownedLength? (front ++ rest) = some front.length := by
  obtain ⟨group, client, hg, hc, rfl⟩ := h
  simp [ownedLength?, addressed, hg, hc]

/-- A path with a prefix that addresses the client starts with one of its prefixes, and the prefix ends there. -/
theorem exists_owned_of_ownedLength? {path : List String} {n : Nat} (h : i.ownedLength? path = some n) :
    ∃ front, i.Owns front ∧ path = front ++ path.drop n := by
  unfold ownedLength? at h
  split at h
  · rename_i app group client rest hdrop
    split at h
    · rename_i hfit
      obtain ⟨htake, rfl, hg, hc⟩ := hfit
      cases h
      refine ⟨i.addressed group client, ⟨group, client, hg, hc, rfl⟩, ?_⟩
      have hpath : path = i.namespaces ++ i.app :: group :: client :: rest := by
        rw [← List.take_append_drop i.namespaces.length path, htake, hdrop]
      subst hpath
      simp [addressed]
    · cases h
  · cases h

/-- Behind a prefix that addresses the client stands the relative form. -/
theorem relative_append {front : List String} (h : i.Owns front) (rest : List String) :
    i.relative (front ++ rest) = rest := by
  simp [relative, ownedLength?_append h]

/-- Without such a prefix a path is its own relative form. -/
theorem relative_of_not_owned {path : List String} (h : ∀ front, i.Owns front → ¬front <+: path) :
    i.relative path = path := by
  unfold relative
  split
  · rename_i n hn
    obtain ⟨front, hfront, hpath⟩ := exists_owned_of_ownedLength? hn
    exact absurd ⟨path.drop n, hpath.symm⟩ (h front hfront)
  · rfl

end Switchboard.Identity
