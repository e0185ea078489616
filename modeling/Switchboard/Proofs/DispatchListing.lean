import Switchboard.Proofs.DispatchTree

/-!
# Listings of dispatch trees

A list of relative paths with handlers is a listing of a tree if it names each handler of the tree once and nothing
else (`DispatchTree.Lists`). Additions append to a listing, and removals strike out.
-/

namespace Switchboard.DispatchTree

variable {H : Type} {t t' : DispatchTree H} {l : List (List String × H)} {path : List String}

/-- What a tree holds, each handler under the relative form of its paths, and how many there are. -/
structure Lists (t : DispatchTree H) (l : List (List String × H)) : Prop where
  nodup : (l.map (·.1)).Nodup
  get?_iff : ∀ path h, t.get? path = some h ↔ (t.owner.relative path, h) ∈ l
  count : t.count = l.length

theorem lists_empty (owner : Identity) : (empty owner : DispatchTree H).Lists [] := by
  refine ⟨List.nodup_nil, fun path h => ?_, rfl⟩
  rw [(wellFormed_empty owner).get?_eq]
  simp [empty, DispatchNode.find?_vacant]

namespace Lists

/-- Whatever is on a listing is found behind the address of the owner. -/
theorem get?_of_mem (hl : t.Lists l) {key : List String} {h : H} (hmem : (key, h) ∈ l) :
    t.get? (t.owner.address ++ key) = some h := by
  rw [hl.get?_iff, Identity.relative_append t.owner.owns_address]
  exact hmem

theorem get?_congr (hl : t.Lists l) {q : List String} (hq : t.owner.relative path = t.owner.relative q) :
    t.get? path = t.get? q := by
  refine Option.ext fun h => ?_
  rw [hl.get?_iff, hl.get?_iff, hq]

theorem add (hl : t.Lists l) (ht : t.WellFormed) {h : H} (ha : t.add path h = .ok t') :
    t'.Lists (l ++ [(t.owner.relative path, h)]) := by
  have hfree := (ht.add_eq_ok ha).2.1
  have hnew : ∀ h', (t.owner.relative path, h') ∉ l := by
    intro h' hmem
    rw [(hl.get?_iff path h').2 hmem] at hfree
    cases hfree
  refine ⟨?_, fun q h' => ?_, ?_⟩
  · rw [List.map_append, List.map_singleton, List.nodup_append]
    refine ⟨hl.nodup, List.pairwise_singleton _ _, fun key hkey key' hkey' heq => ?_⟩
    obtain ⟨⟨_, h'⟩, hmem, rfl⟩ := List.mem_map.1 hkey
    obtain rfl : key' = t.owner.relative path := List.mem_singleton.1 hkey'
    subst heq
    exact hnew h' hmem
  · rw [ht.get?_add ha, ht.owner_of_add ha, List.mem_append, List.mem_singleton, Prod.mk.injEq]
    split
    · rename_i hq
      rw [← hq]
      simp [hnew, eq_comm]
    · rename_i hq
      simp [hl.get?_iff, Ne.symm hq]
  · rw [ht.count_add ha, hl.count, List.length_append, List.length_singleton]

/-- At most one item is struck out. -/
private theorem length_filter (hl : t.Lists l) (path : List String) (chosen : H → Bool) :
    (l.filter fun e => !(e.1 == t.owner.relative path && chosen e.2)).length +
      ((t.get? path).filter chosen).toList.length = l.length := by
  cases hget : (t.get? path).filter chosen with
  | none =>
    rw [List.filter_eq_self.2]
    · rfl
    · rintro ⟨key, h⟩ hmem
      by_cases hkey : key = t.owner.relative path
      · subst hkey
        rw [(hl.get?_iff path h).2 hmem] at hget
        simpa [Option.filter] using hget
      · simp [hkey]
  | some h =>
    obtain ⟨hfound, hchosen⟩ := Option.filter_eq_some_iff.1 hget
    obtain ⟨front, back, rfl⟩ := List.append_of_mem ((hl.get?_iff path h).1 hfound)
    have hnodup := hl.nodup
    rw [List.map_append, List.map_cons, List.nodup_append, List.nodup_cons] at hnodup
    obtain ⟨-, ⟨hback, -⟩, hfront⟩ := hnodup
    have hkept : ∀ e, e ∈ front ∨ e ∈ back → (!(e.1 == t.owner.relative path && chosen e.2)) = true := by
      rintro e (he | he)
      · have hne := hfront e.1 (List.mem_map_of_mem he) _ List.mem_cons_self
        simp [hne]
      · have hne : e.1 ≠ t.owner.relative path := fun heq => hback (List.mem_map.2 ⟨e, he, heq⟩)
        simp [hne]
    rw [List.filter_append, List.filter_cons_of_neg (by simp [hchosen]),
      List.filter_eq_self.2 fun e he => hkept e (.inl he), List.filter_eq_self.2 fun e he => hkept e (.inr he)]
    simp
    omega

theorem removeIf (hl : t.Lists l) (ht : t.WellFormed) (path : List String) (chosen : H → Bool) :
    (t.removeIf path chosen).2.Lists (l.filter fun e => !(e.1 == t.owner.relative path && chosen e.2)) := by
  refine ⟨hl.nodup.sublist (List.Sublist.map _ List.filter_sublist), fun q h => ?_, ?_⟩
  · rw [ht.get?_removeIf, ht.owner_of_removeIf, List.mem_filter, ← hl.get?_iff]
    split
    · rename_i hq
      rw [hl.get?_congr hq, Option.filter_eq_some_iff]
      simp [hq]
    · rename_i hq
      simp [Ne.symm hq]
  · have hcount := ht.count_removeIf path chosen
    have hlength := hl.length_filter path chosen
    rw [hl.count] at hcount
    omega

end Lists

end Switchboard.DispatchTree
