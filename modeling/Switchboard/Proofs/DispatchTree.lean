import Switchboard.Proofs.DispatchNode
import Switchboard.Proofs.Identity

/-!
# Laws of dispatch trees

Each operation of a tree sees a path through its relative form only. `add_cases` and `removeIf_cases` list all that
the two changing operations can do; look-up, order and count of what they leave behind follow from the laws of nodes.
-/

namespace Switchboard.DispatchTree

variable {H : Type}

/-- Children are in order of name at every node, and there is no handler at the root. -/
structure WellFormed (t : DispatchTree H) : Prop where
  ordered : t.root.Ordered
  bare : t.root.handler = none

theorem wellFormed_empty (owner : Identity) : (empty owner : DispatchTree H).WellFormed :=
  ⟨DispatchNode.ordered_vacant, rfl⟩

/-- A handler at a path is a handler at the relative form of the path under the root. -/
theorem WellFormed.get?_eq {t : DispatchTree H} (ht : t.WellFormed) (path : List String) :
    t.get? path = t.root.find? (t.owner.relative path) := by
  unfold get?
  cases h : t.owner.relative path with
  | nil => exact ht.bare.symm
  | cons s rest => rfl

theorem get?_of_relative_nil {t : DispatchTree H} {path : List String} (h : t.owner.relative path = []) :
    t.get? path = none := by
  simp [get?, h]

/-! ### Addition -/

/-- What an addition does: it is refused at the root and where there is a handler, and inserts elsewhere. -/
theorem WellFormed.add_cases {t : DispatchTree H} (ht : t.WellFormed) (path : List String) (h : H) :
    (t.owner.relative path = [] ∧ t.add path h = .error .rootPath) ∨
    (t.owner.relative path ≠ [] ∧ (t.get? path).isSome = true ∧
      t.add path h = .error (.alreadyRegistered (Topic.join (t.owner.relative path)))) ∨
    (t.owner.relative path ≠ [] ∧ t.get? path = none ∧
      ∃ root, t.root.insert? h (t.owner.relative path) = some root ∧ t.add path h = .ok { t with root := root }) := by
  by_cases hrel : t.owner.relative path = []
  · exact .inl ⟨hrel, by simp [add, hrel]⟩
  · right
    have hne : (t.owner.relative path).isEmpty = false := by simpa using hrel
    rw [ht.get?_eq]
    cases hi : t.root.insert? h (t.owner.relative path) with
    | none =>
      left
      have hsome := (DispatchNode.insert?_eq_none_iff h _ _).1 hi
      exact ⟨hrel, hsome, by simp [add, hne, hi]⟩
    | some root =>
      right
      have hnone : ¬(t.root.find? (t.owner.relative path)).isSome = true := by
        rw [← DispatchNode.insert?_eq_none_iff h, hi]
        exact fun hc => nomatch hc
      exact ⟨hrel, by simpa using hnone, root, rfl, by simp [add, hne, hi]⟩

theorem WellFormed.add_eq_ok {t t' : DispatchTree H} (ht : t.WellFormed) {path : List String} {h : H}
    (ha : t.add path h = .ok t') :
    t.owner.relative path ≠ [] ∧ t.get? path = none ∧
      ∃ root, t.root.insert? h (t.owner.relative path) = some root ∧ t' = { t with root := root } := by
  rcases ht.add_cases path h with ⟨-, he⟩ | ⟨-, -, he⟩ | ⟨hrel, hnone, root, hi, he⟩
  · rw [he] at ha; cases ha
  · rw [he] at ha; cases ha
  · rw [he] at ha
    cases ha
    exact ⟨hrel, hnone, root, hi, rfl⟩

theorem WellFormed.owner_of_add {t t' : DispatchTree H} (ht : t.WellFormed) {path : List String} {h : H}
    (ha : t.add path h = .ok t') : t'.owner = t.owner := by
  obtain ⟨-, -, root, -, rfl⟩ := ht.add_eq_ok ha
  rfl

theorem WellFormed.add {t t' : DispatchTree H} (ht : t.WellFormed) {path : List String} {h : H}
    (ha : t.add path h = .ok t') : t'.WellFormed := by
  obtain ⟨hrel, -, root, hi, rfl⟩ := ht.add_eq_ok ha
  refine ⟨ht.ordered.insert? hi, ?_⟩
  have hfind := DispatchNode.find?_insert? hi []
  rw [if_neg hrel] at hfind
  exact hfind.trans ht.bare

/-- After an addition the new handler is found on all forms of its path, and all else as before. -/
theorem WellFormed.get?_add {t t' : DispatchTree H} (ht : t.WellFormed) {path : List String} {h : H}
    (ha : t.add path h = .ok t') (q : List String) :
    t'.get? q = if t.owner.relative path = t.owner.relative q then some h else t.get? q := by
  have ht' := ht.add ha
  obtain ⟨-, -, root, hi, rfl⟩ := ht.add_eq_ok ha
  rw [ht'.get?_eq, ht.get?_eq]
  exact DispatchNode.find?_insert? hi (t.owner.relative q)

theorem WellFormed.count_add {t t' : DispatchTree H} (ht : t.WellFormed) {path : List String} {h : H}
    (ha : t.add path h = .ok t') : t'.count = t.count + 1 := by
  obtain ⟨-, -, root, hi, rfl⟩ := ht.add_eq_ok ha
  exact DispatchNode.count_insert? ht.ordered hi

/-! ### Removal -/

/-- What a removal does: nothing where no chosen handler is, and it takes the handler away elsewhere. -/
theorem WellFormed.removeIf_cases {t : DispatchTree H} (ht : t.WellFormed) (path : List String) (chosen : H → Bool) :
    ((t.get? path).filter chosen = none ∧ t.removeIf path chosen = (none, t)) ∨
    (∃ h root, t.owner.relative path ≠ [] ∧ t.get? path = some h ∧ chosen h = true ∧
      t.root.removeIf chosen (t.owner.relative path) = some (h, root) ∧
      t.removeIf path chosen = (some h, { t with root := root })) := by
  by_cases hrel : t.owner.relative path = []
  · left
    rw [get?_of_relative_nil hrel]
    exact ⟨rfl, by simp [removeIf, hrel]⟩
  · have hne : (t.owner.relative path).isEmpty = false := by simpa using hrel
    rw [ht.get?_eq]
    cases hr : t.root.removeIf chosen (t.owner.relative path) with
    | none =>
      left
      exact ⟨(DispatchNode.removeIf_eq_none_iff chosen _ _).1 hr, by simp [removeIf, hne, hr]⟩
    | some r =>
      obtain ⟨h, root⟩ := r
      right
      obtain ⟨hfind, hc⟩ := DispatchNode.find?_of_removeIf hr
      exact ⟨h, root, hrel, hfind, hc, rfl, by simp [removeIf, hne, hr]⟩

/-- A removal answers the handler at the path if it is chosen. -/
theorem WellFormed.removeIf_fst {t : DispatchTree H} (ht : t.WellFormed) (path : List String) (chosen : H → Bool) :
    (t.removeIf path chosen).1 = (t.get? path).filter chosen := by
  rcases ht.removeIf_cases path chosen with ⟨hn, he⟩ | ⟨h, root, -, hg, hc, -, he⟩
  · rw [he, hn]
  · rw [he, hg, Option.filter_some_pos hc]

theorem WellFormed.owner_of_removeIf {t : DispatchTree H} (ht : t.WellFormed) (path : List String)
    (chosen : H → Bool) : (t.removeIf path chosen).2.owner = t.owner := by
  rcases ht.removeIf_cases path chosen with ⟨-, he⟩ | ⟨h, root, -, -, -, -, he⟩ <;> rw [he]

theorem WellFormed.removeIf {t : DispatchTree H} (ht : t.WellFormed) (path : List String) (chosen : H → Bool) :
    (t.removeIf path chosen).2.WellFormed := by
  rcases ht.removeIf_cases path chosen with ⟨-, he⟩ | ⟨h, root, hrel, -, -, hr, he⟩
  · rw [he]
    exact ht
  · rw [he]
    refine ⟨ht.ordered.removeIf hr, ?_⟩
    have hfind := DispatchNode.find?_removeIf ht.ordered hr []
    rw [if_neg hrel] at hfind
    exact hfind.trans ht.bare

/-- After a removal nothing is found on any form of the path, if its handler was chosen, and all else as before. -/
theorem WellFormed.get?_removeIf {t : DispatchTree H} (ht : t.WellFormed) (path : List String) (chosen : H → Bool)
    (q : List String) :
    (t.removeIf path chosen).2.get? q =
      if t.owner.relative path = t.owner.relative q then (t.get? path).filter (!chosen ·) else t.get? q := by
  have ht' := ht.removeIf path chosen
  rcases ht.removeIf_cases path chosen with ⟨hn, he⟩ | ⟨h, root, -, hg, hc, hr, he⟩
  · rw [he]
    split
    · rename_i hq
      rw [ht.get?_eq, ← hq, ← ht.get?_eq]
      cases hp : t.get? path with
      | none => rfl
      | some h =>
        -- the handler is there still because it is not chosen
        have hc : chosen h = false := by simpa [hp, Option.filter] using hn
        simp [Option.filter, hc]
    · rfl
  · rw [he] at ht' ⊢
    rw [ht'.get?_eq, ht.get?_eq q, hg]
    have hfind := DispatchNode.find?_removeIf ht.ordered hr (t.owner.relative q)
    rw [show (some h).filter (!chosen ·) = none by simp [Option.filter, hc]]
    exact hfind

theorem WellFormed.count_removeIf {t : DispatchTree H} (ht : t.WellFormed) (path : List String)
    (chosen : H → Bool) :
    (t.removeIf path chosen).2.count + ((t.get? path).filter chosen).toList.length = t.count := by
  rcases ht.removeIf_cases path chosen with ⟨hn, he⟩ | ⟨h, root, -, hg, hc, hr, he⟩
  · rw [he, hn]
    rfl
  · rw [he, hg, Option.filter_some_pos hc]
    exact DispatchNode.count_removeIf ht.ordered hr

end Switchboard.DispatchTree
