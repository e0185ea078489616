import Switchboard.Proofs.DispatchTree

/-!
# The shape of dispatch trees

A tree is pruned if no node of it is vacant, other than the root. An empty tree is, and additions and removals keep it
so: the nodes that an addition makes lead to a handler, and a removal leaves out those that have nothing left.

So a removal undoes an addition to the last node (`DispatchTree.WellFormed.removeIf_add`): it takes away the nodes
that the addition made, and leaves those that were there for the sake of others.
-/

namespace Switchboard

variable {H : Type}

namespace DispatchNode

/-- No node under this one is vacant. -/
inductive Pruned : DispatchNode H → Prop
  | mk {h : Option H} {cs : List (String × DispatchNode H)} :
    (∀ e ∈ cs, e.2.isVacant = false) → (∀ e ∈ cs, Pruned e.2) → Pruned (mk h cs)

theorem pruned_vacant : Pruned (vacant : DispatchNode H) := .mk (by simp) (by simp)

theorem Pruned.isVacant_child {h : Option H} {cs : List (String × DispatchNode H)} (hn : Pruned (.mk h cs)) :
    ∀ e ∈ cs, e.2.isVacant = false := by
  cases hn
  assumption

theorem Pruned.children {h : Option H} {cs : List (String × DispatchNode H)} (hn : Pruned (.mk h cs)) :
    ∀ e ∈ cs, e.2.Pruned := by
  cases hn
  assumption

theorem Pruned.childOrVacant {h : Option H} {cs : List (String × DispatchNode H)} (hn : Pruned (.mk h cs))
    (s : String) : ((Table.get? s cs).getD vacant).Pruned := by
  cases hs : Table.get? s cs with
  | none => exact pruned_vacant
  | some n => exact hn.children _ (Table.mem_of_get? hs)

/-- A table with an entry in it is not empty. -/
theorem put_ne_nil (s : String) (n : DispatchNode H) (cs : List (String × DispatchNode H)) :
    Table.put s n cs ≠ [] := by
  intro hnil
  have hget := Table.get?_put_self s n cs
  rw [hnil] at hget
  cases hget

/-- A node into which a handler was inserted is not vacant. -/
theorem isVacant_insert? {h : H} {path : List String} {n n' : DispatchNode H} (hi : insert? h path n = some n') :
    n'.isVacant = false := by
  cases path with
  | nil =>
    obtain ⟨cs, -, rfl⟩ := insert?_nil_eq_some.1 hi
    rfl
  | cons s path =>
    obtain ⟨own, cs, child, -, -, rfl⟩ := insert?_cons_eq_some.1 hi
    simp [isVacant, put_ne_nil]

theorem Pruned.insert? {h : H} {path : List String} {n n' : DispatchNode H} (hn : n.Pruned)
    (hi : DispatchNode.insert? h path n = some n') : n'.Pruned := by
  induction path generalizing n n' with
  | nil =>
    obtain ⟨cs, rfl, rfl⟩ := insert?_nil_eq_some.1 hi
    exact .mk hn.isVacant_child hn.children
  | cons s path ih =>
    obtain ⟨own, cs, child, rfl, hc, rfl⟩ := insert?_cons_eq_some.1 hi
    refine .mk (fun e he => ?_) fun e he => ?_
    · rcases Table.mem_put he with rfl | he
      · exact isVacant_insert? hc
      · exact hn.isVacant_child e he
    · rcases Table.mem_put he with rfl | he
      · exact ih (hn.childOrVacant s) hc
      · exact hn.children e he

/-- A changed child takes its place among the others, or is left out. -/
theorem Pruned.replaceChild {own : Option H} {cs : List (String × DispatchNode H)} (hn : Pruned (.mk own cs))
    (s : String) {child : DispatchNode H} (hchild : child.Pruned) :
    Pruned (.mk own (DispatchNode.replaceChild s child cs)) := by
  unfold DispatchNode.replaceChild
  split
  · exact .mk (fun e he => hn.isVacant_child e (Table.mem_of_mem_erase he))
      fun e he => hn.children e (Table.mem_of_mem_erase he)
  · rename_i hnew
    refine .mk (fun e he => ?_) fun e he => ?_
    · rcases Table.mem_put he with rfl | he
      · simpa using hnew
      · exact hn.isVacant_child e he
    · rcases Table.mem_put he with rfl | he
      · exact hchild
      · exact hn.children e he

theorem Pruned.removeIf {chosen : H → Bool} {path : List String} {n n' : DispatchNode H} {h : H} (hn : n.Pruned)
    (hr : DispatchNode.removeIf chosen path n = some (h, n')) : n'.Pruned := by
  induction path generalizing n n' with
  | nil =>
    obtain ⟨cs, rfl, -, rfl⟩ := removeIf_nil_eq_some.1 hr
    exact .mk hn.isVacant_child hn.children
  | cons s path ih =>
    obtain ⟨own, cs, child, child', rfl, hs, hc, rfl⟩ := removeIf_cons_eq_some.1 hr
    exact hn.replaceChild s (ih (hn.children _ (Table.mem_of_get? hs)) hc)

/-- A changed child that becomes what it was before leaves the table as it was before. -/
theorem replaceChild_put {own : Option H} {cs : List (String × DispatchNode H)} (ho : Ordered (.mk own cs))
    (hp : Pruned (.mk own cs)) (s : String) (child : DispatchNode H) :
    replaceChild s ((Table.get? s cs).getD vacant) (Table.put s child cs) = cs := by
  unfold replaceChild
  cases hs : Table.get? s cs with
  | none =>
    -- the child was made on the way
    have hvacant : (vacant : DispatchNode H).isVacant = true := rfl
    rw [Option.getD_none, if_pos hvacant]
    exact Table.erase_put hs child
  | some n =>
    have hvacant := hp.isVacant_child _ (Table.mem_of_get? hs)
    rw [Option.getD_some, hvacant, if_neg (by decide), Table.put_put]
    exact ho.table.put_eq_self hs

/-- A handler that is removed again leaves no trace. -/
theorem removeIf_insert? {chosen : H → Bool} {h : H} (hchosen : chosen h = true) {path : List String}
    {n n' : DispatchNode H} (ho : n.Ordered) (hp : n.Pruned) (hi : insert? h path n = some n') :
    removeIf chosen path n' = some (h, n) := by
  induction path generalizing n n' with
  | nil =>
    obtain ⟨cs, rfl, rfl⟩ := insert?_nil_eq_some.1 hi
    exact removeIf_nil_eq_some.2 ⟨cs, rfl, hchosen, rfl⟩
  | cons s path ih =>
    obtain ⟨own, cs, child, rfl, hc, rfl⟩ := insert?_cons_eq_some.1 hi
    have hchild := ih (ho.childOrVacant s) (hp.childOrVacant s) hc
    refine removeIf_cons_eq_some.2 ⟨own, _, child, _, rfl, Table.get?_put_self s child cs, hchild, ?_⟩
    rw [replaceChild_put ho hp]

end DispatchNode

namespace DispatchTree

/-- No node of the tree is vacant, other than the root. -/
def Pruned (t : DispatchTree H) : Prop := t.root.Pruned

theorem pruned_empty (owner : Identity) : (empty owner : DispatchTree H).Pruned := DispatchNode.pruned_vacant

variable {t t' : DispatchTree H} {path : List String} {h : H}

theorem Pruned.add (hp : t.Pruned) (ht : t.WellFormed) (ha : t.add path h = .ok t') : t'.Pruned := by
  obtain ⟨-, -, root, hi, rfl⟩ := ht.add_eq_ok ha
  exact DispatchNode.Pruned.insert? hp hi

theorem Pruned.removeIf (hp : t.Pruned) (ht : t.WellFormed) (path : List String) (chosen : H → Bool) :
    (t.removeIf path chosen).2.Pruned := by
  rcases ht.removeIf_cases path chosen with ⟨-, he⟩ | ⟨h, root, -, -, -, hr, he⟩
  · rw [he]
    exact hp
  · rw [he]
    exact DispatchNode.Pruned.removeIf hp hr

/-- A handler that is added and removed again leaves the tree as it was, to the last node. -/
theorem WellFormed.removeIf_add (ht : t.WellFormed) (hp : t.Pruned) (ha : t.add path h = .ok t') {chosen : H → Bool}
    (hchosen : chosen h = true) : (t'.removeIf path chosen).2 = t := by
  obtain ⟨hrel, -, root, hi, rfl⟩ := ht.add_eq_ok ha
  have hr := DispatchNode.removeIf_insert? hchosen ht.ordered hp hi
  have hne : (t.owner.relative path).isEmpty = false := by simpa using hrel
  simp [DispatchTree.removeIf, hne, hr]

end DispatchTree

end Switchboard
