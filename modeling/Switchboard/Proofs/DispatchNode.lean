import Switchboard.Bus.DispatchTree
import Switchboard.Proofs.Table

/-!
# Nodes of dispatch trees

* (insertion) a handler goes in exactly where there is none, and only the look-up of its own path changes;
* (removal) a chosen handler comes out, and only the look-up of its own path changes, whatever is pruned on the way
  back;
* (count) the number of handlers goes up or down by one.

All this holds of nodes whose children are in order of name at every level, and both operations keep that order.
-/

namespace Switchboard.DispatchNode

variable {H : Type}

/-- The children of a node and of all nodes under it are in order of name. -/
inductive Ordered : DispatchNode H → Prop
  | mk {h : Option H} {cs : List (String × DispatchNode H)} :
    Table.Ordered cs → (∀ e ∈ cs, Ordered e.2) → Ordered (mk h cs)

theorem ordered_vacant : Ordered (vacant : DispatchNode H) := .mk Table.ordered_nil (by simp)

theorem Ordered.table {h : Option H} {cs : List (String × DispatchNode H)} (hn : Ordered (.mk h cs)) :
    Table.Ordered cs := by
  cases hn
  assumption

theorem Ordered.children {h : Option H} {cs : List (String × DispatchNode H)} (hn : Ordered (.mk h cs)) :
    ∀ e ∈ cs, e.2.Ordered := by
  cases hn
  assumption

theorem Ordered.child {h : Option H} {cs : List (String × DispatchNode H)} (hn : Ordered (.mk h cs)) {s : String}
    {n : DispatchNode H} (hs : Table.get? s cs = some n) : n.Ordered :=
  hn.children _ (Table.mem_of_get? hs)

/-- The child that a new handler goes under: the one that is there, or a vacant one. -/
theorem Ordered.childOrVacant {h : Option H} {cs : List (String × DispatchNode H)} (hn : Ordered (.mk h cs))
    (s : String) : ((Table.get? s cs).getD vacant).Ordered := by
  cases hs : Table.get? s cs with
  | none => exact ordered_vacant
  | some n => exact hn.child hs

theorem eq_vacant_of_isVacant {n : DispatchNode H} (h : n.isVacant = true) : n = vacant := by
  obtain ⟨own, cs⟩ := n
  simp only [isVacant, Bool.and_eq_true, Option.isNone_iff_eq_none, List.isEmpty_iff] at h
  rw [h.1, h.2]
  rfl

/-! ### Look-up -/

@[simp] theorem find?_vacant (path : List String) : find? path (vacant : DispatchNode H) = none := by
  cases path <;> rfl

theorem find?_cons (s : String) (path : List String) (own : Option H) (cs : List (String × DispatchNode H)) :
    find? (s :: path) (mk own cs) = (Table.get? s cs).bind (find? path) := rfl

/-- A child that is not there finds as little as a vacant one. -/
theorem find?_childOrVacant (s : String) (path : List String) (cs : List (String × DispatchNode H)) :
    find? path ((Table.get? s cs).getD vacant) = (Table.get? s cs).bind (find? path) := by
  cases Table.get? s cs <;> simp

/-- A changed child decides what is found under its name, also when it is left out because nothing is left of it. -/
theorem find?_replaceChild {cs : List (String × DispatchNode H)} (hcs : Table.Ordered cs) (s t : String)
    (child : DispatchNode H) (path : List String) :
    (Table.get? t (replaceChild s child cs)).bind (find? path) =
      if s = t then find? path child else (Table.get? t cs).bind (find? path) := by
  unfold replaceChild
  split
  · rename_i hv
    rw [hcs.get?_erase, eq_vacant_of_isVacant hv]
    by_cases hst : s = t <;> simp [hst]
  · rw [Table.get?_put]
    by_cases hst : s = t <;> simp [hst]

/-! ### Insertion -/

theorem insert?_nil_eq_some {h : H} {n n' : DispatchNode H} :
    insert? h [] n = some n' ↔ ∃ cs, n = mk none cs ∧ n' = mk (some h) cs := by
  obtain ⟨own, cs⟩ := n
  cases own with
  | none => simp [insert?, eq_comm]
  | some _ => simp [insert?]

theorem insert?_cons (h : H) (s : String) (path : List String) (own : Option H)
    (cs : List (String × DispatchNode H)) :
    insert? h (s :: path) (mk own cs) =
      (insert? h path ((Table.get? s cs).getD vacant)).map fun child => mk own (Table.put s child cs) := by
  simp only [insert?]
  cases insert? h path ((Table.get? s cs).getD vacant) <;> rfl

theorem insert?_cons_eq_some {h : H} {s : String} {path : List String} {n n' : DispatchNode H} :
    insert? h (s :: path) n = some n' ↔ ∃ own cs child, n = mk own cs ∧
      insert? h path ((Table.get? s cs).getD vacant) = some child ∧ n' = mk own (Table.put s child cs) := by
  obtain ⟨own, cs⟩ := n
  rw [insert?_cons, Option.map_eq_some_iff]
  constructor
  · rintro ⟨child, hc, rfl⟩
    exact ⟨own, cs, child, rfl, hc, rfl⟩
  · rintro ⟨_, _, child, hn, hc, rfl⟩
    cases hn
    exact ⟨child, hc, rfl⟩

/-- A handler can be inserted exactly where there is none. -/
theorem insert?_eq_none_iff (h : H) (path : List String) (n : DispatchNode H) :
    insert? h path n = none ↔ (find? path n).isSome = true := by
  induction path generalizing n with
  | nil =>
    obtain ⟨own, cs⟩ := n
    cases own <;> simp [insert?, find?, handler]
  | cons s path ih =>
    obtain ⟨own, cs⟩ := n
    rw [insert?_cons, Option.map_eq_none_iff, ih, find?_childOrVacant, find?_cons]

/-- After an insertion the new handler is found at its path, and all else as before. -/
theorem find?_insert? {h : H} {path : List String} {n n' : DispatchNode H} (hi : insert? h path n = some n')
    (q : List String) : find? q n' = if path = q then some h else find? q n := by
  induction path generalizing n n' q with
  | nil =>
    obtain ⟨cs, rfl, rfl⟩ := insert?_nil_eq_some.1 hi
    cases q <;> rfl
  | cons s path ih =>
    obtain ⟨own, cs, child, rfl, hc, rfl⟩ := insert?_cons_eq_some.1 hi
    cases q with
    | nil => rfl
    | cons t q =>
      rw [find?_cons, find?_cons, Table.get?_put]
      by_cases hst : s = t
      · subst hst
        rw [if_pos rfl, Option.bind_some, ih hc q, find?_childOrVacant]
        by_cases hq : path = q <;> simp [hq]
      · rw [if_neg hst, if_neg fun h => hst (List.cons.inj h).1]

theorem Ordered.insert? {h : H} {path : List String} {n n' : DispatchNode H} (hn : n.Ordered)
    (hi : DispatchNode.insert? h path n = some n') : n'.Ordered := by
  induction path generalizing n n' with
  | nil =>
    obtain ⟨cs, rfl, rfl⟩ := insert?_nil_eq_some.1 hi
    exact .mk hn.table hn.children
  | cons s path ih =>
    obtain ⟨own, cs, child, rfl, hc, rfl⟩ := insert?_cons_eq_some.1 hi
    refine .mk (hn.table.put s child) fun e he => ?_
    rcases Table.mem_put he with rfl | he
    · exact ih (hn.childOrVacant s) hc
    · exact hn.children e he

/-! ### Removal -/

theorem removeIf_nil_eq_some {chosen : H → Bool} {n n' : DispatchNode H} {h : H} :
    removeIf chosen [] n = some (h, n') ↔ ∃ cs, n = mk (some h) cs ∧ chosen h = true ∧ n' = mk none cs := by
  obtain ⟨own, cs⟩ := n
  cases own with
  | none => simp [removeIf]
  | some h' =>
    by_cases hc : chosen h' = true
    · simp only [removeIf, hc, if_true, Option.some.injEq, Prod.mk.injEq, mk.injEq]
      constructor
      · rintro ⟨rfl, rfl⟩
        exact ⟨cs, ⟨rfl, rfl⟩, hc, rfl⟩
      · rintro ⟨_, ⟨rfl, rfl⟩, -, rfl⟩
        exact ⟨rfl, rfl⟩
    · simp only [removeIf, hc, mk.injEq, Option.some.injEq]
      constructor
      · exact fun h => nomatch h
      · rintro ⟨_, ⟨rfl, rfl⟩, hc', -⟩
        exact absurd hc' hc

theorem removeIf_cons (chosen : H → Bool) (s : String) (path : List String) (own : Option H)
    (cs : List (String × DispatchNode H)) :
    removeIf chosen (s :: path) (mk own cs) =
      ((Table.get? s cs).bind (removeIf chosen path)).map fun r => (r.1, mk own (replaceChild s r.2 cs)) := by
  simp only [removeIf]
  cases Table.get? s cs with
  | none => rfl
  | some child =>
    simp only [Option.bind_some]
    cases h : removeIf chosen path child <;> simp [bind, Option.bind, h]

theorem removeIf_cons_eq_some {chosen : H → Bool} {s : String} {path : List String} {n n' : DispatchNode H} {h : H} :
    removeIf chosen (s :: path) n = some (h, n') ↔ ∃ own cs child child', n = mk own cs ∧
      Table.get? s cs = some child ∧ removeIf chosen path child = some (h, child') ∧
        n' = mk own (replaceChild s child' cs) := by
  obtain ⟨own, cs⟩ := n
  rw [removeIf_cons, Option.map_eq_some_iff]
  constructor
  · rintro ⟨⟨h', child'⟩, hr, heq⟩
    obtain ⟨child, hs, hr⟩ := Option.bind_eq_some_iff.1 hr
    cases heq
    exact ⟨own, cs, child, child', rfl, hs, hr, rfl⟩
  · rintro ⟨_, _, child, child', hn, hs, hr, rfl⟩
    cases hn
    exact ⟨(h, child'), by rw [hs]; exact hr, rfl⟩

/-- Nothing is removed exactly where no chosen handler is. -/
theorem removeIf_eq_none_iff (chosen : H → Bool) (path : List String) (n : DispatchNode H) :
    removeIf chosen path n = none ↔ (find? path n).filter chosen = none := by
  induction path generalizing n with
  | nil =>
    obtain ⟨own, cs⟩ := n
    cases own with
    | none => simp [removeIf, find?, handler]
    | some h => by_cases hc : chosen h = true <;> simp [removeIf, find?, handler, Option.filter, hc]
  | cons s path ih =>
    obtain ⟨own, cs⟩ := n
    rw [removeIf_cons, Option.map_eq_none_iff, find?_cons]
    cases Table.get? s cs with
    | none => simp
    | some child => simpa using ih child

/-- What is removed was found at the path and is chosen. -/
theorem find?_of_removeIf {chosen : H → Bool} {path : List String} {n n' : DispatchNode H} {h : H}
    (hr : removeIf chosen path n = some (h, n')) : find? path n = some h ∧ chosen h = true := by
  induction path generalizing n n' with
  | nil =>
    obtain ⟨cs, rfl, hc, rfl⟩ := removeIf_nil_eq_some.1 hr
    exact ⟨rfl, hc⟩
  | cons s path ih =>
    obtain ⟨own, cs, child, child', rfl, hs, hc, rfl⟩ := removeIf_cons_eq_some.1 hr
    rw [find?_cons, hs]
    exact ih hc

/-- After a removal nothing is found at the path, and all else as before. -/
theorem find?_removeIf {chosen : H → Bool} {path : List String} {n n' : DispatchNode H} {h : H} (hn : n.Ordered)
    (hr : removeIf chosen path n = some (h, n')) (q : List String) :
    find? q n' = if path = q then none else find? q n := by
  induction path generalizing n n' q with
  | nil =>
    obtain ⟨cs, rfl, hc, rfl⟩ := removeIf_nil_eq_some.1 hr
    cases q <;> rfl
  | cons s path ih =>
    obtain ⟨own, cs, child, child', rfl, hs, hc, rfl⟩ := removeIf_cons_eq_some.1 hr
    cases q with
    | nil => rfl
    | cons t q =>
      -- the child may have been pruned, which makes no difference to what is found
      rw [find?_cons, find?_cons, find?_replaceChild hn.table]
      by_cases hst : s = t
      · subst hst
        rw [if_pos rfl, ih (hn.child hs) hc q, hs]
        by_cases hq : path = q <;> simp [hq]
      · rw [if_neg hst, if_neg fun h => hst (List.cons.inj h).1]

theorem Ordered.removeIf {chosen : H → Bool} {path : List String} {n n' : DispatchNode H} {h : H} (hn : n.Ordered)
    (hr : DispatchNode.removeIf chosen path n = some (h, n')) : n'.Ordered := by
  induction path generalizing n n' with
  | nil =>
    obtain ⟨cs, rfl, hc, rfl⟩ := removeIf_nil_eq_some.1 hr
    exact .mk hn.table hn.children
  | cons s path ih =>
    obtain ⟨own, cs, child, child', rfl, hs, hc, rfl⟩ := removeIf_cons_eq_some.1 hr
    unfold replaceChild
    -- the child is left out if nothing is left of it, and put back otherwise
    split
    · exact .mk (hn.table.erase s) fun e he => hn.children e (Table.mem_of_mem_erase he)
    · refine .mk (hn.table.put s _) fun e he => ?_
      rcases Table.mem_put he with rfl | he
      · exact ih (hn.child hs) hc
      · exact hn.children e he

/-! ### Count -/

@[simp] theorem count_vacant : count (vacant : DispatchNode H) = 0 := rfl

theorem count_mk (own : Option H) (cs : List (String × DispatchNode H)) :
    count (mk own cs) = own.toList.length + countAll cs := rfl

/-- A child that is put in counts instead of the one that was there. -/
theorem countAll_put {cs : List (String × DispatchNode H)} (hcs : Table.Ordered cs) (s : String)
    (child : DispatchNode H) :
    countAll (Table.put s child cs) + count ((Table.get? s cs).getD vacant) = countAll cs + count child := by
  induction cs with
  | nil => simp [Table.put, Table.get?, countAll]
  | cons e r ih =>
    obtain ⟨k, n⟩ := e
    unfold Table.put
    split
    · rename_i hlt
      -- the name is smaller than all others, so it was not there
      have hnone : Table.get? s ((k, n) :: r) = none := by
        refine Table.get?_eq_none fun e he => ?_
        rcases List.mem_cons.1 he with rfl | he
        · exact ne_of_gt hlt
        · exact ne_of_gt (lt_trans hlt (hcs.head_lt he))
      rw [hnone]
      simp only [countAll, Option.getD_none, count_vacant]
      omega
    · split
      · rename_i heq
        subst heq
        simp only [countAll, Table.get?, if_true, Option.getD_some]
        omega
      · rename_i hne
        have := ih hcs.tail
        simp only [countAll, Table.get?, if_neg (Ne.symm hne)]
        omega

theorem countAll_erase {cs : List (String × DispatchNode H)} (s : String) :
    countAll (Table.erase s cs) + count ((Table.get? s cs).getD vacant) = countAll cs := by
  induction cs with
  | nil => simp [Table.erase, Table.get?, countAll]
  | cons e r ih =>
    obtain ⟨k, n⟩ := e
    unfold Table.erase
    split
    · rename_i heq
      subst heq
      simp only [countAll, Table.get?, if_true, Option.getD_some]
      omega
    · rename_i hne
      simp only [countAll, Table.get?, if_neg hne]
      omega

theorem countAll_replaceChild {cs : List (String × DispatchNode H)} (hcs : Table.Ordered cs) (s : String)
    (child : DispatchNode H) :
    countAll (replaceChild s child cs) + count ((Table.get? s cs).getD vacant) = countAll cs + count child := by
  unfold replaceChild
  split
  · rename_i hv
    rw [eq_vacant_of_isVacant hv, countAll_erase, count_vacant, Nat.add_zero]
  · exact countAll_put hcs s child

theorem count_insert? {h : H} {path : List String} {n n' : DispatchNode H} (hn : n.Ordered)
    (hi : insert? h path n = some n') : n'.count = n.count + 1 := by
  induction path generalizing n n' with
  | nil =>
    obtain ⟨cs, rfl, rfl⟩ := insert?_nil_eq_some.1 hi
    rw [count_mk, count_mk, Option.toList_some, Option.toList_none, List.length_singleton, List.length_nil]
    omega
  | cons s path ih =>
    obtain ⟨own, cs, child, rfl, hc, rfl⟩ := insert?_cons_eq_some.1 hi
    have hchild := ih (hn.childOrVacant s) hc
    have hall := countAll_put hn.table s child
    rw [count_mk, count_mk]
    omega

theorem count_removeIf {chosen : H → Bool} {path : List String} {n n' : DispatchNode H} {h : H} (hn : n.Ordered)
    (hr : removeIf chosen path n = some (h, n')) : n'.count + 1 = n.count := by
  induction path generalizing n n' with
  | nil =>
    obtain ⟨cs, rfl, hc, rfl⟩ := removeIf_nil_eq_some.1 hr
    rw [count_mk, count_mk, Option.toList_some, Option.toList_none, List.length_singleton, List.length_nil]
    omega
  | cons s path ih =>
    obtain ⟨own, cs, child, child', rfl, hs, hc, rfl⟩ := removeIf_cons_eq_some.1 hr
    have hchild := ih (hn.child hs) hc
    have hall := countAll_replaceChild hn.table s child'
    rw [hs, Option.getD_some] at hall
    rw [count_mk, count_mk]
    omega

end Switchboard.DispatchNode
