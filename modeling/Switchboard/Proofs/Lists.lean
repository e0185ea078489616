import Mathlib.Data.List.Forall2

/-!
# Lists read item by item

A list that was written item by item reads back if each item does, and what is read comes from some item. What is
found for some items of a list stands beside these items, in the same order.

A list that is cut short is a proper prefix of it (`ProperPrefix`). What the items of a list start and end has a last
word on it (`Since`).
-/

namespace Switchboard

variable {α β : Type}

/-- If every item reads back, so does the list. -/
theorem mapM_map_eq_pure {m : Type → Type} [Monad m] [LawfulMonad m] {read : β → m α} {write : α → β} {l : List α}
    (h : ∀ a ∈ l, read (write a) = pure a) : (l.map write).mapM read = pure l := by
  induction l with
  | nil => rfl
  | cons a l ih =>
    rw [List.map_cons, List.mapM_cons, h a List.mem_cons_self, pure_bind,
      ih fun a' ha' => h a' (List.mem_cons_of_mem _ ha'), pure_bind]

/-- Readers that agree on the items of a list read the same from it. -/
theorem mapM_congr {m : Type → Type} [Monad m] [LawfulMonad m] {read read' : β → m α} {l : List β}
    (h : ∀ b ∈ l, read b = read' b) : l.mapM read = l.mapM read' := by
  induction l with
  | nil => rfl
  | cons b l ih =>
    rw [List.mapM_cons, List.mapM_cons, h b List.mem_cons_self, ih fun b' hb' => h b' (List.mem_cons_of_mem _ hb')]

/-- A list is read item by item. -/
theorem mapM_eq_some_iff {read : β → Option α} {l : List β} {l' : List α} :
    l.mapM read = some l' ↔ l.map read = l'.map some := by
  induction l generalizing l' with
  | nil => cases l' <;> simp
  | cons b l ih =>
    cases l' with
    | nil => simp [List.mapM_cons, Option.bind_eq_some_iff]
    | cons a l' => simp [List.mapM_cons, Option.bind_eq_some_iff, ih]

/-- What is read comes from an item. -/
theorem exists_of_mapM_eq_some {read : β → Option α} {l : List β} {l' : List α} (h : l.mapM read = some l') {a : α}
    (ha : a ∈ l') : ∃ b ∈ l, read b = some a := by
  induction l generalizing l' with
  | nil =>
    obtain rfl : [] = l' := by simpa using h
    cases ha
  | cons b l ih =>
    rw [List.mapM_cons] at h
    obtain ⟨a₁, hb, h⟩ := Option.bind_eq_some_iff.1 h
    obtain ⟨l₁, hl, h⟩ := Option.bind_eq_some_iff.1 h
    cases h
    rcases List.mem_cons.1 ha with rfl | ha
    · exact ⟨b, List.mem_cons_self, hb⟩
    · obtain ⟨b', hb', hread⟩ := ih hl ha
      exact ⟨b', List.mem_cons_of_mem _ hb', hread⟩

/-- The items for which something is found, and what is found. -/
theorem forall₂_filter_filterMap (find : α → Option β) (l : List α) :
    List.Forall₂ (fun a p => a ∈ l ∧ find a = some p) (l.filter fun a => (find a).isSome) (l.filterMap find) := by
  induction l with
  | nil => exact .nil
  | cons a l ih =>
    have hrest : List.Forall₂ (fun x p => x ∈ a :: l ∧ find x = some p) (l.filter fun a => (find a).isSome)
        (l.filterMap find) := ih.imp fun x p hx => ⟨List.mem_cons_of_mem a hx.1, hx.2⟩
    cases ha : find a with
    | none => simpa [ha] using hrest
    | some p => simpa [ha] using hrest

/-- In a list in which an item stands once, it is the only one for which something is found. -/
theorem filterMap_of_once [DecidableEq α] {l : List α} {a : α} (hmem : a ∈ l) (honce : (l.filter (· == a)).Nodup)
    (p : β) : l.filterMap (fun x => if x = a then some p else none) = [p] := by
  induction l with
  | nil => cases hmem
  | cons x l ih =>
    by_cases hx : x = a
    · subst hx
      rw [List.filter_cons_of_pos (by simp), List.nodup_cons] at honce
      have hrest : l.filterMap (fun y => if y = x then some p else none) = [] := by
        rw [List.filterMap_eq_nil_iff]
        intro y hy
        refine if_neg fun hyx => honce.1 ?_
        rw [← hyx]
        exact List.mem_filter.2 ⟨hy, by simp [hyx]⟩
      rw [List.filterMap_cons, if_pos rfl, hrest]
    · rw [List.filter_cons_of_neg (by simpa using hx)] at honce
      rw [List.filterMap_cons, if_neg hx]
      exact ih ((List.mem_cons.1 hmem).resolve_left (Ne.symm hx)) honce

/-! ### The last word -/

/-- An item starts something, in view of those before it, and no item behind it ends it. -/
def Since (starts : List α → α → Prop) (ends : α → Prop) (l : List α) : Prop :=
  ∃ earlier a later, l = earlier ++ a :: later ∧ starts earlier a ∧ ∀ a' ∈ later, ¬ends a'

theorem not_since_nil {starts : List α → α → Prop} {ends : α → Prop} : ¬Since starts ends [] := by
  rintro ⟨earlier, a, later, hl, -⟩
  simp at hl

/-- One more item starts it, or leaves it as it was unless it ends it. -/
theorem since_concat {starts : List α → α → Prop} {ends : α → Prop} (l : List α) (a : α) :
    Since starts ends (l ++ [a]) ↔ starts l a ∨ Since starts ends l ∧ ¬ends a := by
  constructor
  · rintro ⟨earlier, started, later, hl, hstarts, hkept⟩
    rcases List.eq_nil_or_concat later with rfl | ⟨later, last, rfl⟩
    · obtain ⟨rfl, rfl⟩ := List.concat_inj.1 (by simpa using hl)
      exact .inl hstarts
    · obtain ⟨rfl, rfl⟩ : l = earlier ++ started :: later ∧ a = last := by
        simpa using List.append_inj' (hl.trans (by simp : _ = (earlier ++ started :: later) ++ [last])) rfl
      exact .inr ⟨⟨earlier, started, later, rfl, hstarts, fun a' ha' => hkept a' (by simp [ha'])⟩, hkept a (by simp)⟩
  · rintro (hstarts | ⟨⟨earlier, started, later, rfl, hstarts, hkept⟩, hlast⟩)
    · exact ⟨l, a, [], rfl, hstarts, by simp⟩
    · refine ⟨earlier, started, later ++ [a], by simp, hstarts, fun a' ha' => ?_⟩
      rcases List.mem_append.1 ha' with ha' | ha'
      · exact hkept a' ha'
      · rwa [List.mem_singleton.1 ha']

/-! ### Proper prefixes -/

/-- The first list begins the second, and something follows. -/
def ProperPrefix (p l : List α) : Prop := p <+: l ∧ p ≠ l

theorem not_properPrefix_nil (p : List α) : ¬ProperPrefix p [] := fun h => h.2 (List.prefix_nil.1 h.1)

theorem properPrefix_nil_cons (a : α) (l : List α) : ProperPrefix [] (a :: l) := ⟨List.nil_prefix, nofun⟩

theorem ProperPrefix.append {p l : List α} (h : ProperPrefix p l) (front : List α) :
    ProperPrefix (front ++ p) (front ++ l) :=
  ⟨(List.prefix_append_right_inj front).2 h.1, fun heq => h.2 (List.append_cancel_left heq)⟩

/-- A list is cut either in its front part, or behind it. -/
theorem ProperPrefix.of_append {p l l' : List α} (h : ProperPrefix p (l ++ l')) :
    ProperPrefix p l ∨ ∃ p', p = l ++ p' ∧ ProperPrefix p' l' := by
  rcases List.prefix_or_prefix_of_prefix h.1 (List.prefix_append l l') with hfront | ⟨p', rfl⟩
  · by_cases heq : p = l
    · subst heq
      refine .inr ⟨[], (List.append_nil p).symm, List.nil_prefix, ?_⟩
      rintro rfl
      exact h.2 (List.append_nil p).symm
    · exact .inl ⟨hfront, heq⟩
  · exact .inr ⟨p', rfl, (List.prefix_append_right_inj l).1 h.1, fun heq => h.2 (congrArg (l ++ ·) heq)⟩

theorem ProperPrefix.of_cons {p l : List α} {a : α} (h : ProperPrefix p (a :: l)) :
    p = [] ∨ ∃ p', p = a :: p' ∧ ProperPrefix p' l := by
  rcases List.prefix_cons_iff.1 h.1 with rfl | ⟨p', rfl, hp'⟩
  · exact .inl rfl
  · exact .inr ⟨p', rfl, hp', fun heq => h.2 (congrArg (a :: ·) heq)⟩

theorem ProperPrefix.exists_take {p l : List α} (h : ProperPrefix p l) : ∃ n < l.length, p = l.take n := by
  refine ⟨p.length, Nat.lt_of_le_of_ne h.1.length_le fun hlength => h.2 ?_, List.prefix_iff_eq_take.1 h.1⟩
  exact h.1.eq_of_length hlength

theorem ProperPrefix.eq_nil {p : List α} {a : α} (h : ProperPrefix p [a]) : p = [] := by
  rcases h.of_cons with rfl | ⟨p', -, hp'⟩
  · rfl
  · exact absurd hp' (not_properPrefix_nil p')

/-- Without its last item a list still begins with whatever is a proper prefix of it. -/
theorem ProperPrefix.of_concat {p l : List α} {a : α} (h : ProperPrefix p (l ++ [a])) : p <+: l := by
  rcases h.of_append with hl | ⟨p', rfl, hp'⟩
  · exact hl.1
  · simp only [ProperPrefix.eq_nil hp', List.append_nil, List.prefix_rfl]

end Switchboard
