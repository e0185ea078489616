import Mathlib.Data.String.Basic
import Switchboard.Table

/-!
# Laws of tables

* (look-up) what `get?` finds after `put`, after `erase` and after a list of writes;
* (undoing) a `put` is undone by `erase`, or by a `put` of what was there;
* (order) `put` and `erase` keep the names in increasing order, and a list of writes leaves an ordered table;
* (uniqueness) an ordered table is what its own entries write (`ofWrites_of_ordered`), and two ordered tables in which
  the same is found are one (`Ordered.ext`);
* (last writes) of several writes to a name the last one is found (`get?_putAll`).
-/

namespace Switchboard.Table

variable {α : Type}

/-! ### Look-up -/

theorem get?_put (name k : String) (v : α) (t : Table α) :
    get? k (put name v t) = if name = k then some v else get? k t := by
  induction t with
  | nil => rfl
  | cons e r ih =>
    obtain ⟨k', v'⟩ := e
    unfold put
    split
    · rfl
    · split
      · rename_i h
        subst h
        by_cases hk : name = k <;> simp [get?, hk]
      · rename_i h
        by_cases hk : k' = k
        · subst hk
          simp [get?, h]
        · simp [get?, hk, ih]

theorem get?_put_self (name : String) (v : α) (t : Table α) : get? name (put name v t) = some v := by
  rw [get?_put, if_pos rfl]

theorem get?_put_of_ne {name k : String} (h : name ≠ k) (v : α) (t : Table α) :
    get? k (put name v t) = get? k t := by
  rw [get?_put, if_neg h]

theorem mem_of_get? {k : String} {v : α} {t : Table α} (h : get? k t = some v) : (k, v) ∈ t := by
  induction t with
  | nil => cases h
  | cons e r ih =>
    obtain ⟨k', v'⟩ := e
    unfold get? at h
    split at h
    · rename_i hk
      cases h
      subst hk
      exact List.mem_cons_self
    · exact List.mem_cons_of_mem _ (ih h)

theorem get?_eq_none {k : String} {t : Table α} (h : ∀ e ∈ t, e.1 ≠ k) : get? k t = none := by
  induction t with
  | nil => rfl
  | cons e r ih =>
    have he : e.1 ≠ k := h e List.mem_cons_self
    simp [get?, he, ih fun e' h' => h e' (List.mem_cons_of_mem _ h')]

/-! ### Order -/

theorem ordered_nil : Ordered ([] : Table α) := List.Pairwise.nil

theorem Ordered.tail {e : String × α} {t : Table α} (h : Ordered (e :: t)) : Ordered t :=
  (List.pairwise_cons.1 h).2

theorem Ordered.head_lt {e e' : String × α} {t : Table α} (h : Ordered (e :: t)) (he : e' ∈ t) : e.1 < e'.1 :=
  (List.pairwise_cons.1 h).1 e' he

/-- The first name of an ordered table stands nowhere else in it. -/
theorem Ordered.get?_tail {k : String} {v : α} {t : Table α} (h : Ordered ((k, v) :: t)) : get? k t = none :=
  get?_eq_none fun _ he => (ne_of_lt (h.head_lt he)).symm

/-- Each entry of an ordered table is the one that is found under its name. -/
theorem Ordered.get?_of_mem {k : String} {v : α} {t : Table α} (h : Ordered t) (hmem : (k, v) ∈ t) :
    get? k t = some v := by
  induction t with
  | nil => cases hmem
  | cons e r ih =>
    rcases List.mem_cons.1 hmem with rfl | hmem
    · exact if_pos rfl
    · rw [get?, if_neg (ne_of_lt (h.head_lt hmem))]
      exact ih h.tail hmem

theorem mem_put {name : String} {v : α} {t : Table α} {e : String × α} (h : e ∈ put name v t) :
    e = (name, v) ∨ e ∈ t := by
  induction t with
  | nil => exact Or.inl (List.mem_singleton.1 h)
  | cons e' r ih =>
    unfold put at h
    split at h
    · exact List.mem_cons.1 h
    · split at h
      · rcases List.mem_cons.1 h with h | h
        · exact Or.inl h
        · exact Or.inr (List.mem_cons_of_mem _ h)
      · rcases List.mem_cons.1 h with h | h
        · exact Or.inr (h ▸ List.mem_cons_self)
        · exact (ih h).imp_right (List.mem_cons_of_mem _)

theorem mem_of_mem_erase {name : String} {t : Table α} {e : String × α} (h : e ∈ erase name t) : e ∈ t := by
  induction t with
  | nil => cases h
  | cons e' r ih =>
    unfold erase at h
    split at h
    · exact List.mem_cons_of_mem _ h
    · rcases List.mem_cons.1 h with h | h
      · exact h ▸ List.mem_cons_self
      · exact List.mem_cons_of_mem _ (ih h)

theorem Ordered.put {t : Table α} (h : Ordered t) (name : String) (v : α) : Ordered (t.put name v) := by
  induction t with
  | nil => exact List.pairwise_singleton _ _
  | cons e r ih =>
    obtain ⟨k, w⟩ := e
    unfold Table.put
    split
    · rename_i hlt
      refine List.pairwise_cons.2 ⟨fun e' he => ?_, h⟩
      rcases List.mem_cons.1 he with rfl | he
      · exact hlt
      · exact lt_trans hlt (h.head_lt he)
    · rename_i hlt
      split
      · rename_i heq
        subst heq
        exact List.pairwise_cons.2 ⟨fun e' he => h.head_lt he, h.tail⟩
      · rename_i hne
        refine List.pairwise_cons.2 ⟨fun e' he => ?_, ih h.tail⟩
        rcases mem_put he with rfl | he
        · exact lt_of_le_of_ne (not_lt.1 hlt) (Ne.symm hne)
        · exact h.head_lt he

theorem Ordered.erase {t : Table α} (h : Ordered t) (name : String) : Ordered (t.erase name) := by
  induction t with
  | nil => exact h
  | cons e r ih =>
    unfold Table.erase
    split
    · exact h.tail
    · exact List.pairwise_cons.2 ⟨fun e' he => h.head_lt (mem_of_mem_erase he), ih h.tail⟩

theorem Ordered.get?_erase {t : Table α} (h : Ordered t) (name k : String) :
    Table.get? k (t.erase name) = if name = k then none else Table.get? k t := by
  induction t with
  | nil => simp [Table.erase, Table.get?]
  | cons e r ih =>
    obtain ⟨k', v⟩ := e
    unfold Table.erase
    split
    · rename_i hk
      subst hk
      by_cases hk : k' = k
      · subst hk
        rw [if_pos rfl, h.get?_tail]
      · simp [Table.get?, hk]
    · rename_i hk
      by_cases hk' : k' = k
      · subst hk'
        simp [Table.get?, Ne.symm hk]
      · simp [Table.get?, hk', ih h.tail]

/-- Ordered tables in which the same is found under every name are equal. -/
theorem Ordered.ext {t t' : Table α} (h : Ordered t) (h' : Ordered t')
    (hget : ∀ name, Table.get? name t = Table.get? name t') : t = t' := by
  -- the first name of one table stands in the other, so neither comes before the other
  have hle : ∀ {k k' : String} {v v' : α} {r r' : Table α}, Ordered ((k', v') :: r') →
      Table.get? k ((k, v) :: r) = Table.get? k ((k', v') :: r') → k' ≤ k := by
    intro k k' v v' r r' ho hk
    rw [Table.get?, if_pos rfl] at hk
    rcases List.mem_cons.1 (mem_of_get? hk.symm) with heq | hmem
    · cases heq
      exact le_refl k
    · exact le_of_lt (ho.head_lt hmem)
  induction t generalizing t' with
  | nil =>
    cases t' with
    | nil => rfl
    | cons e' r' => simpa [Table.get?] using hget e'.1
  | cons e r ih =>
    cases t' with
    | nil => simpa [Table.get?] using hget e.1
    | cons e' r' =>
      obtain ⟨k, v⟩ := e
      obtain ⟨k', v'⟩ := e'
      obtain rfl : k = k' := le_antisymm (hle h (hget k').symm) (hle h' (hget k))
      have hv : v = v' := by simpa [Table.get?] using hget k
      have hr : r = r' := by
        apply ih h.tail h'.tail
        intro name
        by_cases hname : k = name
        · subst hname
          rw [h.get?_tail, h'.get?_tail]
        · simpa [Table.get?, hname] using hget name
      rw [hv, hr]

/-! ### Undoing -/

theorem put_put (name : String) (v w : α) (t : Table α) : put name w (put name v t) = put name w t := by
  induction t with
  | nil => simp [put]
  | cons e r ih =>
    obtain ⟨k, x⟩ := e
    rcases lt_trichotomy name k with hlt | rfl | hgt
    · simp [put, hlt]
    · simp [put]
    · simp [put, lt_asymm hgt, ne_of_gt hgt, ih]

/-- What was not there before is gone again when it is erased. -/
theorem erase_put {name : String} {t : Table α} (h : get? name t = none) (v : α) : erase name (put name v t) = t := by
  induction t with
  | nil => simp [put, erase]
  | cons e r ih =>
    obtain ⟨k, x⟩ := e
    have hk : k ≠ name := by
      rintro rfl
      simp [get?] at h
    rw [get?, if_neg hk] at h
    unfold put
    split
    · simp [erase]
    · rw [if_neg (Ne.symm hk), erase, if_neg hk, ih h]

/-- An ordered table stays the same when an entry of it is written once more. -/
theorem Ordered.put_eq_self {t : Table α} (h : Ordered t) {name : String} {v : α} (hv : Table.get? name t = some v) :
    Table.put name v t = t := by
  induction t with
  | nil => cases hv
  | cons e r ih =>
    obtain ⟨k, x⟩ := e
    by_cases hk : k = name
    · subst hk
      rw [Table.get?, if_pos rfl] at hv
      cases hv
      simp [Table.put]
    · rw [Table.get?, if_neg hk] at hv
      have hlt : k < name := h.head_lt (mem_of_get? hv)
      rw [Table.put, if_neg (lt_asymm hlt), if_neg (ne_of_gt hlt), ih h.tail hv]

/-! ### Lists of writes -/

/-- An entry whose name comes behind all others is put at the end. -/
theorem put_of_lt {t : Table α} {name : String} (h : ∀ e ∈ t, e.1 < name) (v : α) :
    put name v t = t ++ [(name, v)] := by
  induction t with
  | nil => rfl
  | cons e r ih =>
    have he : e.1 < name := h e List.mem_cons_self
    unfold put
    rw [if_neg (lt_asymm he), if_neg (ne_of_gt he), ih fun e' h' => h e' (List.mem_cons_of_mem _ h')]
    rfl

/-- An entry that comes behind the others in order is put behind them. -/
theorem Ordered.put_append {t r : Table α} {name : String} {v : α} (h : Ordered (t ++ (name, v) :: r)) :
    Table.put name v t = t ++ [(name, v)] :=
  put_of_lt (fun e he => (List.pairwise_append.1 h).2.2 e he (name, v) List.mem_cons_self) v

private theorem foldl_put_of_ordered (l t : Table α) (h : Ordered (t ++ l)) :
    l.foldl (fun t w => put w.1 w.2 t) t = t ++ l := by
  induction l generalizing t with
  | nil => simp
  | cons w r ih =>
    have hput : put w.1 w.2 t = t ++ [w] := h.put_append
    rw [List.foldl_cons, hput, ih _ (by simpa using h)]
    simp

/-- Writing the entries of an ordered table leaves that table. -/
theorem ofWrites_of_ordered {t : Table α} (h : Ordered t) : ofWrites t = t := foldl_put_of_ordered t [] h

/-! ### Writes -/

/-- A list of writes on top of a table. -/
def putAll (writes : List (String × α)) (t : Table α) : Table α := writes.foldl (fun t w => put w.1 w.2 t) t

theorem Ordered.putAll {t : Table α} (h : Ordered t) (writes : List (String × α)) : Ordered (putAll writes t) := by
  induction writes generalizing t with
  | nil => exact h
  | cons w r ih => exact ih (h.put w.1 w.2)

theorem ordered_ofWrites (writes : List (String × α)) : Ordered (ofWrites writes) := ordered_nil.putAll writes

theorem mem_putAll {writes : List (String × α)} {t : Table α} {e : String × α} (h : e ∈ putAll writes t) :
    e ∈ writes ∨ e ∈ t := by
  induction writes generalizing t with
  | nil => exact Or.inr h
  | cons w r ih =>
    rcases ih h with hr | hput
    · exact Or.inl (List.mem_cons_of_mem _ hr)
    · rcases mem_put hput with rfl | ht
      · exact Or.inl List.mem_cons_self
      · exact Or.inr ht

theorem mem_of_mem_ofWrites {writes : List (String × α)} {e : String × α} (h : e ∈ ofWrites writes) : e ∈ writes := by
  rcases mem_putAll h with h | h
  · exact h
  · cases h

/-- A name is there afterwards if it is written or was there. -/
theorem has_putAll {writes : List (String × α)} {t : Table α} {name : String} :
    has name (putAll writes t) = true ↔ name ∈ writes.map (·.1) ∨ has name t = true := by
  induction writes generalizing t with
  | nil => simp [putAll]
  | cons w r ih =>
    have hput : has name (put w.1 w.2 t) = true ↔ name = w.1 ∨ has name t = true := by
      unfold has
      rw [get?_put]
      split
      · rename_i heq
        exact ⟨fun _ => .inl heq.symm, fun _ => rfl⟩
      · rename_i hne
        exact ⟨.inr, fun h => h.resolve_left (Ne.symm hne)⟩
    rw [List.map_cons, List.mem_cons, or_assoc, or_left_comm, ← hput]
    exact ih

theorem has_ofWrites {writes : List (String × α)} {name : String} :
    has name (ofWrites writes) = true ↔ name ∈ writes.map (·.1) :=
  has_putAll.trans (or_iff_left Bool.false_ne_true)

/-- The last of several writes to a name. -/
def last? (name : String) : List (String × α) → Option α
  | [] => none
  | (k, v) :: r => (last? name r).or (if k = name then some v else none)

/-- Under a name stands what was written there last, or what was there before. -/
theorem get?_putAll (name : String) (writes : List (String × α)) (t : Table α) :
    get? name (putAll writes t) = (last? name writes).or (get? name t) := by
  induction writes generalizing t with
  | nil => rfl
  | cons w r ih =>
    obtain ⟨k, v⟩ := w
    have hput : get? name (put k v t) = (if k = name then some v else none).or (get? name t) := by
      rw [get?_put]
      split <;> rfl
    rw [last?, Option.or_assoc, ← hput]
    exact ih (put k v t)

theorem get?_ofWrites (name : String) (writes : List (String × α)) :
    get? name (ofWrites writes) = last? name writes :=
  (get?_putAll name writes []).trans Option.or_none

theorem last?_map {β : Type} (f : α → β) (name : String) (writes : List (String × α)) :
    last? name (writes.map fun e => (e.1, f e.2)) = (last? name writes).map f := by
  induction writes with
  | nil => rfl
  | cons w r ih =>
    rw [List.map_cons, last?, last?, ih, Option.map_or]
    split <;> rfl

theorem mem_of_last? {name : String} {v : α} {writes : List (String × α)} (h : last? name writes = some v) :
    (name, v) ∈ writes := by
  rw [← get?_ofWrites] at h
  exact mem_of_mem_ofWrites (mem_of_get? h)

theorem isSome_last? {name : String} {writes : List (String × α)} :
    (last? name writes).isSome = true ↔ name ∈ writes.map (·.1) := by
  rw [← get?_ofWrites]
  exact has_ofWrites

/-- In an ordered table every name is written once. -/
theorem Ordered.last?_eq {t : Table α} (h : Ordered t) (name : String) : last? name t = Table.get? name t := by
  rw [← get?_ofWrites, ofWrites_of_ordered h]

theorem get?_putAll_of_not_mem {writes : List (String × α)} {name : String} (h : name ∉ writes.map (·.1))
    (t : Table α) : get? name (putAll writes t) = get? name t := by
  induction writes generalizing t with
  | nil => rfl
  | cons w r ih =>
    rw [List.map_cons, List.mem_cons, not_or] at h
    exact (ih h.2 _).trans (get?_put_of_ne (Ne.symm h.1) w.2 t)

/-- Of writes to different names each can be read afterwards. -/
theorem get?_putAll_of_mem {writes : List (String × α)} (hnodup : (writes.map (·.1)).Nodup) {name : String} {v : α}
    (h : (name, v) ∈ writes) (t : Table α) : get? name (putAll writes t) = some v := by
  induction writes generalizing t with
  | nil => cases h
  | cons w r ih =>
    rw [List.map_cons, List.nodup_cons] at hnodup
    rcases List.mem_cons.1 h with rfl | h
    · exact (get?_putAll_of_not_mem hnodup.1 _).trans (get?_put_self name v t)
    · exact ih hnodup.2 h _

theorem length_put_le (name : String) (v : α) (t : Table α) : (put name v t).length ≤ t.length + 1 := by
  induction t with
  | nil => exact Nat.le_refl _
  | cons e r ih =>
    unfold put
    split
    · exact Nat.le_refl _
    · split
      · exact Nat.le_succ _
      · exact Nat.succ_le_succ ih

theorem length_putAll_le (writes : List (String × α)) (t : Table α) :
    (putAll writes t).length ≤ writes.length + t.length := by
  induction writes generalizing t with
  | nil => simp [putAll]
  | cons w r ih =>
    have hrest := ih (put w.1 w.2 t)
    have hput := length_put_le w.1 w.2 t
    rw [List.length_cons]
    exact Nat.le_trans hrest (by omega)

theorem length_ofWrites_le (writes : List (String × α)) : (ofWrites writes).length ≤ writes.length :=
  length_putAll_le writes []

end Switchboard.Table
