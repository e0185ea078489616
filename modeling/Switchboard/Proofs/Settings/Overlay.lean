import Switchboard.Proofs.Json.Ordered
import Switchboard.Settings.Merge

/-!
# What is found in layered values

Laying members over others is decided name by name (`get?_overlayMembers`): an upper member that is missing or null
leaves the lower one, any other is laid over the lower one or stands alone. Nothing but an object lets anything of
another value through (`overlay_leaf`), and nothing but an object keeps anything of itself under another value
(`overlay_of_not_obj`).
-/

namespace Switchboard.Json

/-- A value that is given: there, and not null. -/
def given : Option Json → Option Json
  | some .null => none
  | v => v

theorem given_of_ne_null {v : Json} (h : v ≠ .null) : given (some v) = some v := by
  cases v with
  | null => exact absurd rfl h
  | _ => rfl

theorem given_eq_none {o : Option Json} (h : given o = none) : o = none ∨ o = some .null := by
  cases o with
  | none => exact .inl rfl
  | some v =>
    by_cases hv : v = .null
    · exact .inr (congrArg some hv)
    · rw [given_of_ne_null hv] at h
      cases h

theorem eq_some_of_given {o : Option Json} {v : Json} (h : given o = some v) : o = some v ∧ v ≠ .null := by
  match o with
  | none => cases h
  | some w =>
    by_cases hw : w = .null
    · subst hw
      cases h
    · rw [given_of_ne_null hw] at h
      cases h
      exact ⟨rfl, hw⟩

/-- What is found under a name of two layers. -/
def layer (lower upper : Option Json) : Option Json :=
  match given upper with
  | none => lower
  | some v => some (lower.elim v (·.overlay v))

theorem overlay_leaf {upper : Json} (h : ∀ members, upper ≠ .obj members) (lower : Json) :
    lower.overlay upper = upper := by
  cases upper with
  | obj members => exact absurd rfl (h members)
  | _ => rfl

theorem overlay_obj_obj (lower upper : Table Json) :
    overlay (.obj lower) (.obj upper) = .obj (overlayMembers lower upper) := by
  rw [overlay]

theorem overlay_of_not_obj {lower : Json} (h : ∀ members, lower ≠ .obj members) (upper : Json) :
    lower.overlay upper = upper := by
  cases upper with
  | obj members =>
    unfold overlay
    split
    · exact absurd rfl (h _)
    · rfl
  | _ => rfl

/-- A value is an object, or nothing of it is left under any other. -/
theorem obj_or_overlay (lower : Json) : (∃ members, lower = .obj members) ∨ ∀ upper, lower.overlay upper = upper := by
  by_cases h : ∃ members, lower = .obj members
  · exact .inl h
  · exact .inr (overlay_of_not_obj (not_exists.1 h))

theorem overlayMembers_cons_of_ne_null (lower : Table Json) (name : String) {v : Json} (h : v ≠ .null)
    (rest : List (String × Json)) :
    overlayMembers lower ((name, v) :: rest) =
      overlayMembers (Table.put name ((Table.get? name lower).elim v (·.overlay v)) lower) rest := by
  rw [overlayMembers.eq_def]
  split
  · rename_i heq
    cases heq
  · rename_i heq
    cases heq
    exact absurd rfl h
  · rename_i heq
    cases heq
    split <;> rename_i hget <;> rw [hget] <;> rfl

/-- Members are laid over others name by name. -/
theorem get?_overlayMembers {upper : Table Json} (ho : Table.Ordered upper) (lower : Table Json) (name : String) :
    Table.get? name (overlayMembers lower upper) = layer (Table.get? name lower) (Table.get? name upper) := by
  induction upper generalizing lower with
  | nil => rfl
  | cons m rest ih =>
    obtain ⟨k, v⟩ := m
    have hrest := ih ho.tail
    by_cases hk : k = name
    · subst hk
      rw [Table.get?, if_pos rfl]
      by_cases hv : v = .null
      · subst hv
        rw [overlayMembers, hrest, ho.get?_tail]
        rfl
      · rw [overlayMembers_cons_of_ne_null lower k hv, hrest, ho.get?_tail, Table.get?_put_self, layer, layer,
          given_of_ne_null hv]
        rfl
    · rw [Table.get?, if_neg hk]
      by_cases hv : v = .null
      · subst hv
        rw [overlayMembers, hrest]
      · rw [overlayMembers_cons_of_ne_null lower k hv, hrest, Table.get?_put_of_ne hk]

end Switchboard.Json
