import Switchboard.Json.Basic
import Switchboard.Proofs.Lists

/-!
# JSON values of one kind

Texts and lists of texts are read from the values that hold them, and from no others.
-/

namespace Switchboard.Json

theorem getStr?_eq_some_iff {v : Json} {s : String} : v.getStr? = some s ↔ v = .str s := by
  cases v <;> simp [getStr?]

theorem mapM_getStr?_eq_some_iff {items : List Json} {l : List String} :
    items.mapM getStr? = some l ↔ items = l.map .str := by
  constructor
  · intro h
    induction items generalizing l with
    | nil =>
      obtain rfl : [] = l := by simpa using h
      rfl
    | cons item items ih =>
      rw [List.mapM_cons] at h
      obtain ⟨s, hs, h⟩ := Option.bind_eq_some_iff.1 h
      obtain ⟨rest, hrest, h⟩ := Option.bind_eq_some_iff.1 h
      cases h
      rw [getStr?_eq_some_iff.1 hs, ih hrest, List.map_cons]
  · rintro rfl
    exact mapM_map_eq_pure fun _ _ => rfl

theorem strings?_eq_some_iff {v : Json} {l : List String} :
    (v.getArr?.bind fun items => items.mapM getStr?) = some l ↔ v = .strings l := by
  cases v <;> simp [getArr?, strings, mapM_getStr?_eq_some_iff]

end Switchboard.Json
