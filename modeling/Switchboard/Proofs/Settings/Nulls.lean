import Switchboard.Proofs.Settings.Layers

/-!
# Nulls in the upper layer

A null leaves the lower layer as it is only where objects are merged: if the lower value holds an object in which the
last name of the path may stand (`Json.HasPlace`). Anywhere else the upper value is taken whole, with its nulls
(`Json.null_leaves_lower_iff`), and so is a null that stands for all of it: a settings file that holds null alone is
refused.
-/

namespace Switchboard

namespace Json

theorem overlay_null (lower : Json) : lower.overlay .null = .null := overlay_leaf (by nofun) lower

/-- Under a name of two objects stands what is laid over there. -/
theorem at?_overlay_cons {lower upper : Table Json} (ho : Table.Ordered upper) (name : String) (path : List String) :
    at? (name :: path) (overlay (.obj lower) (.obj upper)) =
      (layer (Table.get? name lower) (Table.get? name upper)).bind (at? path) := by
  rw [overlay_obj_obj, at?, member?, get?_overlayMembers ho]

/-- A value holds an object in which the last name of a path may stand. -/
def HasPlace (path : List String) (v : Json) : Prop :=
  path ≠ [] ∧ ∃ members, v.at? path.dropLast = some (.obj members)

theorem hasPlace_singleton_iff {name : String} {v : Json} : HasPlace [name] v ↔ ∃ members, v = .obj members := by
  simp [HasPlace, at?]

theorem hasPlace_cons_iff {name : String} {path : List String} (hne : path ≠ []) {v : Json} :
    HasPlace (name :: path) v ↔ ∃ u, v.member? name = some u ∧ HasPlace path u := by
  simp [HasPlace, at?, List.dropLast_cons_of_ne_nil hne, hne, Option.bind_eq_some_iff]
  tauto

theorem not_hasPlace_cons_of_not_obj {v : Json} (h : ∀ members, v ≠ .obj members) (name : String)
    (path : List String) :
    ¬HasPlace (name :: path) v := by
  have hmember : v.member? name = none := by
    unfold member?
    split
    · exact absurd rfl (h _)
    · rfl
  by_cases hne : path = []
  · subst hne
    rw [hasPlace_singleton_iff]
    rintro ⟨members, rfl⟩
    exact h members rfl
  · rw [hasPlace_cons_iff hne, hmember]
    rintro ⟨u, hu, -⟩
    cases hu

theorem exists_of_at?_cons {name : String} {path : List String} {u v : Json} (h : v.at? (name :: path) = some u) :
    ∃ members w, v = .obj members ∧ Table.get? name members = some w ∧ w.at? path = some u := by
  obtain ⟨w, hw, hpath⟩ := Option.bind_eq_some_iff.1 h
  unfold member? at hw
  split at hw
  · exact ⟨_, w, rfl, hw, hpath⟩
  · cases hw

/-- Where the upper value holds null, the lower one stays as it is if it has the place; otherwise the null stands. -/
theorem at?_overlay_of_null {lower upper : Json} (ho : upper.Ordered) {path : List String}
    (hnull : upper.at? path = some .null) :
    (lower.HasPlace path → (lower.overlay upper).at? path = lower.at? path) ∧
      (¬lower.HasPlace path → (lower.overlay upper).at? path = some .null) := by
  induction path generalizing lower upper with
  | nil =>
    obtain rfl : upper = .null := Option.some.inj hnull
    rw [overlay_null]
    exact ⟨fun h => absurd rfl h.1, fun _ => rfl⟩
  | cons name path ih =>
    by_cases hlower : ∃ members, lower = .obj members
    swap
    · -- nothing is merged, so the upper value is there as it was
      rw [not_exists] at hlower
      rw [overlay_of_not_obj hlower]
      exact ⟨fun h => absurd h (not_hasPlace_cons_of_not_obj hlower name path), fun _ => hnull⟩
    obtain ⟨below, rfl⟩ := hlower
    obtain ⟨members, w, rfl, hget, hw⟩ := exists_of_at?_cons hnull
    rw [at?_overlay_cons ho.1, hget]
    by_cases hpath : path = []
    · -- the null is a member of two objects that are merged
      subst hpath
      obtain rfl : w = .null := Option.some.inj hw
      exact ⟨fun _ => rfl, fun h => absurd (hasPlace_singleton_iff.2 ⟨below, rfl⟩) h⟩
    have hne : w ≠ .null := by
      rintro rfl
      obtain ⟨first, rest, rfl⟩ := List.exists_cons_of_ne_nil hpath
      cases hw
    rw [layer, given_of_ne_null hne, hasPlace_cons_iff hpath]
    cases hbelow : Table.get? name below with
    | none =>
      refine ⟨fun h => ?_, fun _ => hw⟩
      obtain ⟨u, hu, -⟩ := h
      cases hbelow.symm.trans hu
    | some u =>
      obtain ⟨hkept, hnull⟩ : (HasPlace path u → _) ∧ (¬HasPlace path u → _) := ih (ho.get? hget) hw
      have hplace : (∃ t, (obj below).member? name = some t ∧ HasPlace path t) ↔ HasPlace path u := by
        rw [member?, hbelow]
        simp
      rw [hplace, at?, member?, hbelow]
      exact ⟨hkept, hnull⟩

/-- Where the upper value holds null, the lower one stays as it is if it holds an object in which the last name of the
path may stand; otherwise the null stands there. So nulls leave the lower value as it is just in these places, and
where it held null before. -/
theorem null_leaves_lower_iff {lower upper : Json} (ho : upper.Ordered) {path : List String}
    (hnull : upper.at? path = some .null) :
    (lower.HasPlace path → (lower.overlay upper).at? path = lower.at? path) ∧
      (¬lower.HasPlace path → (lower.overlay upper).at? path = some .null) ∧
      ((lower.overlay upper).at? path = lower.at? path ↔ lower.HasPlace path ∨ lower.at? path = some .null) := by
  by_cases hplace : lower.HasPlace path
  · have hkept := (at?_overlay_of_null ho hnull).1 hplace
    exact ⟨fun _ => hkept, fun h => absurd hplace h, fun _ => .inl hplace, fun _ => hkept⟩
  · have hstands := (at?_overlay_of_null ho hnull).2 hplace
    refine ⟨fun h => absurd h hplace, fun _ => hstands, fun h => .inr (h.symm.trans hstands), fun h => ?_⟩
    rw [hstands, h.resolve_left hplace]

/-- What is known of a depot. -/
private def depot : Json := .obj [("gate", .nat 7), ("yard", .obj [("door", .str "open")])]

/-- Nulls of another layer, one of them where the depot has a door. -/
private def emptied : Json := .obj [("roof", .obj [("door", .null)]), ("yard", .obj [("door", .null)])]

theorem null_leaves_lower_iff_depot :
    (depot.overlay emptied).at? ["yard", "door"] = some (.str "open") ∧
      (depot.overlay emptied).at? ["roof", "door"] = some .null := by
  have hnames : "roof" < "yard" := by decide
  have ho : emptied.Ordered := by simpa [emptied, Ordered, OrderedMembers, Table.Ordered] using hnames
  have hyard : depot.HasPlace ["yard", "door"] := ⟨List.cons_ne_nil _ _, _, rfl⟩
  have hroof : ¬depot.HasPlace ["roof", "door"] := by
    rintro ⟨-, members, h⟩
    cases h
  exact ⟨(null_leaves_lower_iff ho rfl).1 hyard, (null_leaves_lower_iff ho rfl).2.1 hroof⟩

end Json

/-- A file that holds null alone does not load. -/
theorem Settings.load_of_null {file : SettingsFile} (h : file.document? = some .null)
    (environment : String → Option String) : load file environment = (.error .shape, []) := by
  rw [load, SettingsFile.layered_of_document? h, Json.overlay_null]
  rfl

/-- A null takes the place of all that is known of the depot, it stands under names that the depot does not have, and
instead of what is no object; and settings do not load from a file that holds it, though they would without the
file. -/
theorem null_empties_depot :
    (Json.null.at? [] = some .null ∧ (Json.depot.overlay .null).at? [] = some .null ∧
        Json.depot.at? [] = some Json.depot ∧ Json.depot ≠ .null) ∧
      (Json.emptied.at? ["roof", "door"] = some .null ∧
        (Json.depot.overlay Json.emptied).at? ["roof", "door"] = some .null ∧
        Json.depot.at? ["roof", "door"] = none) ∧
      (Settings.load (.content (Utf8.encode "null")) fun _ => none) = (.error .shape, []) ∧
      (Settings.load .absent fun _ => none) = (.ok .standard, []) := by
  refine ⟨⟨rfl, rfl, rfl, nofun⟩, ⟨rfl, rfl, rfl⟩, ?_, rfl⟩
  refine Settings.load_of_null ?_ _
  rw [SettingsFile.document?, Utf8.decode?_encode]
  rfl

end Switchboard
