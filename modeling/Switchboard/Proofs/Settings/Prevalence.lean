import Switchboard.Proofs.Settings.Nulls

/-!
# Which layer prevails

Layered values are in order (`ordered_overlay`). An upper layer that is laid over a value once more changes nothing
(`overlay_overlay`): under each name there is by then what it leaves or what it puts there itself. Where it holds a
value that is neither an object nor null, that value stands (`at?_overlay_of_leaf`), and what the lower layer holds
stays wherever the way there leads through objects of the upper one to a name that is missing or null in it
(`at?_overlay_of_missing`).
-/

namespace Switchboard.Json

/-! ### Order -/

mutual
theorem ordered_overlay {lower upper : Json} (hl : lower.Ordered) (hu : upper.Ordered) :
    (lower.overlay upper).Ordered := by
  match upper with
  | .obj members =>
    rcases lower.obj_or_overlay with ⟨below, rfl⟩ | hwhole
    · rw [overlay_obj_obj]
      exact ordered_overlayMembers hl hu.2
    · rw [hwhole]
      exact hu
  | .null | .bool _ | .num _ | .str _ | .arr _ =>
    rw [overlay_leaf]
    · exact hu
    · nofun

theorem ordered_overlayMembers {lower : Table Json} {upper : List (String × Json)} (hl : (obj lower).Ordered)
    (hu : OrderedMembers upper) : (obj (overlayMembers lower upper)).Ordered := by
  match upper with
  | [] => exact hl
  | (name, v) :: rest =>
    by_cases hv : v = .null
    · subst hv
      rw [overlayMembers]
      exact ordered_overlayMembers hl hu.2
    · rw [overlayMembers_cons_of_ne_null lower name hv]
      refine ordered_overlayMembers (ordered_obj_put hl name ?_) hu.2
      cases hold : Table.get? name lower with
      | none => exact hu.1
      | some old => exact ordered_overlay (hl.get? hold) hu.1
end

/-! ### Once more -/

/-- What a value leaves when it is laid over another stays as it is when the value is laid over it once more. -/
def Settles (v : Json) : Prop := ∀ lower : Json, lower.Ordered → (lower.overlay v).overlay v = lower.overlay v

theorem Settles.overlay_self {v : Json} (h : v.Settles) : v.overlay v = v := by
  have hnull : Json.null.overlay v = v := by
    rw [overlay_of_not_obj]
    nofun
  have hsettled := h .null trivial
  rwa [hnull] at hsettled

/-- Under a name of two layers nothing changes either. -/
theorem layer_layer {lower upper : Option Json} (hl : ∀ u, lower = some u → u.Ordered)
    (h : ∀ v, upper = some v → v.Settles) : layer (layer lower upper) upper = layer lower upper := by
  cases hgiven : given upper with
  | none => simp only [layer, hgiven]
  | some v =>
    have hv : v.Settles := h v (eq_some_of_given hgiven).1
    simp only [layer, hgiven]
    cases lower with
    | none => exact congrArg some hv.overlay_self
    | some u => exact congrArg some (hv u (hl u rfl))

theorem layer_self {upper : Option Json} (h : ∀ v, upper = some v → v.Settles) : layer upper upper = upper := by
  cases hgiven : given upper with
  | none => simp only [layer, hgiven]
  | some v =>
    obtain ⟨rfl, -⟩ := eq_some_of_given hgiven
    simp only [layer, hgiven]
    exact congrArg some (h v rfl).overlay_self

/-- An object settles if its members do. -/
theorem settles_obj {members : Table Json} (hu : (obj members).Ordered)
    (h : ∀ name v, Table.get? name members = some v → v.Settles) : (obj members).Settles := by
  intro lower hl
  rcases lower.obj_or_overlay with ⟨below, rfl⟩ | hwhole
  · have hlaid : (obj (overlayMembers below members)).Ordered := ordered_overlayMembers hl hu.2
    have htwice : (obj (overlayMembers (overlayMembers below members) members)).Ordered :=
      ordered_overlayMembers hlaid hu.2
    rw [overlay_obj_obj, overlay_obj_obj]
    refine congrArg obj (Table.Ordered.ext htwice.1 hlaid.1 fun name => ?_)
    rw [get?_overlayMembers hu.1, get?_overlayMembers hu.1]
    exact layer_layer (fun u hget => hl.get? hget) (h name)
  · -- nothing is merged at first, so the members meet themselves
    have hself : (obj (overlayMembers members members)).Ordered := ordered_overlayMembers hu hu.2
    rw [hwhole, overlay_obj_obj]
    refine congrArg obj (Table.Ordered.ext hself.1 hu.1 fun name => ?_)
    rw [get?_overlayMembers hu.1]
    exact layer_self (h name)

mutual
theorem settles {v : Json} (hv : v.Ordered) : v.Settles := by
  match v with
  | .obj members => exact settles_obj hv (settles_of_get? hv.2)
  | .null | .bool _ | .num _ | .str _ | .arr _ =>
    intro lower hl
    rw [overlay_leaf, overlay_leaf] <;> nofun

theorem settles_of_get? {members : List (String × Json)} (hu : OrderedMembers members) (name : String) (v : Json)
    (hget : Table.get? name members = some v) : v.Settles := by
  match members with
  | (k, u) :: rest =>
    rw [Table.get?] at hget
    split at hget
    · cases hget
      exact settles hu.1
    · exact settles_of_get? hu.2 name v hget
end

/-- A layer that is laid over a value once more changes nothing. -/
theorem overlay_overlay {lower upper : Json} (hl : lower.Ordered) (hu : upper.Ordered) :
    (lower.overlay upper).overlay upper = lower.overlay upper := settles hu lower hl

/-! ### Values that stand -/

theorem ne_null_of_at? {v u : Json} {path : List String} (h : v.at? path = some u) (hu : u ≠ .null) : v ≠ .null := by
  rintro rfl
  cases path with
  | nil => exact hu (Option.some.inj h).symm
  | cons name path => cases h

/-- A value of the upper layer that is neither an object nor null stands in its place. -/
theorem at?_overlay_of_leaf {lower upper : Json} (hu : upper.Ordered) {path : List String} {v : Json}
    (h : upper.at? path = some v) (hnull : v ≠ .null) (hleaf : ∀ members, v ≠ .obj members) :
    (lower.overlay upper).at? path = some v := by
  induction path generalizing lower upper with
  | nil =>
    obtain rfl : upper = v := Option.some.inj h
    rw [overlay_leaf hleaf, at?]
  | cons name path ih =>
    rcases lower.obj_or_overlay with ⟨below, rfl⟩ | hwhole
    swap
    · rw [hwhole]
      exact h
    obtain ⟨members, w, rfl, hget, hw⟩ := exists_of_at?_cons h
    rw [at?_overlay_cons hu.1, hget, layer, given_of_ne_null (ne_null_of_at? hw hnull)]
    cases Table.get? name below with
    | none => exact hw
    | some old => exact ih (hu.get? hget) hw

/-- What the lower layer holds stays if the way there leads through objects of the upper layer to a name that is
missing or null in it. -/
theorem at?_overlay_of_missing {lower upper : Json} (hu : upper.Ordered) {front rest : List String} {name : String}
    {v : Json} {members : Table Json} (hl : lower.at? (front ++ name :: rest) = some v)
    (hfront : upper.at? front = some (.obj members)) (hmissing : given (Table.get? name members) = none) :
    (lower.overlay upper).at? (front ++ name :: rest) = some v := by
  induction front generalizing lower upper with
  | nil =>
    obtain rfl : upper = .obj members := Option.some.inj hfront
    obtain ⟨below, w, rfl, hbelow, hw⟩ := exists_of_at?_cons hl
    rw [List.nil_append, at?_overlay_cons hu.1, layer, hmissing, hbelow]
    exact hw
  | cons k front ih =>
    obtain ⟨outer, u, rfl, hget, hu'⟩ := exists_of_at?_cons hfront
    obtain ⟨below, w, rfl, hbelow, hw⟩ := exists_of_at?_cons hl
    have hne : u ≠ .null := ne_null_of_at? hu' (by simp)
    rw [List.cons_append, at?_overlay_cons hu.1, hget, layer, given_of_ne_null hne, hbelow]
    exact ih (hu.get? hget) hw hu'

/-- A layer that is laid over a value twice leaves what it leaves when it is laid over it once. Where it holds a value
that is neither an object nor null, that value stands, and where it holds objects up to a name that is missing or null
in the last of them, what the lower value holds there and behind that name stays. -/
theorem upper_prevails_where_given {lower upper : Json} (hl : lower.Ordered) (hu : upper.Ordered) :
    (lower.overlay upper).overlay upper = lower.overlay upper ∧
    (∀ path v, upper.at? path = some v → v ≠ .null → (∀ members, v ≠ .obj members) →
      (lower.overlay upper).at? path = some v) ∧
    ∀ front name rest members v, lower.at? (front ++ name :: rest) = some v →
      upper.at? front = some (.obj members) →
      (Table.get? name members = none ∨ Table.get? name members = some .null) →
      (lower.overlay upper).at? (front ++ name :: rest) = some v := by
  refine ⟨overlay_overlay hl hu, fun path v => at?_overlay_of_leaf hu,
    fun front name rest members v hv hfront hname => ?_⟩
  have hmissing : given (Table.get? name members) = none := by
    rcases hname with h | h
    · rw [h]
      rfl
    · rw [h]
      rfl
  exact at?_overlay_of_missing hu hv hfront hmissing

/-- What is known of a quay: a crane with a load and a berth. -/
private def quay : Json :=
  .obj [("berth", .strings ["north", "south"]), ("crane", .obj [("load", .nat 7), ("state", .str "idle")])]

/-- News of the quay: the berth is another, and the load of the crane is not known. -/
private def news : Json :=
  .obj [("berth", .strings ["west"]), ("crane", .obj [("load", .null), ("state", .str "busy")])]

/-- The news are laid over the quay twice. The new berth stands, which is an array, and so does the load that the quay
has for its crane. -/
theorem upper_prevails_where_given_quay :
    (quay.overlay news).overlay news = quay.overlay news ∧
      (quay.overlay news).at? ["berth"] = some (.strings ["west"]) ∧
      (quay.overlay news).at? ["crane", "load"] = some (.nat 7) := by
  have hnames : "berth" < "crane" ∧ "load" < "state" := by decide
  have hquay : quay.Ordered := by
    simpa [quay, Ordered, OrderedMembers, OrderedItems, Table.Ordered, strings, nat, int] using hnames
  have hnews : news.Ordered := by
    simpa [news, Ordered, OrderedMembers, OrderedItems, Table.Ordered, strings] using hnames
  have hwest : strings ["west"] ≠ .null ∧ ∀ members, strings ["west"] ≠ .obj members := by simp [strings]
  obtain ⟨htwice, hstands, hstays⟩ := upper_prevails_where_given hquay hnews
  exact ⟨htwice, hstands ["berth"] _ rfl hwest.1 hwest.2, hstays ["crane"] "load" [] _ _ rfl rfl (.inr rfl)⟩

end Switchboard.Json
