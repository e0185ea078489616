import Switchboard.Proofs.Json.Reading
import Switchboard.Proofs.Settings.Overlay
import Switchboard.Proofs.Settings.Setting

/-!
# Settings in a document

A document gives a setting a value if there is one at the path of the setting that is not null (`Setting.given?`).
Laid over the defaults it reads as settings if and only if each of its values says what the setting is, and the
settings to which it gives none are the defaults (`Settings.ofJson?_overlay_iff`). So what it gives elsewhere does not
matter.
-/

namespace Switchboard

namespace Json

/-! ### Values of one kind -/

theorem natBelow?_eq_some_iff {bound n : Nat} {v : Json} : natBelow? bound v = some n ↔ v = .nat n ∧ n < bound := by
  constructor
  · intro h
    obtain ⟨i, hi, hbelow⟩ := Option.bind_eq_some_iff.1 h
    have hv : v = .int i := by
      unfold getInt? at hi
      split at hi
      · cases hi
        rfl
      · cases hi
    obtain ⟨hbound, hn⟩ := Option.ite_none_right_eq_some.1 hbelow
    cases hn
    rw [hv, nat, Int.toNat_of_nonneg hbound.1]
    exact ⟨rfl, by omega⟩
  · rintro ⟨rfl, hn⟩
    simp [natBelow?, nat, int, getInt?, hn]

/-- The values of a machine type are read from the numbers that it can hold. -/
theorem map_natBelow?_eq_some_iff {α : Type} {read : Nat → α} (toNat : α → Nat) {bound : Nat}
    (hread : ∀ n < bound, toNat (read n) = n) (hbound : ∀ x, toNat x < bound) (hback : ∀ x, read (toNat x) = x)
    {v : Json} {x : α} : (read <$> v.natBelow? bound) = some x ↔ v = .nat (toNat x) := by
  simp only [Option.map_eq_map, Option.map_eq_some_iff, natBelow?_eq_some_iff]
  constructor
  · rintro ⟨n, ⟨rfl, hn⟩, rfl⟩
    rw [hread n hn]
  · rintro rfl
    exact ⟨toNat x, ⟨rfl, hbound x⟩, hback x⟩

theorem codec?_eq_some_iff {v : Json} {c : Codec} :
    Codec.ofJson? v = some c ↔ v = .str c.text ∨ v = .obj [(c.text, .null)] := by
  have hfind : ∀ name : String, Codec.all.find? (·.text == name) = some c ↔ name = c.text := by
    intro name
    constructor
    · intro h
      have htext := List.find?_some h
      exact (beq_iff_eq.1 htext).symm
    · rintro rfl
      cases c <;> rfl
  have hvariant : ∀ name : String, v.variant? = some name ↔ v = .str name ∨ v = .obj [(name, .null)] := by
    intro name
    unfold variant?
    split <;> simp_all
  simp only [Codec.ofJson?, Option.bind_eq_bind, Option.bind_eq_some_iff, hfind, hvariant]
  constructor
  · rintro ⟨name, hname, rfl⟩
    exact hname
  · intro h
    exact ⟨c.text, h, rfl⟩

end Json

/-! ### What a document gives -/

namespace Setting

/-- Where a setting stands in a document. -/
def path : Setting → List String
  | namespaces => ["identity", "namespace"]
  | app => ["identity", "appId"]
  | group => ["identity", "groupId"]
  | client => ["identity", "clientId"]
  | requestTimeoutMs => ["requestTimeoutMs"]
  | codec => ["defaultCodec"]
  | encoderPoolSize => ["encoderPoolSize"]
  | accessName => ["transport", "accessName"]
  | host => ["transport", "host"]
  | port => ["transport", "port"]

/-- What a document gives to a setting: nothing if the key is missing or holds null. -/
def given? (k : Setting) (v : Json) : Option Json := Json.given (v.at? k.path)

/-- A value in a document says what a setting is. A codec is named, alone or as the only member of an object that
holds null. -/
def Says : (k : Setting) → Json → k.Value → Prop
  | namespaces, v, x => v = .strings x
  | app, v, x | group, v, x | client, v, x | accessName, v, x | host, v, x => v = .str x
  | requestTimeoutMs, v, x | encoderPoolSize, v, x => v = .nat x.toNat
  | codec, v, x => v = .str x.text ∨ v = .obj [(x.text, .null)]
  | port, v, x => v = .nat x.toNat

/-- A setting is what a document says about it, or the default if it says nothing. -/
def FromDocument (k : Setting) (v : Json) (x : k.Value) : Prop :=
  match k.given? v with
  | some u => k.Says u x
  | none => x = k.get .standard

end Setting

/-- The root is an object, and so are the groups of settings that are given. -/
structure Json.Grouped (v : Json) : Prop where
  root : ∃ members, v = .obj members
  groups : ∀ name ∈ ["identity", "transport"], ∀ u, given (v.member? name) = some u → ∃ members, u = .obj members

theorem Json.grouped_obj {members : Table Json}
    (hidentity : ∀ u, given (Table.get? "identity" members) = some u → ∃ inner, u = .obj inner)
    (htransport : ∀ u, given (Table.get? "transport" members) = some u → ∃ inner, u = .obj inner) :
    (obj members).Grouped where
  root := ⟨members, rfl⟩
  groups name hname := by
    rcases List.mem_pair.1 hname with rfl | rfl
    · exact hidentity
    · exact htransport

/-! ### Reading single settings -/

namespace Setting

variable {k : Setting} {v : Json}

/-- A setting is read from two layers as the upper one says, if it does, and as the lower one if it is the default. -/
theorem partOr_iff (lower : Json) (hlower : ∀ members, lower ≠ .obj members) {read? : Json → Option k.Value}
    (hread : read? lower = some (k.get .standard)) (hmeans : ∀ {u x}, read? u = some x ↔ k.Says u x)
    {found upper : Option Json} (hfound : found = Json.layer (some lower) upper)
    (hgiven : k.given? v = Json.given upper) (x : k.Value) :
    Json.partOr (k.get .standard) read? found = some x ↔ k.FromDocument v x := by
  rw [hfound, FromDocument, hgiven, Json.layer]
  cases hupper : Json.given upper with
  | none =>
    simp only [Json.partOr, hread, Option.some.injEq]
    exact eq_comm
  | some u =>
    simp only [Option.elim, Json.overlay_of_not_obj hlower, Json.partOr]
    exact hmeans

theorem word?_iff {u : Json} {x : UInt64} : Settings.word? u = some x ↔ u = .nat x.toNat :=
  Json.map_natBelow?_eq_some_iff UInt64.toNat (fun _ => UInt64.toNat_ofNat_of_lt') UInt64.toNat_lt
    fun _ => UInt64.ofNat_toNat

theorem port?_iff {u : Json} {x : UInt16} :
    (UInt16.ofNat <$> u.natBelow? UInt16.size) = some x ↔ u = .nat x.toNat :=
  Json.map_natBelow?_eq_some_iff UInt16.toNat (fun _ => UInt16.toNat_ofNat_of_lt') UInt16.toNat_lt
    fun _ => UInt16.ofNat_toNat

end Setting

/-! ### Reading groups -/

namespace Json

/-- The members of an object, and none of anything else. -/
def groupMembers : Option Json → Table Json
  | some (.obj members) => members
  | _ => []

theorem layer_of_group {lower : Table Json} {upper : Option Json}
    (h : ∀ u, given upper = some u → ∃ members, u = .obj members) :
    layer (some (.obj lower)) upper = some (.obj (overlayMembers lower (groupMembers upper))) := by
  rw [layer]
  cases hupper : given upper with
  | none => rcases given_eq_none hupper with rfl | rfl <;> rfl
  | some u =>
    obtain ⟨members, rfl⟩ := h u hupper
    rw [(eq_some_of_given hupper).1]
    rfl

theorem at?_singleton (members : Table Json) (key : String) : (obj members).at? [key] = Table.get? key members :=
  Option.bind_fun_some _

theorem at?_pair (members : Table Json) (group key : String) :
    (obj members).at? [group, key] = Table.get? key (groupMembers (Table.get? group members)) := by
  simp only [at?, member?]
  match Table.get? group members with
  | none | some .null | some (.bool _) | some (.num _) | some (.str _) | some (.arr _) => rfl
  | some (.obj inner) => exact Option.bind_fun_some _

theorem ordered_groupMembers {members : Table Json} (h : (obj members).Ordered) (group : String) :
    Table.Ordered (groupMembers (Table.get? group members)) := by
  cases hget : Table.get? group members with
  | none => exact Table.ordered_nil
  | some u =>
    have hu := h.get? hget
    cases u with
    | obj inner => exact hu.1
    | _ => exact Table.ordered_nil

/-- What is found under a key of a group, when the group is laid over another. -/
theorem get?_group {members : Table Json} (h : (obj members).Ordered) (lower : Table Json) (group key : String) :
    Table.get? key (overlayMembers lower (groupMembers (Table.get? group members))) =
      layer (Table.get? key lower) ((obj members).at? [group, key]) := by
  rw [get?_overlayMembers (ordered_groupMembers h group), at?_pair]

end Json

theorem IdentitySettings.ofJson?_obj_iff {members : Table Json} {s : IdentitySettings} :
    ofJson? (.obj members) = some s ↔
      Json.partOr standard.namespaces (fun v => v.getArr?.bind (·.mapM Json.getStr?))
          (Table.get? "namespace" members) =
        some s.namespaces ∧
      Json.partOr standard.app Json.getStr? (Table.get? "appId" members) = some s.app ∧
      Json.partOr standard.group Json.getStr? (Table.get? "groupId" members) = some s.group ∧
      Json.partOr standard.client Json.getStr? (Table.get? "clientId" members) = some s.client := by
  obtain ⟨namespaces, app, group, client⟩ := s
  simp [ofJson?, Json.parts?, keys, Option.bind_eq_some_iff]

theorem TransportSettings.ofJson?_obj_iff {members : Table Json} {s : TransportSettings} :
    ofJson? (.obj members) = some s ↔
      Json.partOr standard.accessName Json.getStr? (Table.get? "accessName" members) = some s.accessName ∧
      Json.partOr standard.host Json.getStr? (Table.get? "host" members) = some s.host ∧
      Json.partOr standard.port (fun v => UInt16.ofNat <$> v.natBelow? UInt16.size) (Table.get? "port" members) =
        some s.port := by
  obtain ⟨accessName, host, port⟩ := s
  simp [ofJson?, Json.parts?, keys, Option.bind_eq_some_iff]

theorem Settings.ofJson?_obj_iff {members : Table Json} {s : Settings} :
    ofJson? (.obj members) = some s ↔
      Json.partOr .standard IdentitySettings.ofJson? (Table.get? "identity" members) = some s.identity ∧
      Json.partOr standard.requestTimeoutMs word? (Table.get? "requestTimeoutMs" members) = some s.requestTimeoutMs ∧
      Json.partOr standard.codec Codec.ofJson? (Table.get? "defaultCodec" members) = some s.codec ∧
      Json.partOr standard.encoderPoolSize word? (Table.get? "encoderPoolSize" members) = some s.encoderPoolSize ∧
      Json.partOr .standard TransportSettings.ofJson? (Table.get? "transport" members) = some s.transport := by
  obtain ⟨identity, timeout, codec, size, transport⟩ := s
  simp [ofJson?, Json.parts?, keys, Option.bind_eq_some_iff]

namespace Settings

/-- The members of the default settings. -/
def standardMembers : Table Json :=
  Table.ofWrites (keys.zip [standard.identity.toJson, .nat standard.requestTimeoutMs.toNat, standard.codec.toJson,
    .nat standard.encoderPoolSize.toNat, standard.transport.toJson])

variable {members : Table Json}

/-- The names of the client are read one by one. -/
theorem identity_iff (ho : (Json.obj members).Ordered) (hv : (Json.obj members).Grouped) {s : IdentitySettings} :
    Json.partOr .standard IdentitySettings.ofJson?
        (Json.layer (some IdentitySettings.standard.toJson) (Table.get? "identity" members)) = some s ↔
      Setting.namespaces.FromDocument (.obj members) s.namespaces ∧ Setting.app.FromDocument (.obj members) s.app ∧
        Setting.group.FromDocument (.obj members) s.group ∧ Setting.client.FromDocument (.obj members) s.client := by
  have hstandard : IdentitySettings.standard.toJson = .obj (Table.ofWrites (IdentitySettings.keys.zip
    [.strings [], .str "simbus", .str "default", .str "client"])) := rfl
  have hgroup := hv.groups "identity" (by simp)
  rw [Json.member?] at hgroup
  rw [hstandard, Json.layer_of_group hgroup, Json.partOr, IdentitySettings.ofJson?_obj_iff]
  have hget := Json.get?_group ho
  refine and_congr ?_ (and_congr ?_ (and_congr ?_ ?_))
  · exact Setting.partOr_iff (k := .namespaces) (.arr []) nofun rfl Json.strings?_eq_some_iff (hget _ _ _) rfl _
  · exact Setting.partOr_iff (k := .app) (.str "simbus") nofun rfl Json.getStr?_eq_some_iff (hget _ _ _) rfl _
  · exact Setting.partOr_iff (k := .group) (.str "default") nofun rfl Json.getStr?_eq_some_iff (hget _ _ _) rfl _
  · exact Setting.partOr_iff (k := .client) (.str "client") nofun rfl Json.getStr?_eq_some_iff (hget _ _ _) rfl _

/-- The transport is read setting by setting. -/
theorem transport_iff (ho : (Json.obj members).Ordered) (hv : (Json.obj members).Grouped) {s : TransportSettings} :
    Json.partOr .standard TransportSettings.ofJson?
        (Json.layer (some TransportSettings.standard.toJson) (Table.get? "transport" members)) = some s ↔
      Setting.accessName.FromDocument (.obj members) s.accessName ∧ Setting.host.FromDocument (.obj members) s.host ∧
        Setting.port.FromDocument (.obj members) s.port := by
  have hstandard : TransportSettings.standard.toJson = .obj (Table.ofWrites (TransportSettings.keys.zip
    [.str "memory", .str "local", .nat 1883])) := rfl
  have hgroup := hv.groups "transport" (by simp)
  rw [Json.member?] at hgroup
  rw [hstandard, Json.layer_of_group hgroup, Json.partOr, TransportSettings.ofJson?_obj_iff]
  have hget := Json.get?_group ho
  refine and_congr ?_ (and_congr ?_ ?_)
  · exact Setting.partOr_iff (k := .accessName) (.str "memory") nofun rfl Json.getStr?_eq_some_iff (hget _ _ _) rfl _
  · exact Setting.partOr_iff (k := .host) (.str "local") nofun rfl Json.getStr?_eq_some_iff (hget _ _ _) rfl _
  · exact Setting.partOr_iff (k := .port) (.num (.int 1883)) nofun rfl Setting.port?_iff (hget _ _ _) rfl _

/-- A document over the defaults reads as settings if and only if each of them is what the document says about it, or
the default if it says nothing. -/
theorem ofJson?_overlay_iff {v : Json} (ho : v.Ordered) (hv : v.Grouped) {s : Settings} :
    ofJson? (standard.toJson.overlay v) = some s ↔ ∀ k : Setting, k.FromDocument v (k.get s) := by
  obtain ⟨members, rfl⟩ := hv.root
  have hoverlay : standard.toJson.overlay (.obj members) = .obj (Json.overlayMembers standardMembers members) := rfl
  have hget := Json.get?_overlayMembers ho.1 standardMembers
  rw [hoverlay, ofJson?_obj_iff, hget, hget, hget, hget, hget]
  have hgiven : ∀ key, Json.given ((Json.obj members).at? [key]) = Json.given (Table.get? key members) :=
    fun key => congrArg Json.given (Json.at?_singleton members key)
  have hidentity := identity_iff ho hv (s := s.identity)
  have htransport := transport_iff ho hv (s := s.transport)
  have htimeout := Setting.partOr_iff (k := .requestTimeoutMs) (v := .obj members) (.num (.int 5000)) nofun rfl
    Setting.word?_iff (hget "requestTimeoutMs") (hgiven _) s.requestTimeoutMs
  have hcodec := Setting.partOr_iff (k := .codec) (v := .obj members) (.str "json") nofun rfl
    Json.codec?_eq_some_iff (hget "defaultCodec") (hgiven _) s.codec
  have hsize := Setting.partOr_iff (k := .encoderPoolSize) (v := .obj members) (.num (.int 4)) nofun rfl
    Setting.word?_iff (hget "encoderPoolSize") (hgiven _) s.encoderPoolSize
  constructor
  · rintro ⟨hi, ht, hc, hp, htr⟩
    obtain ⟨hnamespaces, happ, hgroup, hclient⟩ := hidentity.1 hi
    obtain ⟨haccess, hhost, hport⟩ := htransport.1 htr
    intro k
    cases k with
    | namespaces => exact hnamespaces
    | app => exact happ
    | group => exact hgroup
    | client => exact hclient
    | requestTimeoutMs => exact htimeout.1 (hget _ ▸ ht)
    | codec => exact hcodec.1 (hget _ ▸ hc)
    | encoderPoolSize => exact hsize.1 (hget _ ▸ hp)
    | accessName => exact haccess
    | host => exact hhost
    | port => exact hport
  · intro h
    exact ⟨hidentity.2 ⟨h .namespaces, h .app, h .group, h .client⟩, hget _ ▸ htimeout.2 (h .requestTimeoutMs),
      hget _ ▸ hcodec.2 (h .codec), hget _ ▸ hsize.2 (h .encoderPoolSize),
      htransport.2 ⟨h .accessName, h .host, h .port⟩⟩

end Settings

end Switchboard
