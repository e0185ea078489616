import Switchboard.Proofs.Settings.Layers

/-!
# Settings saved and loaded

Settings are saved as a JSON text with their members in the order in which they are declared. The text is read as the
document of the settings (`Settings.document?_saved`), and the document says what each setting is
(`Settings.exists_says_toJson`), so that nothing of the defaults is left under it. So settings load as they were saved
if they are valid, and otherwise they are refused as validation refuses them (`Settings.load_saved`).
-/

namespace Switchboard

/-! ### Saving -/

def IdentitySettings.members (s : IdentitySettings) : List (String × Json) :=
  keys.zip [.strings s.namespaces, .str s.app, .str s.group, .str s.client]

def TransportSettings.members (s : TransportSettings) : List (String × Json) :=
  keys.zip [.str s.accessName, .str s.host, .nat s.port.toNat]

namespace Json

theorem asRead_strings (l : List String) : (strings l).asRead = strings l := by
  apply asRead_of_ordered
  refine orderedItems_iff.2 fun v hv => ?_
  obtain ⟨s, -, rfl⟩ := List.mem_map.1 hv
  trivial

theorem readsBack_strings (l : List String) : (strings l).ReadsBack := by
  refine itemsReadBack_iff.2 fun v hv => ?_
  obtain ⟨s, -, rfl⟩ := List.mem_map.1 hv
  trivial

theorem height_strings (l : List String) : (strings l).height = 1 := by
  rw [strings, height, heightItems_map fun _ => rfl]

theorem readsBack_nat {n : Nat} (h : n < UInt64.size) : (nat n).ReadsBack := by
  refine JsonNumber.ofText?_int ?_ ?_
  · exact le_trans (by decide) (Int.natCast_nonneg n)
  · exact Int.ofNat_lt.2 h

theorem at?_object_cons (members : List (String × Json)) (name : String) (path : List String) :
    (object members).at? (name :: path) = (Table.last? name members).bind (at? path) := by
  rw [object, at?, member?, Table.get?_ofWrites]

end Json

theorem Setting.Says.ne_null {k : Setting} {v : Json} {x : k.Value} (h : k.Says v x) : v ≠ .null := by
  rintro rfl
  cases k with
  | codec => rcases h with h | h <;> cases h
  | _ => cases h

namespace Settings

variable (s : Settings)

/-- Settings as they are saved. -/
def saved : Json :=
  .obj (keys.zip [.obj s.identity.members, .nat s.requestTimeoutMs.toNat, s.codec.toJson,
    .nat s.encoderPoolSize.toNat, .obj s.transport.members])

theorem asRead_saved : s.saved.asRead = s.toJson := by
  have hread : s.saved.asRead = .object (keys.zip [
    .object (IdentitySettings.keys.zip [(Json.strings s.identity.namespaces).asRead, .str s.identity.app,
      .str s.identity.group, .str s.identity.client]),
    .nat s.requestTimeoutMs.toNat, s.codec.toJson, .nat s.encoderPoolSize.toNat, s.transport.toJson]) := rfl
  rw [hread, Json.asRead_strings]
  rfl

theorem readsBack_saved : s.saved.ReadsBack := by
  have hport : s.transport.port.toNat < UInt64.size := lt_trans s.transport.port.toNat_lt (by decide)
  have hidentity : (Json.obj s.identity.members).ReadsBack :=
    ⟨Json.readsBack_strings s.identity.namespaces, trivial, trivial, trivial, trivial⟩
  have htransport : (Json.obj s.transport.members).ReadsBack := ⟨trivial, trivial, Json.readsBack_nat hport, trivial⟩
  exact ⟨hidentity, Json.readsBack_nat s.requestTimeoutMs.toNat_lt, trivial,
    Json.readsBack_nat s.encoderPoolSize.toNat_lt, htransport, trivial⟩

theorem height_saved : s.saved.height = 3 := by
  have hidentity : (Json.obj s.identity.members).height = 2 := by
    have hmembers : (Json.obj s.identity.members).height = max (Json.strings s.identity.namespaces).height 0 + 1 :=
      rfl
    rw [hmembers, Json.height_strings]
    rfl
  have hsaved : s.saved.height = max (Json.obj s.identity.members).height 1 + 1 := rfl
  rw [hsaved, hidentity]
  rfl

theorem document?_saved : (SettingsFile.content (Utf8.encode s.saved.render)).document? = some s.toJson := by
  have hdeep : s.saved.height ≤ Json.maxNesting := by
    rw [height_saved]
    decide
  rw [SettingsFile.document?, Utf8.decode?_encode, Option.bind_some,
    Json.parse?_render s.readsBack_saved hdeep, asRead_saved]

/-! ### Loading -/

theorem at?_identity (path : List String) : s.toJson.at? ("identity" :: path) = s.identity.toJson.at? path := by
  rw [toJson, Json.at?_object_cons]
  rfl

theorem at?_transport (path : List String) : s.toJson.at? ("transport" :: path) = s.transport.toJson.at? path := by
  rw [toJson, Json.at?_object_cons]
  rfl

theorem grouped_toJson : s.toJson.Grouped := by
  refine Json.grouped_obj (fun u hu => ?_) fun u hu => ?_
  all_goals
    rw [Table.get?_ofWrites] at hu
    cases hu
    exact ⟨_, rfl⟩

/-- The document of settings says what each of them is. -/
theorem exists_says_toJson (k : Setting) : ∃ v, s.toJson.at? k.path = some v ∧ k.Says v (k.get s) := by
  cases k with
  | namespaces | app | group | client =>
    refine ⟨_, ?_, rfl⟩
    rw [Setting.path, at?_identity, IdentitySettings.toJson, Json.at?_object_cons]
    rfl
  | accessName | host | port =>
    refine ⟨_, ?_, rfl⟩
    rw [Setting.path, at?_transport, TransportSettings.toJson, Json.at?_object_cons]
    rfl
  | requestTimeoutMs | encoderPoolSize =>
    refine ⟨_, ?_, rfl⟩
    rw [Setting.path, toJson, Json.at?_object_cons]
    rfl
  | codec =>
    refine ⟨_, ?_, .inl rfl⟩
    rw [Setting.path, toJson, Json.at?_object_cons]
    rfl

theorem fromDocument_toJson (k : Setting) : k.FromDocument s.toJson (k.get s) := by
  obtain ⟨v, hv, hsays⟩ := s.exists_says_toJson k
  rw [Setting.FromDocument, Setting.given?, hv, Json.given_of_ne_null hsays.ne_null]
  exact hsays

theorem override_unset : s.override (fun _ => none) = (s, []) := rfl

variable {s}

/-- From the document of settings these settings are loaded if they are valid, and otherwise what is wrong with them
is reported. -/
theorem load_of_document {file : SettingsFile} (h : file.document? = some s.toJson) :
    load file (fun _ => none) = (s.validate.map fun _ => s, []) := by
  have hread : ofJson? (standard.toJson.overlay s.toJson) = some s :=
    (ofJson?_overlay_iff (SettingsFile.ordered_of_document? h) s.grouped_toJson).2 s.fromDocument_toJson
  rw [load, SettingsFile.layered_of_document? h]
  simp only [hread, override_unset]

/-- Settings that are saved load as they were if they are valid, and are refused as validation refuses them if not. No
variable is set. -/
theorem load_saved (s : Settings) :
    load (.content (Utf8.encode s.saved.render)) (fun _ => none) = (s.validate.map fun _ => s, []) :=
  load_of_document s.document?_saved

end Settings

end Switchboard
