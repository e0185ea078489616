import Switchboard.Proofs.Settings.Document
import Switchboard.Proofs.Settings.Override
import Switchboard.Settings.Load

/-!
# Layers of settings, key by key

A setting is what its variable says, or what the document says if the variable says nothing, or the default
(`Setting.FromLayers`). Settings load if and only if the document can be read and what the layers say about each of
them is valid (`load_eq_ok_iff`). So each setting depends on its own key and its own variable alone
(`settled_key_by_key`).
-/

namespace Switchboard

/-- The document of a file. A file that is absent says nothing. -/
def SettingsFile.document? : SettingsFile → Option Json
  | absent => some (.obj [])
  | unreadable => none
  | content bytes => (Utf8.decode? bytes).bind Json.parse?

namespace SettingsFile

variable {file : SettingsFile} {v : Json}

theorem ordered_of_document? (h : file.document? = some v) : v.Ordered := by
  cases file with
  | absent =>
    cases h
    exact ⟨Table.ordered_nil, trivial⟩
  | unreadable => cases h
  | content bytes =>
    obtain ⟨text, -, hv⟩ := Option.bind_eq_some_iff.1 h
    exact Json.ordered_of_parse? hv

theorem layered_of_document? (h : file.document? = some v) :
    Settings.layered file = .ok (Settings.standard.toJson.overlay v) := by
  cases file with
  | absent =>
    cases h
    rfl
  | unreadable => cases h
  | content bytes =>
    obtain ⟨text, htext, hv⟩ := Option.bind_eq_some_iff.1 h
    simp only [Settings.layered, htext, hv]

end SettingsFile

/-! ### Each setting by itself -/

namespace Setting

variable {k : Setting} {v : Json}

theorem Says.unique {u : Json} {x y : k.Value} (hx : k.Says u x) (hy : k.Says u y) : x = y := by
  cases k with
  | namespaces =>
    cases (hx : u = .strings x)
    have heq : x.map Json.str = y.map Json.str := Json.arr.inj hy
    exact List.map_injective_iff.2 (fun _ _ => Json.str.inj) heq
  | app | group | client | accessName | host =>
    cases (hx : u = .str x)
    exact Json.str.inj hy
  | requestTimeoutMs | encoderPoolSize =>
    cases (hx : u = .nat x.toNat)
    exact UInt64.toNat_inj.1 (Int.ofNat.inj (JsonNumber.int.inj (Json.num.inj hy)))
  | port =>
    cases (hx : u = .nat x.toNat)
    exact UInt16.toNat_inj.1 (Int.ofNat.inj (JsonNumber.int.inj (Json.num.inj hy)))
  | codec => exact Option.some.inj ((Json.codec?_eq_some_iff.2 hx).symm.trans (Json.codec?_eq_some_iff.2 hy))

theorem FromDocument.unique {x y : k.Value} (hx : k.FromDocument v x) (hy : k.FromDocument v y) : x = y := by
  unfold FromDocument at hx hy
  cases hgiven : k.given? v with
  | none =>
    rw [hgiven] at hx hy
    exact hx.trans hy.symm
  | some u =>
    rw [hgiven] at hx hy
    exact hx.unique hy

/-- A setting is what its variable says, or what the document says about it if the variable says nothing. -/
def FromLayers (k : Setting) (v : Json) (environment : String → Option String) (x : k.Value) : Prop :=
  match k.override? environment with
  | some y => x = y
  | none => k.FromDocument v x

variable {environment : String → Option String}

theorem FromLayers.unique {x y : k.Value} (hx : k.FromLayers v environment x) (hy : k.FromLayers v environment y) :
    x = y := by
  unfold FromLayers at hx hy
  cases hoverride : k.override? environment with
  | none =>
    rw [hoverride] at hx hy
    exact hx.unique hy
  | some z =>
    rw [hoverride] at hx hy
    exact hx.trans hy.symm

/-- What is read of the document is overridden to what the layers say. -/
theorem FromDocument.override {s : Settings} (h : k.FromDocument v (k.get s)) :
    k.FromLayers v environment (k.get (s.override environment).1) := by
  rw [k.get_override, FromLayers]
  cases k.override? environment with
  | none => exact h
  | some y => rfl

end Setting

namespace Settings

variable {file file' : SettingsFile} {v v' : Json} {environment environment' : String → Option String}
  {s s' : Settings}

/-- What loads was read of the layers, overridden and found valid. -/
theorem load_fst_eq_ok_iff :
    (load file environment).1 = .ok s ↔
      ∃ w read, layered file = .ok w ∧ ofJson? w = some read ∧ (read.override environment).1 = s ∧
        s.validate = .ok () := by
  unfold load
  cases layered file with
  | error e => exact iff_of_false nofun fun ⟨_, _, hlayered, _⟩ => nomatch hlayered
  | ok w =>
    simp only [Except.ok.injEq, exists_eq_left', exists_and_left]
    cases ofJson? w with
    | none => exact iff_of_false nofun fun ⟨_, hread, _⟩ => nomatch hread
    | some read =>
      simp only [Option.some.injEq, exists_eq_left']
      cases hvalid : (read.override environment).1.validate with
      | error e =>
        refine iff_of_false nofun ?_
        rintro ⟨rfl, h⟩
        cases hvalid.symm.trans h
      | ok u =>
        constructor
        · intro h
          cases h
          exact ⟨rfl, hvalid⟩
        · rintro ⟨rfl, -⟩
          rfl

/-- Settings load if and only if something can be read of the document, and they are what the layers say, and
valid. -/
theorem load_eq_ok_iff (hdocument : file.document? = some v) (hv : v.Grouped) :
    (load file environment).1 = .ok s ↔
      (∃ read, ∀ k : Setting, k.FromDocument v (k.get read)) ∧
        (∀ k : Setting, k.FromLayers v environment (k.get s)) ∧ s.validate = .ok () := by
  have hlayered := SettingsFile.layered_of_document? hdocument
  have hdecode := fun read => ofJson?_overlay_iff (SettingsFile.ordered_of_document? hdocument) hv (s := read)
  rw [load_fst_eq_ok_iff]
  constructor
  · rintro ⟨w, read, hw, hread, rfl, hvalid⟩
    cases hlayered.symm.trans hw
    have hread := (hdecode read).1 hread
    exact ⟨⟨read, hread⟩, fun k => (hread k).override, hvalid⟩
  · rintro ⟨⟨read, hread⟩, hlayers, hvalid⟩
    refine ⟨_, read, hlayered, (hdecode read).2 hread, Setting.ext_get fun k => ?_, hvalid⟩
    exact (hread k).override.unique (hlayers k)

/-- A document and an environment say the same about a setting as others. -/
structure SaidAlike (v v' : Json) (environment environment' : String → Option String) (k : Setting) : Prop where
  given : k.given? v' = k.given? v
  override : k.override? environment' = k.override? environment

theorem SaidAlike.fromLayers_iff {k : Setting} (h : SaidAlike v v' environment environment' k) {x : k.Value} :
    k.FromLayers v' environment' x ↔ k.FromLayers v environment x := by
  rw [Setting.FromLayers, Setting.FromLayers, Setting.FromDocument, Setting.FromDocument, h.given, h.override]

/-- In settings that load from a document, each one is what its variable says, or else what the document says, or else
the default; nothing that is said elsewhere changes it, and where the same is said about all settings, the same
settings load. -/
theorem settled_key_by_key (hdocument : file.document? = some v) (hv : v.Grouped)
    (hload : (load file environment).1 = .ok s) :
    (∀ k : Setting, k.FromLayers v environment (k.get s)) ∧
      ∀ file' v' environment', file'.document? = some v' → v'.Grouped →
        (∀ s', (load file' environment').1 = .ok s' →
          ∀ k, SaidAlike v v' environment environment' k → k.get s' = k.get s) ∧
        ((∀ k, SaidAlike v v' environment environment' k) → (load file' environment').1 = .ok s) := by
  obtain ⟨⟨read, hread⟩, hlayers, hvalid⟩ := (load_eq_ok_iff hdocument hv).1 hload
  refine ⟨hlayers, fun file' v' environment' hdocument' hv' => ⟨fun s' hload' k halike => ?_, fun halike => ?_⟩⟩
  · obtain ⟨-, hlayers', -⟩ := (load_eq_ok_iff hdocument' hv').1 hload'
    exact (halike.fromLayers_iff.1 (hlayers' k)).unique (hlayers k)
  · refine (load_eq_ok_iff hdocument' hv').2 ⟨⟨read, fun k => ?_⟩, fun k => ?_, hvalid⟩
    · have hk := hread k
      rw [Setting.FromDocument] at hk ⊢
      rwa [(halike k).given]
    · exact (halike k).fromLayers_iff.2 (hlayers k)

/-! A plant gives its group and a port, and a variable names another port that is none. -/

private def plantFile : SettingsFile :=
  .content (Utf8.encode "\x7b\"identity\":\x7b\"groupId\":\"plant\"\x7d,\"transport\":\x7b\"port\":8080\x7d\x7d")

private def plantDocument : Json :=
  .obj [("identity", .obj [("groupId", .str "plant")]), ("transport", .obj [("port", .nat 8080)])]

private def plantVariables : String → Option String
  | "SIMBUS_NAMESPACE" => some "lab.rig"
  | "SIMBUS_REQUEST_TIMEOUT_MS" => some "750"
  | "SIMBUS_TRANSPORT_PORT" => some "0"
  | _ => none

private def plantSettings : Settings :=
  ⟨⟨["lab", "rig"], "simbus", "plant", "client"⟩, 750, .json, 4, ⟨"memory", "local", 8080⟩⟩

private def plantRead : Settings :=
  ⟨⟨[], "simbus", "plant", "client"⟩, 5000, .json, 4, ⟨"memory", "local", 8080⟩⟩

/-- The file of the plant with a key that is not known, and a null. -/
private def notedPlantFile : SettingsFile :=
  .content (Utf8.encode
    ("\x7b\"identity\":\x7b\"groupId\":\"plant\"\x7d," ++
      "\"transport\":\x7b\"port\":8080,\"host\":null\x7d,\"unit\":7\x7d"))

private def notedPlantDocument : Json :=
  .obj [("identity", .obj [("groupId", .str "plant")]), ("transport", .obj [("host", .null), ("port", .nat 8080)]),
    ("unit", .nat 7)]

theorem settled_key_by_key_plant :
    (load plantFile plantVariables).1 = .ok plantSettings ∧
      Setting.port.FromLayers plantDocument plantVariables plantSettings.transport.port ∧
      (load notedPlantFile plantVariables).1 = .ok plantSettings := by
  have hdocument : plantFile.document? = some plantDocument := by
    rw [plantFile, SettingsFile.document?, Utf8.decode?_encode]
    rfl
  have hnoted : notedPlantFile.document? = some notedPlantDocument := by
    rw [notedPlantFile, SettingsFile.document?, Utf8.decode?_encode]
    rfl
  have hv : plantDocument.Grouped :=
    Json.grouped_obj (fun _ h => ⟨_, (Option.some.inj h).symm⟩) fun _ h => ⟨_, (Option.some.inj h).symm⟩
  have hnotedv : notedPlantDocument.Grouped :=
    Json.grouped_obj (fun _ h => ⟨_, (Option.some.inj h).symm⟩) fun _ h => ⟨_, (Option.some.inj h).symm⟩
  have hread : ∀ k : Setting, k.FromDocument plantDocument (k.get plantRead) := fun k => by cases k <;> rfl
  have hlayers : ∀ k : Setting, k.FromLayers plantDocument plantVariables (k.get plantSettings) :=
    fun k => by cases k <;> rfl
  have hload := (load_eq_ok_iff hdocument hv).2 ⟨⟨plantRead, hread⟩, hlayers, rfl⟩
  obtain ⟨hsettled, hothers⟩ := settled_key_by_key hdocument hv hload
  obtain ⟨-, hsame⟩ := hothers _ _ plantVariables hnoted hnotedv
  exact ⟨hload, hsettled .port, hsame fun k => by cases k <;> exact ⟨rfl, rfl⟩⟩

end Settings

end Switchboard
