import Switchboard.Proofs.Settings.Layers
import Switchboard.Proofs.Topic.Subscription

/-!
# Settings in range

Validation accepts settings if each of them but the port fits its range (`validate_eq_ok_iff`). A variable is accepted
only if its value fits, except for the names of the client, which are texts of any kind (`fits_of_override?`). So
settings that load fit their ranges, except for a port 0 that the file gives and no variable overrides
(`fits_of_load`), and overrides keep settings valid unless one of them names the client by a text that is no segment
(`validate_override`).
-/

namespace Switchboard

/-! ### What fits -/

namespace Setting

/-- The settings that name the client. -/
def NamesClient (k : Setting) : Prop := k ∈ [namespaces, app, group, client]

instance : DecidablePred NamesClient := fun k => inferInstanceAs (Decidable (k ∈ [namespaces, app, group, client]))

/-- A value is in the range of a setting. -/
def Fits : (k : Setting) → k.Value → Prop
  | namespaces, x => ∀ s ∈ x, Segment.Valid s
  | app, x | group, x | client, x => Segment.Valid x
  | requestTimeoutMs, x => 1 ≤ x.toNat ∧ x.toNat ≤ Settings.maxRequestTimeoutMs
  | codec, _ => True
  | encoderPoolSize, x => x.toNat ≤ Settings.maxEncoderPoolSize
  | accessName, x => x ≠ ""
  | host, _ => True
  | port, x => 1 ≤ x.toNat ∧ x.toNat ≤ 65535

variable {k : Setting} {environment : String → Option String} {s : Settings}

/-- A number that is accepted lies between the bounds, if its type can hold what lies between them. -/
theorem within_of_numberWithin? {α : Type} {read : Nat → α} (toNat : α → Nat) {least most : Nat}
    (hread : ∀ n ≤ most, toNat (read n) = n) {text : String} {x : α}
    (h : (IntType.numberWithin? least most text).map read = some x) : least ≤ toNat x ∧ toNat x ≤ most := by
  obtain ⟨n, hn, rfl⟩ := Option.map_eq_some_iff.1 h
  obtain ⟨-, hleast, hmost⟩ := IntType.numberWithin?_eq_some_iff.1 hn
  rw [hread n hmost]
  exact ⟨hleast, hmost⟩

/-- What a variable says fits, unless it names the client. -/
theorem fits_of_override? {x : k.Value} (h : k.override? environment = some x) (hk : ¬k.NamesClient) : k.Fits x := by
  obtain ⟨text, -, haccept⟩ := Option.bind_eq_some_iff.1 h
  obtain ⟨htext, haccept⟩ := Option.ite_none_left_eq_some.1 haccept
  have hword : ∀ {most n : Nat}, most < UInt64.size → n ≤ most → (UInt64.ofNat n).toNat = n :=
    fun hmost hn => UInt64.toNat_ofNat_of_lt' (Nat.lt_of_le_of_lt hn hmost)
  cases k with
  | namespaces | app | group | client => exact absurd (by decide) hk
  | requestTimeoutMs => exact within_of_numberWithin? UInt64.toNat (fun _ => hword (by decide)) haccept
  | encoderPoolSize => exact (within_of_numberWithin? UInt64.toNat (fun _ => hword (by decide)) haccept).2
  | port =>
    have hport : ∀ n ≤ 65535, (UInt16.ofNat n).toNat = n :=
      fun n hn => UInt16.toNat_ofNat_of_lt' (Nat.lt_succ_of_le hn)
    exact within_of_numberWithin? UInt16.toNat hport haccept
  | codec | host => trivial
  | accessName =>
    cases haccept
    exact htext

/-- After all variables a setting that fitted fits, unless its own variable is accepted with what does not. -/
theorem fits_get_override (hs : k.Fits (k.get s)) (hx : ∀ x, k.override? environment = some x → k.Fits x) :
    k.Fits (k.get (s.override environment).1) := by
  rw [k.get_override]
  cases hoverride : k.override? environment with
  | none => exact hs
  | some x => exact hx x hoverride

/-- Only a port of 0 does not fit. -/
theorem not_fits_port_iff {x : UInt16} : ¬port.Fits x ↔ x = 0 := by
  have hmost := x.toNat_lt
  rw [← UInt16.toNat_inj, Fits, UInt16.toNat_zero]
  omega

end Setting

/-! ### Validation -/

namespace Settings

variable {s : Settings} {file : SettingsFile} {environment : String → Option String}

/-- Settings name an identity if and only if each of the names fits. -/
theorem exists_identity_iff : (∃ i, s.identity? = .ok i) ↔ ∀ k : Setting, k.NamesClient → k.Fits (k.get s) := by
  have hvalid : (Identity.mk s.identity.namespaces s.identity.app s.identity.group s.identity.client).Valid ↔
      ∀ k : Setting, k.NamesClient → k.Fits (k.get s) := by
    simp [Identity.Valid, Identity.address, Identity.addressed, or_imp, forall_and, Setting.NamesClient, Setting.Fits,
      Setting.get]
  rw [← hvalid, identity?]
  constructor
  · rintro ⟨i, h⟩
    split at h
    · rename_i j hof
      obtain ⟨rfl, hj⟩ := Identity.of?_eq_ok_iff.1 hof
      exact hj
    · cases h
  · intro h
    rw [Identity.of?_eq_ok_iff.2 ⟨rfl, h⟩]
    exact ⟨_, rfl⟩

/-- What validation checks before the identity. -/
theorem fits_of_validate (h : s.validate = .ok ()) :
    Setting.requestTimeoutMs.Fits s.requestTimeoutMs ∧ Setting.encoderPoolSize.Fits s.encoderPoolSize ∧
      Setting.accessName.Fits s.transport.accessName := by
  unfold validate at h
  split at h
  · cases h
  rename_i htimeout
  split at h
  · cases h
  rename_i hsize
  split at h
  · cases h
  rename_i haccess
  obtain ⟨hzero, hmost⟩ := not_or.1 htimeout
  have hpos : s.requestTimeoutMs.toNat ≠ 0 := fun hnat => hzero (UInt64.toNat_inj.1 hnat)
  refine ⟨⟨Nat.one_le_iff_ne_zero.2 hpos, Nat.not_lt.1 hmost⟩, Nat.not_lt.1 hsize, ?_⟩
  rwa [String.isEmpty_iff] at haccess

/-- If the numbers and the access name fit, validation is up to the identity. -/
theorem validate_of_fits (htimeout : Setting.requestTimeoutMs.Fits s.requestTimeoutMs)
    (hsize : Setting.encoderPoolSize.Fits s.encoderPoolSize)
    (haccess : Setting.accessName.Fits s.transport.accessName) :
    s.validate = s.identity?.map fun _ => () := by
  obtain ⟨hleast, hmost⟩ := htimeout
  have hzero : s.requestTimeoutMs ≠ 0 := by
    intro h
    rw [h] at hleast
    cases hleast
  have haccess : ¬s.transport.accessName.isEmpty = true := by
    rw [String.isEmpty_iff]
    exact haccess
  rw [validate, if_neg (not_or.2 ⟨hzero, Nat.not_lt.2 hmost⟩), if_neg (Nat.not_lt.2 hsize), if_neg haccess]
  cases s.identity? <;> rfl

/-- Settings are valid if and only if each of them but the port fits. -/
theorem validate_eq_ok_iff : s.validate = .ok () ↔ ∀ k : Setting, k ≠ .port → k.Fits (k.get s) := by
  constructor
  · intro h
    obtain ⟨htimeout, hsize, haccess⟩ := fits_of_validate h
    have hnames : ∀ k : Setting, k.NamesClient → k.Fits (k.get s) := by
      refine exists_identity_iff.1 ?_
      rw [validate_of_fits htimeout hsize haccess] at h
      cases hi : s.identity? with
      | error e =>
        rw [hi] at h
        cases h
      | ok i => exact ⟨i, rfl⟩
    intro k hk
    cases k with
    | namespaces | app | group | client => exact hnames _ (by decide)
    | requestTimeoutMs => exact htimeout
    | encoderPoolSize => exact hsize
    | accessName => exact haccess
    | codec | host => trivial
    | port => exact absurd rfl hk
  · intro h
    obtain ⟨i, hi⟩ := exists_identity_iff.2 fun k hk => h k fun hport => absurd (hport ▸ hk) (by decide)
    rw [validate_of_fits (h .requestTimeoutMs nofun) (h .encoderPoolSize nofun) (h .accessName nofun), hi]
    rfl

/-! ### What loads -/

/-- Settings that load name an identity and fit their ranges, except for a port of 0: it loads if the file gives it
and no variable overrides it. -/
theorem fits_of_load (hload : (load file environment).1 = .ok s) :
    (∃ i, s.identity? = .ok i) ∧
      ∀ k : Setting, ¬k.Fits (k.get s) ↔
        k = .port ∧ k.override? environment = none ∧
          ∃ w read, layered file = .ok w ∧ ofJson? w = some read ∧ read.transport.port = 0 := by
  obtain ⟨w, read, hlayered, hread, rfl, hvalid⟩ := load_fst_eq_ok_iff.1 hload
  have hfits := validate_eq_ok_iff.1 hvalid
  have hport : ¬Setting.port.Fits (Setting.port.get (read.override environment).1) ↔
      Setting.port.override? environment = none ∧ read.transport.port = 0 := by
    rw [Setting.get_override]
    cases hoverride : Setting.port.override? environment with
    | none => simp [Setting.not_fits_port_iff, Setting.get]
    | some x => simp [Setting.fits_of_override? hoverride (by decide)]
  refine ⟨exists_identity_iff.2 fun k hk => hfits k fun h => absurd (h ▸ hk) (by decide), fun k => ?_⟩
  by_cases hk : k = .port
  · subst hk
    simp only [hport, hlayered, Except.ok.injEq, exists_and_left, exists_eq_left', hread, Option.some.injEq, true_and]
  · simp [hk, hfits k hk]

private def portlessFile : SettingsFile := .content (Utf8.encode "\x7b\"transport\":\x7b\"port\":0\x7d\x7d")

private def portlessDocument : Json := .obj [("transport", .obj [("port", .nat 0)])]

private theorem load_portless {x : UInt16} (hport : Setting.port.FromLayers portlessDocument environment x)
    (hothers : ∀ k : Setting, k ≠ .port → k.override? environment = none) :
    (load portlessFile environment).1 = .ok (Setting.port.update x standard) := by
  have hdocument : portlessFile.document? = some portlessDocument := by
    rw [portlessFile, SettingsFile.document?, Utf8.decode?_encode]
    rfl
  have hv : portlessDocument.Grouped := by
    refine Json.grouped_obj (fun _ h => ?_) fun _ h => ⟨_, (Option.some.inj h).symm⟩
    cases h
  have hread : ∀ k : Setting, k.FromDocument portlessDocument (k.get (Setting.port.update 0 standard)) :=
    fun k => by cases k <;> rfl
  have hstandard : standard.validate = .ok () := rfl
  refine (load_eq_ok_iff hdocument hv).2 ⟨⟨_, hread⟩, fun k => ?_, validate_eq_ok_iff.2 fun k hk => ?_⟩
  · by_cases hk : k = .port
    · subst hk
      exact hport
    · rw [Setting.FromLayers, hothers k hk, Setting.get_update_of_ne (Ne.symm hk),
        ← Setting.get_update_of_ne (Ne.symm hk) 0]
      exact hread k
  · rw [Setting.get_update_of_ne (Ne.symm hk)]
    exact validate_eq_ok_iff.1 hstandard k hk

private def portVariable : String → Option String
  | "SIMBUS_TRANSPORT_PORT" => some "1884"
  | _ => none

/-- The file gives a port of 0, and the variable another one. -/
theorem fits_of_load_port :
    ∃ s, (load portlessFile portVariable).1 = .ok s ∧ ∀ k : Setting, k.Fits (k.get s) := by
  have hothers : ∀ k : Setting, k ≠ .port → k.override? portVariable = none := fun k hk => by
    cases k with
    | port => exact absurd rfl hk
    | _ => rfl
  have hport : Setting.port.FromLayers portlessDocument portVariable 1884 := rfl
  have hload := load_portless hport hothers
  obtain ⟨-, hfits⟩ := fits_of_load hload
  refine ⟨_, hload, fun k => not_not.1 fun hk => ?_⟩
  obtain ⟨rfl, hnone, -⟩ := (hfits k).1 hk
  cases hnone

/-- The file gives a port of 0, and nothing else does: it loads. -/
theorem port_zero_loads :
    ∃ s, (load portlessFile fun _ => none).1 = .ok s ∧ s.transport.port = 0 ∧ ¬Setting.port.Fits s.transport.port :=
  ⟨_, load_portless (x := 0) rfl fun _ _ => rfl, rfl, Setting.not_fits_port_iff.2 rfl⟩

/-- A variable that is not accepted leaves its setting as it is, and what is accepted keeps valid settings valid,
unless it names the client by a text that is no segment: then the settings name no identity. -/
theorem validate_override (hvalid : s.validate = .ok ()) (environment : String → Option String) :
    (∀ k : Setting, k.override? environment = none → k.get (s.override environment).1 = k.get s) ∧
      (∀ k : Setting, ∀ x, k.override? environment = some x → ¬k.NamesClient → k.Fits x) ∧
      ((s.override environment).1.validate = .ok () ↔
        ∀ k : Setting, k.NamesClient → ∀ x, k.override? environment = some x → k.Fits x) ∧
      ∀ e, (s.override environment).1.validate = .error e → ∃ f, e = .identity f := by
  have hs := validate_eq_ok_iff.1 hvalid
  have hkept : ∀ k : Setting, k ≠ .port → ¬k.NamesClient → k.Fits (k.get (s.override environment).1) :=
    fun k hport hk => Setting.fits_get_override (hs k hport) fun x hx => Setting.fits_of_override? hx hk
  refine ⟨fun k h => ?_, fun k x h hk => Setting.fits_of_override? h hk, ?_, fun e he => ?_⟩
  · rw [k.get_override, h]
    rfl
  · rw [validate_eq_ok_iff]
    constructor
    · intro h k hk x hx
      have hfits := h k fun hport => absurd (hport ▸ hk) (by decide)
      rwa [k.get_override, hx] at hfits
    · intro h k hport
      by_cases hk : k.NamesClient
      · exact Setting.fits_get_override (hs k hport) (h k hk)
      · exact hkept k hport hk
  · rw [validate_of_fits (hkept .requestTimeoutMs nofun (by decide)) (hkept .encoderPoolSize nofun (by decide))
      (hkept .accessName nofun (by decide)), identity?] at he
    split at he
    · cases he
    · rename_i f hof
      cases he
      exact ⟨f, rfl⟩

private def renamed (app : String) : String → Option String
  | "SIMBUS_APP_ID" => some app
  | "SIMBUS_TRANSPORT_PORT" => some "0"
  | _ => none

/-- A name that is a segment is taken, a port that is none is not. -/
theorem validate_override_renamed :
    standard.validate = .ok () ∧ (standard.override (renamed "pump-house")).1.validate = .ok () ∧
      (standard.override (renamed "pump-house")).1.transport.port = 1883 := by
  have hstandard : standard.validate = .ok () := rfl
  have happ : Segment.Valid "pump-house" := (Segment.validate_eq_ok_iff _ 0).1 rfl
  obtain ⟨hkept, -, hvalid, -⟩ := validate_override hstandard (renamed "pump-house")
  refine ⟨hstandard, hvalid.2 fun k hk x hx => ?_, hkept .port rfl⟩
  cases k with
  | app =>
    cases hx
    exact happ
  | namespaces | group | client => cases hx
  | _ => exact absurd hk (by decide)

/-- A name that is no segment is taken as well, and leaves no identity. -/
theorem invalid_app_overrides :
    standard.validate = .ok () ∧ (standard.override (renamed "pump.house")).1.identity.app = "pump.house" ∧
      (standard.override (renamed "pump.house")).1.validate =
        .error (.identity (.invalidSegment "pump.house" (.forbidden '.'))) :=
  ⟨rfl, rfl, rfl⟩

end Settings

end Switchboard
