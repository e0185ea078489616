import Mathlib.Data.List.Forall2
import Switchboard.Proofs.Settings.Setting
import Switchboard.Settings.Override

/-!
# What variables do to settings

Each variable governs one setting (`Override.governs_all`): it sets it to what its text says, or leaves all settings
as they are if the text is not acceptable. The variables govern different settings, so after all of them each setting
is what its own variable says, or what it was (`Setting.get_override`).
-/

namespace Switchboard

/-! ### Numbers -/

namespace IntType

/-- The number that decimal digits spell, behind a plus sign or none. -/
def numeral? (text : String) : Option Nat :=
  match text.toList with
  | '+' :: ds => magnitude? ds
  | ds => magnitude? ds

/-- The number that a text spells, if it lies between two bounds. -/
def numberWithin? (least most : Nat) (text : String) : Option Nat :=
  (numeral? text).filter fun n => least ≤ n ∧ n ≤ most

theorem numberWithin?_eq_some_iff {least most n : Nat} {text : String} :
    numberWithin? least most text = some n ↔ numeral? text = some n ∧ least ≤ n ∧ n ≤ most := by
  simp [numberWithin?, Option.filter_eq_some_iff]

/-- An unsigned type reads the numbers that it can hold. -/
theorem read?_unsigned (bits : Nat) (text : String) :
    (unsigned bits).read? text.toList = ((numeral? text).filter (· < 1 <<< bits)).map Int.ofNat := by
  have hfits : ∀ o : Option Nat,
      ((Int.ofNat <$> o).bind fun n =>
          if (unsigned bits).least ≤ n ∧ n ≤ (unsigned bits).most then some n else none) =
        (o.filter (· < 1 <<< bits)).map Int.ofNat := by
    intro o
    cases o with
    | none => rfl
    | some n =>
      have hbound : ((unsigned bits).least ≤ (n : Int) ∧ (n : Int) ≤ (unsigned bits).most) ↔ n < 1 <<< bits := by
        simp only [unsigned, Nat.one_shiftLeft]
        have hpos := Nat.two_pow_pos bits
        omega
      by_cases hn : n < 1 <<< bits <;> simp [Option.filter, hbound, hn]
  unfold numeral?
  match text.toList with
  | [] => rfl
  | c :: ds =>
    by_cases hplus : c = '+'
    · subst hplus
      exact hfits (magnitude? ds)
    · by_cases hminus : c = '-'
      · subst hminus
        -- a minus sign is for types with negative numbers, and no digit
        simp [read?, unsigned, magnitude?]
      · rw [← hfits]
        simp [read?, hplus, hminus]

theorem readWithin?_unsigned {bits most : Nat} (hmost : most < 1 <<< bits) (least : Nat) (text : String) :
    (unsigned bits).readWithin? least most text = (numberWithin? least most text).map Int.ofNat := by
  rw [readWithin?, read?_unsigned, numberWithin?]
  cases numeral? text with
  | none => rfl
  | some n =>
    by_cases hn : n ≤ most
    · have hfits : n < 1 <<< bits := Nat.lt_of_le_of_lt hn hmost
      by_cases hleast : least ≤ n <;> simp [Option.filter, hn, hfits, hleast]
    · by_cases hfits : n < 1 <<< bits <;> simp [Option.filter, hn, hfits]

end IntType

/-! ### What a variable says -/

namespace Setting

/-- The variable that may override a setting. -/
def variableName : Setting → String
  | namespaces => "SIMBUS_NAMESPACE"
  | app => "SIMBUS_APP_ID"
  | group => "SIMBUS_GROUP_ID"
  | client => "SIMBUS_CLIENT_ID"
  | requestTimeoutMs => "SIMBUS_REQUEST_TIMEOUT_MS"
  | codec => "SIMBUS_DEFAULT_CODEC"
  | encoderPoolSize => "SIMBUS_ENCODER_POOL_SIZE"
  | accessName => "SIMBUS_TRANSPORT"
  | host => "SIMBUS_TRANSPORT_HOST"
  | port => "SIMBUS_TRANSPORT_PORT"

/-- What a text says about a setting, if it is acceptable: any text is one for a text and, cut at dots, for the
namespace, a number has to be in range and a codec to be known. -/
def accept? : (k : Setting) → String → Option k.Value
  | namespaces, text => some (Topic.split text)
  | app, text | group, text | client, text | accessName, text | host, text => some text
  | requestTimeoutMs, text => (IntType.numberWithin? 1 Settings.maxRequestTimeoutMs text).map UInt64.ofNat
  | codec, text => Codec.ofText? text
  | encoderPoolSize, text => (IntType.numberWithin? 0 Settings.maxEncoderPoolSize text).map UInt64.ofNat
  | port, text => (IntType.numberWithin? 1 65535 text).map UInt16.ofNat

/-- What the environment says about a setting: nothing if the variable is not set, empty or not acceptable. -/
def override? (k : Setting) (environment : String → Option String) : Option k.Value :=
  (environment k.variableName).bind fun text => if text = "" then none else k.accept? text

theorem override?_eq (k : Setting) (environment : String → Option String) :
    k.override? environment = (Override.lookUp environment k.variableName).bind k.accept? := by
  rw [override?, Override.lookUp]
  cases environment k.variableName with
  | none => rfl
  | some text => by_cases htext : text = "" <;> simp [Option.filter, htext]

end Setting

/-! ### One variable -/

namespace Override

/-- A variable governs a setting: it sets it to what its text says, or refuses the text. -/
structure Governs (o : Override) (k : Setting) : Prop where
  name : o.name = k.variableName
  accepted : ∀ {text x}, k.accept? text = some x → ∀ s, o.set text s = .ok (k.update x s)
  refused : ∀ {text}, k.accept? text = none → ∀ s, ∃ warning, o.set text s = .error warning

variable {k : Setting}

theorem governs_text (k : Setting) (read : String → k.Value) (haccept : ∀ text, k.accept? text = some (read text)) :
    (Override.text k.variableName fun text => k.update (read text)).Governs k where
  name := rfl
  accepted h s := by
    rw [haccept] at h
    cases h
    rfl
  refused h := by
    rw [haccept] at h
    cases h

theorem governs_number (k : Setting) {bits least most : Nat} (hmost : most < 1 <<< bits) (read : Nat → k.Value)
    (haccept : ∀ text, k.accept? text = (IntType.numberWithin? least most text).map read) :
    (Override.number k.variableName (.unsigned bits) least most fun n => k.update (read n)).Governs k where
  name := rfl
  accepted {text x} h s := by
    obtain ⟨n, hn, rfl⟩ := Option.map_eq_some_iff.1 ((haccept text).symm.trans h)
    simp only [number, IntType.readWithin?_unsigned hmost, hn]
    rfl
  refused {text} h s := by
    have hn := Option.map_eq_none_iff.1 ((haccept text).symm.trans h)
    simp only [number, IntType.readWithin?_unsigned hmost, hn]
    exact ⟨_, rfl⟩

theorem governs_codec : (Override.codec Setting.codec.variableName Setting.codec.update).Governs .codec where
  name := rfl
  accepted {text x} h s := by
    have htext : Codec.ofText? text = some x := h
    simp only [codec, htext]
  refused {text} h s := by
    have htext : Codec.ofText? text = none := h
    simp only [codec, htext]
    exact ⟨_, rfl⟩

/-- The settings in the order in which their variables are looked at. -/
def governed : List Setting :=
  [.namespaces, .app, .group, .client, .requestTimeoutMs, .codec, .encoderPoolSize, .accessName, .host, .port]

theorem governs_all : List.Forall₂ Governs all governed := by
  refine .cons (governs_text .namespaces Topic.split fun _ => rfl) ?_
  refine .cons (governs_text .app id fun _ => rfl) ?_
  refine .cons (governs_text .group id fun _ => rfl) ?_
  refine .cons (governs_text .client id fun _ => rfl) ?_
  refine .cons (governs_number .requestTimeoutMs (by decide) UInt64.ofNat fun _ => rfl) ?_
  refine .cons governs_codec ?_
  refine .cons (governs_number .encoderPoolSize (by decide) UInt64.ofNat fun _ => rfl) ?_
  refine .cons (governs_text .accessName id fun _ => rfl) ?_
  refine .cons (governs_text .host id fun _ => rfl) ?_
  exact .cons (governs_number .port (by decide) UInt16.ofNat fun _ => rfl) .nil

theorem mem_governed (k : Setting) : k ∈ governed := by
  cases k <;> decide

/-- Applying a variable sets the setting that it governs, and nothing else. -/
theorem Governs.apply_fst {o : Override} (h : o.Governs k) (environment : String → Option String)
    (state : Settings × List LogEvent) :
    (apply environment state o).1 = (k.override? environment).elim state.1 (k.update · state.1) := by
  rw [apply, h.name, k.override?_eq]
  cases lookUp environment k.variableName with
  | none => rfl
  | some text =>
    rw [Option.bind_some]
    cases haccept : k.accept? text with
    | none =>
      obtain ⟨warning, hset⟩ := h.refused haccept state.1
      simp only [hset]
      rfl
    | some x =>
      simp only [h.accepted haccept state.1]
      rfl

theorem Governs.get_apply_self {o : Override} (h : o.Governs k) (environment : String → Option String)
    (state : Settings × List LogEvent) :
    k.get (apply environment state o).1 = (k.override? environment).getD (k.get state.1) := by
  rw [h.apply_fst]
  cases k.override? environment with
  | none => rfl
  | some x => exact k.get_update_self x state.1

theorem Governs.get_apply_of_ne {o : Override} (h : o.Governs k) {k' : Setting} (hk : k ≠ k')
    (environment : String → Option String) (state : Settings × List LogEvent) :
    k'.get (apply environment state o).1 = k'.get state.1 := by
  rw [h.apply_fst]
  cases k.override? environment with
  | none => rfl
  | some x => exact Setting.get_update_of_ne hk x state.1

end Override

/-! ### All variables -/

namespace Setting

/-- Of variables that govern different settings each has its effect, whatever the others are. -/
theorem get_foldl_apply {os : List Override} {ks : List Setting} (h : List.Forall₂ Override.Governs os ks)
    (hnodup : ks.Nodup) (environment : String → Option String) (k : Setting) (state : Settings × List LogEvent) :
    k.get (os.foldl (Override.apply environment) state).1 =
      if k ∈ ks then (k.override? environment).getD (k.get state.1) else k.get state.1 := by
  induction h generalizing state with
  | nil => rfl
  | @cons o k' os ks ho _ ih =>
    obtain ⟨hnotMem, hnodup⟩ := List.nodup_cons.1 hnodup
    rw [List.foldl_cons, ih hnodup]
    by_cases hk : k = k'
    · subst hk
      rw [if_neg hnotMem, if_pos List.mem_cons_self, ho.get_apply_self]
    · rw [ho.get_apply_of_ne (Ne.symm hk)]
      simp only [List.mem_cons, hk, false_or]

/-- After all variables a setting is what its own variable says, or what it was. -/
theorem get_override (k : Setting) (environment : String → Option String) (s : Settings) :
    k.get (s.override environment).1 = (k.override? environment).getD (k.get s) := by
  rw [Settings.override, get_foldl_apply Override.governs_all (by decide), if_pos (Override.mem_governed k)]

end Setting

end Switchboard
