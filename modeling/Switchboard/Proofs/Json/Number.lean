import Switchboard.Json.Token

/-!
# JSON numbers read back

* (characters) a text that is a number starts with a digit or a minus sign, and the lexer takes all of it for one;
* (integers) an integer of 64 bits reads back from its digits (`ofText?_int`);
* (texts) the text of a number, if not of an infinity or of no number, looks like one (`exists_text_eq`).
-/

namespace Switchboard.JsonNumber

open Json (isNumberChar)

/-! ### The characters of a number -/

private theorem isNumberChar_of_isDigit {c : Char} (h : c.isDigit = true) : isNumberChar c = true := by
  simp [isNumberChar, h]

private theorem isNumberChar_of_mem_takeWhile {c : Char} {cs : List Char} (h : c ∈ cs.takeWhile Char.isDigit) :
    isNumberChar c = true :=
  isNumberChar_of_isDigit (List.all_eq_true.1 List.all_takeWhile c h)

private theorem isNumberChar_of_isDigits {ds : List Char} (h : isDigits ds = true) {c : Char} (hc : c ∈ ds) :
    isNumberChar c = true := by
  rw [isDigits, Bool.and_eq_true, List.all_eq_true] at h
  exact isNumberChar_of_isDigit (h.2 c hc)

/-- An exponent is a mark, perhaps a sign, and digits. -/
theorem isNumberChar_of_exponent? {cs : List Char} {exponent : Option (Bool × List Char)}
    (h : exponent? cs = some exponent) (hdigits : exponent.all (isDigits ·.2) = true) :
    ∀ c ∈ cs, isNumberChar c = true := by
  unfold exponent? at h
  split at h
  · simp
  · rename_i c r
    split at h
    · rename_i hmark
      have hc : isNumberChar c = true := by rcases hmark with rfl | rfl <;> rfl
      have hr : ∀ d ∈ r, isNumberChar d = true := by
        split at h
        · cases h
          intro d hd
          rcases List.mem_cons.1 hd with rfl | hd
          · rfl
          · exact isNumberChar_of_isDigits hdigits hd
        · cases h
          intro d hd
          rcases List.mem_cons.1 hd with rfl | hd
          · rfl
          · exact isNumberChar_of_isDigits hdigits hd
        · cases h
          exact fun d hd => isNumberChar_of_isDigits hdigits hd
      intro d hd
      rcases List.mem_cons.1 hd with rfl | hd
      · exact hc
      · exact hr d hd
    · cases h

theorem isNumberChar_of_splitFraction {cs : List Char} (h : ∀ c ∈ (splitFraction cs).2, isNumberChar c = true) :
    ∀ c ∈ cs, isNumberChar c = true := by
  unfold splitFraction at h
  split at h
  · rename_i r
    intro c hc
    rcases List.mem_cons.1 hc with rfl | hc
    · rfl
    · rw [← List.takeWhile_append_dropWhile (p := Char.isDigit) (l := r), List.mem_append] at hc
      exact hc.elim isNumberChar_of_mem_takeWhile (h c)
  · exact h

theorem splitSign_eq {cs body : List Char} {negative : Bool} (h : splitSign cs = (negative, body)) :
    cs = if negative then '-' :: body else body := by
  unfold splitSign at h
  split at h <;> cases h <;> rfl

/-- Whole digits start with a digit. -/
theorem exists_cons_of_isWhole {ds : List Char} (h : isWhole ds = true) :
    ∃ c r, ds = c :: r ∧ c.isDigit = true := by
  unfold isWhole at h
  split at h
  · exact ⟨_, _, rfl, rfl⟩
  · cases h
  · cases ds with
    | nil => cases h
    | cons c r =>
      rw [isDigits, Bool.and_eq_true, List.all_eq_true] at h
      exact ⟨c, r, rfl, h.2 c List.mem_cons_self⟩

/-- A number text starts with a digit or a minus sign and goes on with characters of a number. -/
theorem exists_cons_of_of? {cs : List Char} {p : Parts} (h : Parts.of? cs = some p) :
    ∃ c r, cs = c :: r ∧ (c = '-' ∨ c.isDigit = true) ∧ ∀ d ∈ r, isNumberChar d = true := by
  unfold Parts.of? at h
  rcases hsign : splitSign cs with ⟨negative, body⟩
  simp only [hsign] at h
  rcases hfraction : splitFraction (body.dropWhile Char.isDigit) with ⟨fraction, rest⟩
  simp only [hfraction] at h
  split at h
  · cases h
  · rename_i exponent hexponent
    split at h
    · rename_i hparts
      rw [Bool.and_eq_true, Bool.and_eq_true] at hparts
      obtain ⟨⟨hwhole, -⟩, hdigits⟩ := hparts
      have hrest := isNumberChar_of_exponent? hexponent hdigits
      have hbehind := isNumberChar_of_splitFraction (by rw [hfraction]; exact hrest)
      have hbody : ∀ d ∈ body, isNumberChar d = true := by
        intro d hd
        rw [← List.takeWhile_append_dropWhile (p := Char.isDigit) (l := body), List.mem_append] at hd
        exact hd.elim isNumberChar_of_mem_takeWhile (hbehind d)
      obtain ⟨c, r, hc, hdigit⟩ := exists_cons_of_isWhole hwhole
      rw [splitSign_eq hsign]
      -- the minus sign is the first character, or the first digit is
      cases negative with
      | true => exact ⟨'-', body, rfl, .inl rfl, hbody⟩
      | false =>
        cases body with
        | nil => cases hc
        | cons c' r' =>
          have hfirst : c'.isDigit = true := by
            rw [List.takeWhile_cons] at hc
            split at hc
            · assumption
            · cases hc
          exact ⟨c', r', rfl, .inr hfirst, fun d hd => hbody d (List.mem_cons_of_mem _ hd)⟩
    · cases h

theorem exists_cons_of_ofText? {cs : List Char} {n : JsonNumber} (h : ofText? cs = some n) :
    ∃ c r, cs = c :: r ∧ (c = '-' ∨ c.isDigit = true) ∧ ∀ d ∈ r, isNumberChar d = true := by
  obtain ⟨p, hp, -⟩ := Option.bind_eq_some_iff.1 h
  exact exists_cons_of_of? hp

/-! ### Integers -/

theorem natOfDigits_natDigits (n : Nat) : natOfDigits (Decimal.natDigits n) = n := by
  have hcore := Nat.ofDigitChars_ten_toDigits (n := n)
  rw [Nat.ofDigitChars_eq_foldl] at hcore
  simp only [natOfDigits, digitValue, Decimal.natDigits, Nat.mul_comm _ 10]
  exact hcore

theorem isDigit_of_mem_natDigits {n : Nat} {c : Char} (h : c ∈ Decimal.natDigits n) : c.isDigit = true :=
  Nat.isDigit_of_mem_toDigits (by decide) (by decide) h

private theorem digitChar_ne_zero {n : Nat} (hpos : 0 < n) (hn : n < 10) : Nat.digitChar n ≠ '0' :=
  (by decide : ∀ n < 10, 0 < n → Nat.digitChar n ≠ '0') n hn hpos

/-- The digits of a positive number do not start with a zero. -/
theorem exists_cons_natDigits {n : Nat} (h : 0 < n) : ∃ c r, Decimal.natDigits n = c :: r ∧ c ≠ '0' := by
  induction n using Nat.strongRecOn with
  | ind n ih =>
    unfold Decimal.natDigits
    by_cases hn : n < 10
    · exact ⟨_, _, Nat.toDigits_of_lt_base hn, digitChar_ne_zero h hn⟩
    · obtain ⟨c, r, hc, hne⟩ := ih (n / 10) (by omega) (by omega)
      rw [Decimal.natDigits] at hc
      rw [Nat.toDigits_of_base_le (by decide) (Nat.le_of_not_lt hn), hc]
      exact ⟨c, r ++ [Nat.digitChar (n % 10)], rfl, hne⟩

theorem isWhole_natDigits (n : Nat) : isWhole (Decimal.natDigits n) = true := by
  rcases Nat.eq_zero_or_pos n with rfl | hpos
  · rfl
  · obtain ⟨c, r, hc, hne⟩ := exists_cons_natDigits hpos
    have hall : isDigits (c :: r) = true := by
      rw [isDigits, Bool.and_eq_true, List.all_eq_true]
      exact ⟨rfl, fun d hd => isDigit_of_mem_natDigits (hc ▸ hd)⟩
    rw [hc]
    unfold isWhole
    split
    · rfl
    · rename_i heq
      exact absurd (List.cons.inj heq).1 hne
    · exact hall

private theorem takeWhile_of_all {cs : List Char} (h : ∀ c ∈ cs, c.isDigit = true) :
    cs.takeWhile Char.isDigit = cs ∧ cs.dropWhile Char.isDigit = [] := by
  induction cs with
  | nil => exact ⟨rfl, rfl⟩
  | cons c cs ih =>
    obtain ⟨htake, hdrop⟩ := ih fun d hd => h d (List.mem_cons_of_mem _ hd)
    have hc := h c List.mem_cons_self
    rw [List.takeWhile_cons_of_pos hc, List.dropWhile_cons_of_pos hc, htake, hdrop]
    exact ⟨rfl, rfl⟩

theorem splitSign_natDigits (n : Nat) : splitSign (Decimal.natDigits n) = (false, Decimal.natDigits n) := by
  unfold splitSign
  split
  · rename_i r hr
    have hdigit : ('-' : Char).isDigit = true := isDigit_of_mem_natDigits (hr ▸ List.mem_cons_self)
    cases hdigit
  · rfl

theorem of?_intText (n : Int) :
    Parts.of? (Decimal.intText n) = some ⟨decide (n < 0), Decimal.natDigits n.natAbs, none, none⟩ := by
  have hsign : splitSign (Decimal.intText n) = (decide (n < 0), Decimal.natDigits n.natAbs) := by
    unfold Decimal.intText
    by_cases hn : n < 0
    · rw [if_pos hn, decide_eq_true hn]
      rfl
    · rw [if_neg hn, decide_eq_false hn]
      exact splitSign_natDigits _
  obtain ⟨htake, hdrop⟩ := takeWhile_of_all fun c hc => isDigit_of_mem_natDigits (n := n.natAbs) hc
  unfold Parts.of?
  simp only [hsign, htake, hdrop, splitFraction, exponent?, isWhole_natDigits]
  rfl

/-- An integer of 64 bits reads back from its digits. -/
theorem ofText?_int {n : Int} (hlow : Int64.minValue.toInt ≤ n) (hhigh : n < UInt64.size) :
    ofText? (text (.int n)) = some (.int n) := by
  have hmin : Int64.minValue.toInt = -9223372036854775808 := rfl
  rw [text, ofText?, of?_intText]
  simp only [Option.bind_eq_bind, Option.bind_some, natOfDigits_natDigits]
  by_cases hn : n < 0
  · have hvalue : -(n.natAbs : Int) = n := by omega
    have hzero : (n.natAbs == 0) = false := beq_eq_false_iff_ne.2 (by omega)
    have hfits : n.natAbs < (1 <<< 63) + 1 := by omega
    simp only [decide_eq_true hn, hzero, if_true, hvalue]
    exact if_pos ⟨rfl, rfl, rfl, hfits⟩
  · have hvalue : (n.natAbs : Int) = n := by omega
    have hfits : n.natAbs < UInt64.size := by omega
    simp only [decide_eq_false hn, Bool.false_eq_true, if_false, hvalue]
    exact if_pos ⟨rfl, rfl, rfl, hfits⟩

/-! ### The text of any number -/

/-- The text starts as a number does, unless it is empty, and goes on as one. -/
structure Numeric (cs : List Char) : Prop where
  head : ∀ c ∈ cs.head?, c = '-' ∨ c.isDigit = true
  chars : ∀ c ∈ cs, isNumberChar c = true

private theorem numeric_cons {c : Char} {cs : List Char} (hc : c = '-' ∨ c.isDigit = true)
    (hcs : ∀ d ∈ cs, isNumberChar d = true) : Numeric (c :: cs) := by
  refine ⟨fun d hd => Option.mem_some_iff.1 hd ▸ hc, fun d hd => ?_⟩
  rcases List.mem_cons.1 hd with rfl | hd
  · rcases hc with rfl | hc
    · rfl
    · exact isNumberChar_of_isDigit hc
  · exact hcs d hd

private theorem numeric_append {ds cs : List Char} (hne : ds ≠ []) (hds : ∀ d ∈ ds, d.isDigit = true)
    (hcs : ∀ c ∈ cs, isNumberChar c = true) : Numeric (ds ++ cs) := by
  obtain ⟨d, ds, rfl⟩ := List.exists_cons_of_ne_nil hne
  refine numeric_cons (.inr (hds d List.mem_cons_self)) fun c hc => ?_
  rcases List.mem_append.1 hc with hc | hc
  · exact isNumberChar_of_isDigit (hds c (List.mem_cons_of_mem _ hc))
  · exact hcs c hc

private theorem numeric_natDigits (n : Nat) : Numeric (Decimal.natDigits n) := by
  have hdigits : Numeric (Decimal.natDigits n ++ []) :=
    numeric_append Nat.toDigits_ne_nil (fun d hd => isDigit_of_mem_natDigits hd) nofun
  rwa [List.append_nil] at hdigits

private theorem numeric_intText (n : Int) : Numeric (Decimal.intText n) := by
  unfold Decimal.intText
  split
  · exact numeric_cons (.inl rfl) (numeric_natDigits _).chars
  · exact numeric_natDigits _

/-- Zeros fill up what is written without an exponent. -/
private theorem isNumberChar_of_mem_replicate {n : Nat} {c : Char} (h : c ∈ List.replicate n '0') :
    isNumberChar c = true := by
  rw [List.eq_of_mem_replicate h]
  rfl

private theorem numeric_positionalText (l : Decimal.Layout) {ds : List Char} (hne : ds ≠ [])
    (hds : ∀ d ∈ ds, d.isDigit = true) (e : Int) : Numeric (Decimal.positionalText l ds e) := by
  have hnumber : ∀ {cs : List Char}, (∀ c ∈ cs, c ∈ ds) → ∀ c ∈ cs, isNumberChar c = true :=
    fun h c hc => isNumberChar_of_isDigit (hds c (h c hc))
  unfold Decimal.positionalText
  split
  · refine numeric_cons (.inr rfl) fun c hc => ?_
    rcases List.mem_cons.1 hc with rfl | hc
    · rfl
    · rcases List.mem_append.1 hc with hc | hc
      · exact isNumberChar_of_mem_replicate hc
      · exact hnumber (fun _ h => h) c hc
  · simp only
    split
    · rw [List.append_assoc]
      refine numeric_append hne hds fun c hc => ?_
      rcases List.mem_append.1 hc with hc | hc
      · exact isNumberChar_of_mem_replicate hc
      · split at hc
        · simp only [List.mem_cons, List.not_mem_nil, or_false] at hc
          rcases hc with rfl | rfl <;> rfl
        · cases hc
    · have hwhole : ds.take (e.toNat + 1) ≠ [] := by
        rw [Ne, List.take_eq_nil_iff, not_or]
        exact ⟨Nat.succ_ne_zero _, hne⟩
      refine numeric_append hwhole (fun d hd => hds d (List.mem_of_mem_take hd)) fun c hc => ?_
      rcases List.mem_cons.1 hc with rfl | hc
      · rfl
      · exact hnumber (fun _ => List.mem_of_mem_drop) c hc

private theorem numeric_scientificText {ds : List Char} (hne : ds ≠ []) (hds : ∀ d ∈ ds, d.isDigit = true) (e : Int) :
    Numeric (Decimal.scientificText ds e) := by
  have hmark : ∀ c ∈ 'e' :: (if e < 0 then '-' else '+') :: Decimal.natDigits e.natAbs, isNumberChar c = true := by
    intro c hc
    rcases List.mem_cons.1 hc with rfl | hc
    · rfl
    · rcases List.mem_cons.1 hc with rfl | hc
      · split <;> rfl
      · exact (numeric_natDigits _).chars c hc
  unfold Decimal.scientificText
  simp only
  split
  · rename_i d d' rest
    refine numeric_cons (.inr (hds d List.mem_cons_self)) fun c hc => ?_
    rcases List.mem_cons.1 hc with rfl | hc
    · rfl
    · rcases List.mem_append.1 hc with hc | hc
      · exact isNumberChar_of_isDigit (hds c (List.mem_cons_of_mem _ hc))
      · exact hmark c hc
  · exact numeric_append hne hds hmark

private theorem numeric_magnitudeText (l : Decimal.Layout) (x : Binary64) : Numeric (Decimal.magnitudeText l x) := by
  have hne : ∀ n, Decimal.natDigits n ≠ [] := fun n => Nat.toDigits_ne_nil
  have hds : ∀ n, ∀ d ∈ Decimal.natDigits n, d.isDigit = true := fun n d hd => isDigit_of_mem_natDigits hd
  have hzero : Numeric ['0', '.', '0'] :=
    numeric_cons (.inr rfl) (List.forall_mem_cons.2 ⟨rfl, List.forall_mem_singleton.2 rfl⟩)
  unfold Decimal.magnitudeText
  simp only
  split
  · split
    · exact hzero
    · exact numeric_cons (.inr rfl) nofun
  · split
    · exact numeric_positionalText l (hne _) (hds _) _
    · split
      · exact numeric_positionalText l (hne _) (hds _) _
      · exact numeric_scientificText (hne _) (hds _) _

/-- What is not written as a number is written by a word. -/
theorem exists_text_eq (n : JsonNumber) :
    ∃ cs word, n.text = cs ++ word ∧ Numeric cs ∧ ∀ c ∈ word.head?, c = 'N' ∨ c = 'i' := by
  have hnone : Numeric [] := ⟨nofun, nofun⟩
  cases n with
  | int n => exact ⟨_, [], (List.append_nil _).symm, numeric_intText n, nofun⟩
  | float x =>
    have hinf : ∀ c ∈ ['i', 'n', 'f'].head?, c = 'N' ∨ c = 'i' := fun c hc => .inr (Option.mem_some_iff.1 hc).symm
    unfold text Decimal.text
    simp only
    split
    · exact ⟨[], ['N', 'a', 'N'], rfl, hnone, fun c hc => .inl (Option.mem_some_iff.1 hc).symm⟩
    · by_cases hfinite : x.isFinite = true <;> by_cases hnegative : x.isNegative = true <;>
        simp only [hfinite, hnegative, Bool.false_eq_true, if_true, if_false]
      · exact ⟨_, [], (List.append_nil _).symm, numeric_cons (.inl rfl) (numeric_magnitudeText layout x).chars, nofun⟩
      · exact ⟨_, [], (List.append_nil _).symm, numeric_magnitudeText layout x, nofun⟩
      · exact ⟨['-'], ['i', 'n', 'f'], rfl, numeric_cons (.inl rfl) nofun, hinf⟩
      · exact ⟨[], ['i', 'n', 'f'], rfl, hnone, hinf⟩

end Switchboard.JsonNumber
