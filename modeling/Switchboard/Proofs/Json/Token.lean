import Switchboard.Proofs.Json.Number

/-!
# JSON tokens read back

* (strings) a string reads back from its escaped text, whatever its characters are (`lexString?_flatMap_escapeChar`);
* (numbers) a number is read up to the first character that cannot belong to it;
* (sequences) so tokens read back from their texts one after another, provided that each number does and that none
  stands in front of anything but a bracket or a separator (`lex?_flatMap_text`).
-/

namespace Switchboard.Json

/-! ### Strings -/

theorem unit?_control {n : Nat} (h : n < 32) :
    unit? '0' '0' (hexDigit (n / 16)) (hexDigit (n % 16)) = some n :=
  (by decide : ∀ n < 32, unit? '0' '0' (hexDigit (n / 16)) (hexDigit (n % 16)) = some n) n h

/-- A character reads back from its escaped form. -/
theorem lexString?_escapeChar (acc : List Char) (c : Char) (rest : List Char) :
    lexString? acc (escapeChar c ++ rest) = lexString? (c :: acc) rest := by
  unfold escapeChar
  split
  · rename_i hquote
    subst hquote
    rfl
  split
  · rename_i hbackslash
    subst hbackslash
    rfl
  split
  · rename_i hcontrol
    have hc : Char.ofNat c.toNat = c := Char.ofNat_toNat c
    split
    · rename_i h8
      rw [h8] at hc
      rw [← hc]
      rfl
    split
    · rename_i htab
      subst htab
      rfl
    split
    · rename_i hfeed
      subst hfeed
      rfl
    split
    · rename_i h12
      rw [h12] at hc
      rw [← hc]
      rfl
    split
    · rename_i hreturn
      subst hreturn
      rfl
    -- all other control characters are written by number
    · simp only [List.cons_append, List.nil_append, lexString?, unit?_control hcontrol, hc]
      rw [if_pos (.inl (by omega))]
  · rename_i hquote hbackslash hcontrol
    rw [List.singleton_append, lexString?, if_neg (by simp [hcontrol, hbackslash])]
    all_goals simp_all

/-- A string reads back from its text up to the quote behind it. -/
theorem lexString?_flatMap_escapeChar (s acc rest : List Char) :
    lexString? acc (s.flatMap escapeChar ++ '"' :: rest) = (Token.str (acc.reverse ++ s) :: ·) <$> lex? rest := by
  induction s generalizing acc with
  | nil => simp [lexString?]
  | cons c s ih =>
    rw [List.flatMap_cons, List.append_assoc, lexString?_escapeChar, ih]
    simp

theorem lex?_quote (s rest : List Char) : lex? (quote s ++ rest) = (Token.str s :: ·) <$> lex? rest := by
  have hbehind : quote s ++ rest = '"' :: (s.flatMap escapeChar ++ '"' :: rest) := by simp [quote]
  rw [hbehind, lex?]
  · exact lexString?_flatMap_escapeChar s [] rest
  all_goals simp

/-! ### Brackets and separators -/

/-- The token is a bracket or a separator. -/
def Token.IsMark : Token → Prop
  | .openArray | .closeArray | .openObject | .closeObject | .comma | .colon => True
  | _ => False

theorem Token.IsMark.exists_text {t : Token} (h : t.IsMark) :
    ∃ c, t.text = [c] ∧ punctuation? c = some t ∧ isBlank c = false ∧ isNumberChar c = false ∧
      ∀ rest, lex? (c :: rest) = (t :: ·) <$> lex? rest := by
  cases t with
  | openArray => exact ⟨'[', rfl, rfl, rfl, rfl, fun _ => rfl⟩
  | closeArray => exact ⟨']', rfl, rfl, rfl, rfl, fun _ => rfl⟩
  | openObject => exact ⟨'\x7b', rfl, rfl, rfl, rfl, fun _ => rfl⟩
  | closeObject => exact ⟨'\x7d', rfl, rfl, rfl, rfl, fun _ => rfl⟩
  | comma => exact ⟨',', rfl, rfl, rfl, rfl, fun _ => rfl⟩
  | colon => exact ⟨':', rfl, rfl, rfl, rfl, fun _ => rfl⟩
  | null | bool _ | num _ | str _ => exact h.elim

theorem Token.IsMark.lex?_text {t : Token} (h : t.IsMark) (rest : List Char) :
    lex? (t.text ++ rest) = (t :: ·) <$> lex? rest := by
  obtain ⟨c, hc, -, -, -, hlex⟩ := h.exists_text
  rw [hc, List.singleton_append, hlex]

/-! ### Numbers -/

theorem lexNumber?_append {cs : List Char} (h : ∀ c ∈ cs, isNumberChar c = true) (acc rest : List Char) :
    lexNumber? acc (cs ++ rest) = lexNumber? (cs.reverse ++ acc) rest := by
  induction cs generalizing acc with
  | nil => rfl
  | cons c cs ih =>
    rw [List.cons_append, lexNumber?, if_pos (h c List.mem_cons_self), ih fun d hd => h d (List.mem_cons_of_mem _ hd)]
    simp

/-- A text that starts as a number does is read as one. -/
theorem lex?_of_number {c : Char} (h : c = '-' ∨ c.isDigit = true) (rest : List Char) :
    lex? (c :: rest) = lexNumber? [c] rest := by
  have hother : ∀ d : Char, d ≠ '-' → d.isDigit = false → c ≠ d := by
    rintro d hminus hdigit rfl
    rcases h with rfl | h
    · exact hminus rfl
    · rw [hdigit] at h
      cases h
  have hblank : isBlank c = false := by
    simp [isBlank, hother ' ', hother '\t', hother '\n', hother '\r']
  rw [lex?, hblank, if_neg (by decide), if_neg (hother '"' (by decide) (by decide)), if_pos h]
  · rintro _ rfl
    exact absurd rfl (hother 'n' (by decide) (by decide))
  · rintro _ rfl
    exact absurd rfl (hother 't' (by decide) (by decide))
  · rintro _ rfl
    exact absurd rfl (hother 'f' (by decide) (by decide))

/-! ### Sequences -/

/-- If the token is a number, it reads back from its text. -/
def Token.ReadsBack : Token → Prop
  | .num n => JsonNumber.ofText? n.text = some n
  | _ => True

/-- The tokens read back when their texts are written one behind the other. -/
def Printable : List Token → Prop
  | [] => True
  | t :: ts => t.ReadsBack ∧ ((∃ n, t = .num n) → ∀ u ∈ ts.head?, u.IsMark) ∧ Printable ts

theorem lex?_num {n : JsonNumber} (hn : JsonNumber.ofText? n.text = some n) {ts : List Token}
    (hmark : ∀ u ∈ ts.head?, u.IsMark) :
    lex? (n.text ++ ts.flatMap Token.text) = (Token.num n :: ·) <$> lex? (ts.flatMap Token.text) := by
  obtain ⟨c, r, hc, hfirst, hr⟩ := JsonNumber.exists_cons_of_ofText? hn
  have htext : r.reverse ++ [c] = n.text.reverse := by rw [hc, List.reverse_cons]
  rw [hc, List.cons_append, lex?_of_number hfirst, lexNumber?_append hr, htext]
  -- the number ends with the text, or where a bracket or separator stands
  cases ts with
  | nil => simp [lexNumber?, hn, lex?]
  | cons u ts =>
    obtain ⟨d, hd, hmark, hblank, hnumber, hlex⟩ := (hmark u rfl).exists_text
    rw [List.flatMap_cons, hd, List.singleton_append, lexNumber?, hlex]
    simp [hnumber, hblank, hmark, hn]

/-- Tokens read back from their texts. -/
theorem lex?_flatMap_text {ts : List Token} (h : Printable ts) : lex? (ts.flatMap Token.text) = some ts := by
  induction ts with
  | nil => rfl
  | cons t ts ih =>
    obtain ⟨ht, hmark, hts⟩ := h
    rw [List.flatMap_cons]
    cases t with
    | openArray | closeArray | openObject | closeObject | comma | colon =>
      rw [Token.IsMark.lex?_text, ih hts]
      · rfl
      · trivial
    | null =>
      simp [Token.text, lex?, ih hts]
    | bool b =>
      cases b <;> simp [Token.text, lex?, ih hts]
    | num n =>
      rw [Token.text, lex?_num ht (hmark ⟨n, rfl⟩), ih hts]
      rfl
    | str s =>
      rw [Token.text, lex?_quote, ih hts]
      rfl

end Switchboard.Json
