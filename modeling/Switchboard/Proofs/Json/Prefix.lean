import Switchboard.Proofs.Json.Text

/-!
# JSON objects end by themselves

The level of a sequence of tokens is the number of brackets that it opens and does not close again.

* (reading) the reader has as many open arrays and objects as the level says, so it finds no value where the level is
  not zero (`level_of_ofTokens?`);
* (writing) between the first and the last token of an object the level is positive (`Balanced.level_pos`);
* (cutting) what is read from a text that is cut short has the level of some proper prefix of its tokens
  (`Reads.exists_level`): a string or a literal cut through is none, and a number cut through is a number or none.

So nothing is read from the text of an object that is cut short (`parseBytes?_of_properPrefix`).
-/

namespace Switchboard.Json

/-! ### Levels -/

/-- What a token adds to the level. -/
def Token.rise : Token → Int
  | .openArray | .openObject => 1
  | .closeArray | .closeObject => -1
  | _ => 0

/-- The number of brackets opened, less those closed. -/
def level : List Token → Int
  | [] => 0
  | t :: ts => t.rise + level ts

@[simp] theorem level_nil : level [] = 0 := rfl

@[simp] theorem level_cons (t : Token) (ts : List Token) : level (t :: ts) = t.rise + level ts := rfl

@[simp] theorem level_append (ts us : List Token) : level (ts ++ us) = level ts + level us := by
  induction ts with
  | nil => exact (Int.zero_add _).symm
  | cons t ts ih => rw [List.cons_append, level_cons, level_cons, ih, Int.add_assoc]

/-! ### The level of a reader -/

namespace Reader

/-- So many arrays and objects are open, and none of them where a value is finished. -/
structure AtLevel (r : Reader) (n : Int) : Prop where
  length : (r.stack.length : Int) = n
  done : ∀ v, r.mode = .done v → r.stack = []

theorem atLevel_finish {stack : List Frame} {n : Int} (h : (stack.length : Int) = n) (v : Json) :
    (finish v stack).AtLevel n := by
  match stack with
  | [] => exact ⟨h, fun _ _ => rfl⟩
  | .items _ :: _ => exact ⟨h, nofun⟩
  | .members _ _ :: _ => exact ⟨h, nofun⟩

theorem atLevel_value? {stack : List Frame} {n : Int} (h : (stack.length : Int) = n) {t : Token} {r : Reader}
    (hstep : value? stack t = some r) : r.AtLevel (n + t.rise) := by
  cases t with
  | null | bool _ | num _ | str _ =>
    cases hstep
    exact atLevel_finish (h.trans (Int.add_zero n).symm) _
  | openArray | openObject =>
    simp only [value?, enter?] at hstep
    split at hstep
    · cases hstep
      exact ⟨congrArg (· + 1) h, nofun⟩
    · cases hstep
  | closeArray | closeObject | comma | colon => cases hstep

/-- A token opens or closes as many arrays and objects as it adds to the level. -/
theorem AtLevel.step? {r r' : Reader} {n : Int} (h : r.AtLevel n) {t : Token} (hstep : r.step? t = some r') :
    r'.AtLevel (n + t.rise) := by
  have hlength := h.length
  rcases step?_cases hstep with hvalue | ⟨read, rest, hs, rfl, rfl⟩ | ⟨read, name, rest, hs, rfl, rfl⟩ |
    ⟨read, name, s, rest, hs, rfl, rfl⟩ | ⟨ht, hs, hmode⟩
  · exact atLevel_value? hlength hvalue
  · rw [hs, List.length_cons] at hlength
    exact atLevel_finish (by simp only [Token.rise]; omega) _
  · rw [hs, List.length_cons] at hlength
    exact atLevel_finish (by simp only [Token.rise]; omega) _
  · rw [hs] at hlength
    exact ⟨hlength.trans (Int.add_zero n).symm, nofun⟩
  · have hrise : t.rise = 0 := by
      rcases ht with rfl | rfl <;> rfl
    rw [hrise, Int.add_zero]
    exact ⟨hs ▸ hlength, fun v hv => absurd hv (hmode v)⟩

theorem AtLevel.foldlM {ts : List Token} {r r' : Reader} {n : Int} (h : r.AtLevel n)
    (hrun : ts.foldlM Reader.step? r = some r') : r'.AtLevel (n + level ts) := by
  induction ts generalizing r n with
  | nil =>
    cases hrun
    exact (Int.add_zero n).symm ▸ h
  | cons t ts ih =>
    rw [List.foldlM_cons] at hrun
    obtain ⟨r₁, hstep, hrest⟩ := Option.bind_eq_some_iff.1 hrun
    rw [level_cons, ← Int.add_assoc]
    exact ih (h.step? hstep) hrest

end Reader

/-- Tokens that spell a value close what they open. -/
theorem level_of_ofTokens? {ts : List Token} {v : Json} (h : ofTokens? ts = some v) : ts ≠ [] ∧ level ts = 0 := by
  obtain ⟨r, hrun, hmode⟩ := Option.bind_eq_some_iff.1 h
  have hstart : Reader.AtLevel ⟨.value, []⟩ 0 := ⟨rfl, nofun⟩
  have hend := hstart.foldlM hrun
  split at hmode
  · rename_i w hdone
    have hlength := hend.length
    rw [hend.done w hdone, Int.zero_add] at hlength
    refine ⟨?_, hlength.symm⟩
    rintro rfl
    cases hrun
    cases hdone
  · cases hmode

/-! ### The tokens of a value -/

/-- As many brackets are closed as opened, and never more on the way. -/
structure Balanced (ts : List Token) : Prop where
  level : level ts = 0
  nonneg : ∀ us, us <+: ts → 0 ≤ Json.level us

theorem balanced_nil : Balanced [] := by
  refine ⟨rfl, fun us hus => ?_⟩
  rw [List.prefix_nil.1 hus]
  exact Int.le_refl 0

theorem Balanced.cons {t : Token} {ts : List Token} (h : Balanced ts) (ht : t.rise = 0) : Balanced (t :: ts) := by
  refine ⟨by rw [level_cons, ht, h.level]; rfl, fun us hus => ?_⟩
  rcases List.prefix_cons_iff.1 hus with rfl | ⟨us', rfl, hus'⟩
  · exact Int.le_refl 0
  · rw [level_cons, ht, Int.zero_add]
    exact h.nonneg us' hus'

theorem Balanced.append {ts us : List Token} (hts : Balanced ts) (hus : Balanced us) : Balanced (ts ++ us) := by
  refine ⟨by rw [level_append, hts.level, hus.level]; rfl, fun p hp => ?_⟩
  rcases List.prefix_or_prefix_of_prefix hp (List.prefix_append ts us) with hp' | ⟨p', rfl⟩
  · exact hts.nonneg p hp'
  · rw [level_append, hts.level, Int.zero_add]
    exact hus.nonneg p' ((List.prefix_append_right_inj ts).1 hp)

/-- Between an opening bracket and the closing one the level is positive. -/
theorem Balanced.level_pos {t u : Token} {ts p : List Token} (h : Balanced ts) (ht : t.rise = 1)
    (hp : ProperPrefix p (ts ++ [u])) : 0 < Json.level (t :: p) := by
  have hnonneg := h.nonneg p hp.of_concat
  rw [level_cons, ht]
  omega

theorem Balanced.enclose {t u : Token} {ts : List Token} (h : Balanced ts) (ht : t.rise = 1) (hu : u.rise = -1) :
    Balanced (t :: (ts ++ [u])) := by
  have hlevel : Json.level (t :: (ts ++ [u])) = 0 := by
    rw [level_cons, level_append, h.level, level_cons, ht, hu]
    rfl
  refine ⟨hlevel, fun p hp => ?_⟩
  rcases List.prefix_cons_iff.1 hp with rfl | ⟨p', rfl, hp'⟩
  · exact Int.le_refl 0
  · by_cases heq : p' = ts ++ [u]
    · rw [heq, hlevel]
    · exact Int.le_of_lt (h.level_pos ht ⟨hp', heq⟩)

mutual
theorem balanced_tokens (v : Json) : Balanced v.tokens := by
  cases v with
  | null | bool _ | num _ | str _ => exact balanced_nil.cons rfl
  | arr items =>
    obtain ⟨ts, hts, h⟩ := exists_balanced_itemTokens items
    rw [tokens, hts]
    exact h.enclose rfl rfl
  | obj members =>
    obtain ⟨ts, hts, h⟩ := exists_balanced_memberTokens members
    rw [tokens, hts]
    exact h.enclose rfl rfl

theorem exists_balanced_itemTokens (items : List Json) :
    ∃ ts, itemTokens items = ts ++ [.closeArray] ∧ Balanced ts := by
  match items with
  | [] => exact ⟨[], rfl, balanced_nil⟩
  | [v] => exact ⟨v.tokens, rfl, balanced_tokens v⟩
  | v :: w :: r =>
    obtain ⟨ts, hts, h⟩ := exists_balanced_itemTokens (w :: r)
    refine ⟨v.tokens ++ .comma :: ts, ?_, (balanced_tokens v).append (h.cons rfl)⟩
    simp [itemTokens, hts]

theorem exists_balanced_memberTokens (members : List (String × Json)) :
    ∃ ts, memberTokens members = ts ++ [.closeObject] ∧ Balanced ts := by
  match members with
  | [] => exact ⟨[], rfl, balanced_nil⟩
  | [(k, v)] => exact ⟨.str k.toList :: .colon :: v.tokens, rfl, ((balanced_tokens v).cons rfl).cons rfl⟩
  | (k, v) :: m :: r =>
    obtain ⟨ts, hts, h⟩ := exists_balanced_memberTokens (m :: r)
    have hvalue : Balanced (v.tokens ++ .comma :: ts) := (balanced_tokens v).append (h.cons rfl)
    refine ⟨.str k.toList :: .colon :: (v.tokens ++ .comma :: ts), ?_, (hvalue.cons rfl).cons rfl⟩
    simp [memberTokens, hts]
end

/-! ### Numbers in the middle of a text -/

theorem lex?_of_isBlank {c : Char} (h : isBlank c = true) (cs : List Char) : lex? (c :: cs) = lex? cs := by
  simp only [isBlank, Bool.or_eq_true, decide_eq_true_eq] at h
  rcases h with ((rfl | rfl) | rfl) | rfl <;> rfl

theorem lex?_of_punctuation? {c : Char} {t : Token} (h : punctuation? c = some t) (cs : List Char) :
    lex? (c :: cs) = (t :: ·) <$> lex? cs := by
  unfold punctuation? at h
  iterate 6
    split at h
    · rename_i hc
      cases h
      subst hc
      rfl
  cases h

/-- A text that starts inside a number goes on behind the characters of numbers. -/
theorem exists_of_lexNumber? {acc cs : List Char} {ts : List Token} (h : lexNumber? acc cs = some ts) :
    ∃ n ts', ts = .num n :: ts' ∧ lex? (cs.dropWhile isNumberChar) = some ts' := by
  induction cs generalizing acc with
  | nil =>
    rw [lexNumber?] at h
    obtain ⟨n, -, rfl⟩ := Option.map_eq_some_iff.1 h
    exact ⟨n, [], rfl, rfl⟩
  | cons c cs ih =>
    rw [lexNumber?] at h
    split at h
    · rename_i hc
      rw [List.dropWhile_cons_of_pos hc]
      exact ih h
    · rename_i hc
      rw [List.dropWhile_cons_of_neg hc]
      split at h
      · cases h
      · rename_i n hn
        obtain ⟨ts', hts', rfl⟩ := Option.map_eq_some_iff.1 h
        refine ⟨n, ts', rfl, ?_⟩
        split at hts'
        · rename_i hblank
          rwa [lex?_of_isBlank hblank]
        · split at hts'
          · rename_i t ht
            rwa [lex?_of_punctuation? ht]
          · cases hts'

/-- The tokens are read from the text, or from what is behind the rest of a number. -/
def Reads (cs : List Char) (ts : List Token) : Prop :=
  lex? cs = some ts ∨ lex? (cs.dropWhile isNumberChar) = some ts

theorem reads_nil {ts : List Token} (h : Reads [] ts) : ts = [] := by
  rcases h with h | h <;> exact (Option.some.inj h).symm

theorem Reads.lex? {c : Char} (hc : isNumberChar c = false) {cs : List Char} {ts : List Token}
    (h : Reads (c :: cs) ts) :
    lex? (c :: cs) = some ts := by
  rwa [Reads, List.dropWhile_cons_of_neg (by simp [hc]), or_self] at h

/-- What looks like a number adds nothing to the level. -/
theorem Reads.of_numeric {cs cs' : List Char} {ts : List Token} (hcs : JsonNumber.Numeric cs)
    (h : Reads (cs ++ cs') ts) : ∃ ts', level ts = level ts' ∧ Reads cs' ts' := by
  have hdrop : ∀ {ds : List Char}, (∀ d ∈ ds, isNumberChar d = true) →
      (ds ++ cs').dropWhile isNumberChar = cs'.dropWhile isNumberChar := fun hds => List.dropWhile_append_of_pos hds
  rcases h with h | h
  · cases cs with
    | nil => exact ⟨ts, rfl, .inl h⟩
    | cons c cs =>
      rw [List.cons_append, lex?_of_number (hcs.head c rfl)] at h
      obtain ⟨n, ts', rfl, hrest⟩ := exists_of_lexNumber? h
      rw [hdrop fun d hd => hcs.chars d (List.mem_cons_of_mem _ hd)] at hrest
      refine ⟨ts', ?_, .inr hrest⟩
      rw [level_cons]
      exact Int.zero_add _
  · rw [hdrop hcs.chars] at h
    exact ⟨ts, rfl, .inr h⟩

/-- No token starts as the word for an infinity or for no number does. -/
theorem not_reads_word {c : Char} (h : c = 'N' ∨ c = 'i') (cs : List Char) (ts : List Token) :
    ¬Reads (c :: cs) ts := by
  intro hreads
  have hlex := hreads.lex? (by rcases h with rfl | rfl <;> rfl)
  rcases h with rfl | rfl <;> cases hlex

/-! ### Strings that are cut short -/

theorem lexString?_of_properPrefix_escapeChar {c : Char} {cs : List Char} (h : ProperPrefix cs (escapeChar c))
    (acc : List Char) : lexString? acc cs = none := by
  have hpair : ∀ {d}, ProperPrefix cs ['\\', d] → lexString? acc cs = none := by
    intro d h
    obtain ⟨n, hn, rfl⟩ := h.exists_take
    match n, hn with
    | 0, _ => rfl
    | 1, _ => rfl
  unfold escapeChar at h
  split at h
  · exact hpair h
  split at h
  · exact hpair h
  split at h
  · iterate 5
      split at h
      · exact hpair h
    -- a character that is written by number
    obtain ⟨n, hn, rfl⟩ := h.exists_take
    match n, hn with
    | 0, _ => rfl
    | 1, _ => rfl
    | 2, _ => rfl
    | 3, _ => rfl
    | 4, _ => rfl
    | 5, _ => rfl
  · rw [ProperPrefix.eq_nil h]
    rfl

/-- A string that does not end is none. -/
theorem lexString?_of_properPrefix {s cs : List Char} (h : ProperPrefix cs (s.flatMap escapeChar ++ ['"']))
    (acc : List Char) : lexString? acc cs = none := by
  induction s generalizing cs acc with
  | nil =>
    rw [ProperPrefix.eq_nil h]
    rfl
  | cons c s ih =>
    rw [List.flatMap_cons, List.append_assoc] at h
    rcases h.of_append with hc | ⟨cs', rfl, hs⟩
    · exact lexString?_of_properPrefix_escapeChar hc acc
    · rw [lexString?_escapeChar]
      exact ih hs _

/-! ### Tokens that are cut short -/

/-- Only numbers start with a character of numbers. -/
theorem exists_cons_text (t : Token) (ht : ∀ n, t ≠ .num n) :
    ∃ c cs, t.text = c :: cs ∧ isNumberChar c = false := by
  cases t with
  | num n => exact absurd rfl (ht n)
  | bool b => cases b <;> exact ⟨_, _, rfl, rfl⟩
  | _ => exact ⟨_, _, rfl, rfl⟩

/-- What is read where a token stands adds to the level what the token does. -/
theorem Reads.of_text {t : Token} {cs : List Char} {ts : List Token} (h : Reads (t.text ++ cs) ts) :
    ∃ ts', level ts = t.rise + level ts' ∧ Reads cs ts' := by
  by_cases hnumber : ∃ n, t = .num n
  · obtain ⟨n, rfl⟩ := hnumber
    obtain ⟨digits, word, htext, hdigits, hword⟩ := JsonNumber.exists_text_eq n
    rw [Token.text, htext, List.append_assoc] at h
    obtain ⟨ts', hlevel, hrest⟩ := h.of_numeric hdigits
    cases word with
    | nil => exact ⟨ts', hlevel.trans (Int.zero_add _).symm, hrest⟩
    | cons c word => exact absurd hrest (not_reads_word (hword c rfl) _ _)
  · obtain ⟨c, text, htext, hc⟩ := exists_cons_text t fun n hn => hnumber ⟨n, hn⟩
    have hlex : (t :: ·) <$> Json.lex? cs = some ts := by
      have hread : Json.lex? (t.text ++ cs) = some ts := by
        rw [htext] at h ⊢
        exact h.lex? hc
      rw [← hread]
      cases t with
      | openArray | closeArray | openObject | closeObject | comma | colon => rfl
      | null => rfl
      | bool b => cases b <;> rfl
      | num n => exact absurd ⟨n, rfl⟩ hnumber
      | str s => exact (lex?_quote s cs).symm
    obtain ⟨ts', hts', rfl⟩ := Option.map_eq_some_iff.1 hlex
    exact ⟨ts', level_cons t ts', .inl hts'⟩

/-- A literal that is cut short is none. -/
private theorem eq_nil_of_literal {t : Token} (ht : t = .null ∨ ∃ b, t = .bool b) {cs : List Char}
    (hcs : ProperPrefix cs t.text) {ts : List Token} (h : Reads cs ts) : cs = [] := by
  have hall : ∀ n < t.text.length, t.text.take n = [] ∨
      (lex? (t.text.take n) = none ∧ lex? ((t.text.take n).dropWhile isNumberChar) = none) := by
    rcases ht with rfl | ⟨_ | _, rfl⟩ <;> decide
  obtain ⟨n, hn, rfl⟩ := hcs.exists_take
  rcases hall n hn with hempty | ⟨hlex, hdrop⟩
  · exact hempty
  · rw [Reads, hlex, hdrop] at h
    rcases h with h | h <;> cases h

/-- What is read from a token that is cut short adds nothing to the level. -/
theorem Reads.of_properPrefix_text {t : Token} {cs : List Char} (hcs : ProperPrefix cs t.text) {ts : List Token}
    (h : Reads cs ts) : level ts = 0 := by
  have hempty : cs = [] → level ts = 0 := by
    rintro rfl
    rw [reads_nil h, level_nil]
  cases t with
  | openArray | closeArray | openObject | closeObject | comma | colon => exact hempty (ProperPrefix.eq_nil hcs)
  | null => exact hempty (eq_nil_of_literal (.inl rfl) hcs h)
  | bool b => exact hempty (eq_nil_of_literal (.inr ⟨b, rfl⟩) hcs h)
  | str s =>
    rcases hcs.of_cons with hcs | ⟨cs', rfl, hcs'⟩
    · exact hempty hcs
    · have hlex : lexString? [] cs' = some ts := h.lex? rfl
      rw [lexString?_of_properPrefix hcs'] at hlex
      cases hlex
  | num n =>
    obtain ⟨digits, word, htext, hdigits, hword⟩ := JsonNumber.exists_text_eq n
    rw [Token.text, htext] at hcs
    have hinside : ∀ {ds}, ds <+: digits → JsonNumber.Numeric ds := by
      rintro ds ⟨more, rfl⟩
      refine ⟨fun c hc => hdigits.head c ?_, fun c hc => hdigits.chars c (List.mem_append_left _ hc)⟩
      cases ds with
      | nil => cases hc
      | cons d ds => exact hc
    rcases hcs.of_append with hcs | ⟨cs', rfl, hcs'⟩
    · rw [← List.append_nil cs] at h
      obtain ⟨ts', hlevel, hrest⟩ := h.of_numeric (hinside hcs.1)
      rw [hlevel, reads_nil hrest, level_nil]
    · obtain ⟨ts', hlevel, hrest⟩ := h.of_numeric hdigits
      cases cs' with
      | nil => rw [hlevel, reads_nil hrest, level_nil]
      | cons c cs' =>
        have hhead : c ∈ word.head? := by
          obtain ⟨more, rfl⟩ := hcs'.1
          rfl
        exact absurd hrest (not_reads_word (hword c hhead) _ _)

/-- What is read from a text that is cut short has the level of a proper prefix of its tokens. -/
theorem Reads.exists_level {ts : List Token} {cs : List Char} (hcs : ProperPrefix cs (ts.flatMap Token.text))
    {us : List Token} (h : Reads cs us) : ∃ vs, ProperPrefix vs ts ∧ level us = level vs := by
  induction ts generalizing cs us with
  | nil => exact absurd hcs (not_properPrefix_nil cs)
  | cons t ts ih =>
    rw [List.flatMap_cons] at hcs
    rcases hcs.of_append with hcs | ⟨cs', rfl, hcs'⟩
    · exact ⟨[], properPrefix_nil_cons t ts, h.of_properPrefix_text hcs⟩
    · obtain ⟨us', hlevel, hrest⟩ := h.of_text
      obtain ⟨vs, hvs, heq⟩ := ih hcs' hrest
      refine ⟨t :: vs, hvs.append [t], ?_⟩
      rw [hlevel, heq, level_cons]

/-! ### Objects that are cut short -/

/-- Nothing is read from the text of an object that is cut short. -/
theorem parseChars?_of_properPrefix {members : List (String × Json)} {cs : List Char}
    (hcs : ProperPrefix cs (obj members).print) : parseChars? cs = none := by
  rw [Option.eq_none_iff_forall_ne_some]
  intro v hparse
  obtain ⟨us, hlex, hvalue⟩ := Option.bind_eq_some_iff.1 hparse
  obtain ⟨hne, hzero⟩ := level_of_ofTokens? hvalue
  obtain ⟨ts, hts, hbalanced⟩ := exists_balanced_memberTokens members
  rw [print, tokens, hts, List.flatMap_cons] at hcs
  rcases hcs.of_cons with rfl | ⟨cs', rfl, hcs'⟩
  · cases hlex
    exact hne rfl
  · -- behind the opening brace the level stays above zero
    have hbrace : (Token.openObject :: ·) <$> lex? cs' = some us := hlex
    obtain ⟨us', hus', rfl⟩ := Option.map_eq_some_iff.1 hbrace
    obtain ⟨vs, hvs, hlevel⟩ := Reads.exists_level hcs' (.inl hus')
    have hpos := hbalanced.level_pos (t := .openObject) rfl hvs
    rw [level_cons, ← hlevel, ← level_cons, hzero] at hpos
    exact absurd hpos (Int.lt_irrefl 0)

theorem parseBytes?_of_properPrefix {members : List (String × Json)} {bs : Bytes}
    (hbs : ProperPrefix bs (Utf8.encodeChars (obj members).print)) : parseBytes? bs = none := by
  rw [Option.eq_none_iff_forall_ne_some]
  intro v hparse
  obtain ⟨cs, hcs, hchars⟩ := Option.bind_eq_some_iff.1 hparse
  rw [parseChars?_of_properPrefix (Utf8.properPrefix_of_decodeChars? hbs hcs)] at hchars
  cases hchars

end Switchboard.Json
