import Switchboard.Proofs.Lists
import Switchboard.Text.Utf8

/-!
# UTF-8 read back

Every character has one to four bytes, and the first of them tells how many. So a text reads back from its bytes
(`Utf8.decode?_encode`). What is read from the beginning of a text's bytes is the beginning of the text
(`Utf8.properPrefix_of_decodeChars?`).
-/

namespace Switchboard.Utf8

private theorem continuation?_ofNat {x : Nat} (h : x < 64) : continuation? (UInt8.ofNat (0x80 + x)) = some x := by
  have hbyte : (UInt8.ofNat (0x80 + x)).toNat = 0x80 + x := by
    rw [UInt8.toNat_ofNat']
    omega
  unfold continuation?
  rw [hbyte, if_pos (by omega), Nat.add_sub_cancel_left]

private theorem scalar?_of_eq {n : Nat} {c : Char} (hn : n = c.toNat) {least : Nat} (h : least ≤ c.toNat) :
    scalar? least n = some c := by
  subst hn
  unfold scalar?
  rw [if_pos ⟨h, c.valid⟩, Char.ofNat_toNat]

/-- The bytes of a character are read as this character. -/
theorem decodeChars?_encodeChar (c : Char) (bs : Bytes) :
    decodeChars? (encodeChar c ++ bs) = (c :: ·) <$> decodeChars? bs := by
  have hmax : c.toNat < 0x110000 := by
    rcases c.valid with h | h
    · exact Nat.lt_trans h (by decide)
    · exact h.2
  have hbyte : ∀ {n : Nat}, n < 256 → (UInt8.ofNat n).toNat = n := fun {n} h => by
    rw [UInt8.toNat_ofNat']
    omega
  unfold encodeChar
  simp only
  split
  · rename_i h
    rw [List.cons_append, List.nil_append, decodeChars?.eq_def]
    simp only
    rw [hbyte (by omega), if_pos h, Char.ofNat_toNat]
  · split
    · rename_i h
      have hvalue : (0xC0 + c.toNat / 64 - 0xC0) * 64 + c.toNat % 64 = c.toNat := by omega
      simp only [List.cons_append, List.nil_append, decodeChars?]
      rw [hbyte (by omega), if_neg (by omega), if_neg (by omega), if_pos (by omega),
        continuation?_ofNat (by omega)]
      simp only [Option.bind_eq_bind, Option.bind_some]
      rw [scalar?_of_eq hvalue (by omega), Option.bind_some]
    · split
      · rename_i h
        have hvalue : (0xE0 + c.toNat / 4096 - 0xE0) * 4096 + c.toNat / 64 % 64 * 64 + c.toNat % 64 = c.toNat := by
          omega
        simp only [List.cons_append, List.nil_append, decodeChars?]
        rw [hbyte (by omega), if_neg (by omega), if_neg (by omega), if_neg (by omega), if_pos (by omega),
          continuation?_ofNat (by omega), continuation?_ofNat (by omega)]
        simp only [Option.bind_eq_bind, Option.bind_some]
        rw [scalar?_of_eq hvalue (by omega), Option.bind_some]
      · have hvalue : (0xF0 + c.toNat / 262144 - 0xF0) * 262144 + c.toNat / 4096 % 64 * 4096 +
            c.toNat / 64 % 64 * 64 + c.toNat % 64 = c.toNat := by
          omega
        simp only [List.cons_append, List.nil_append, decodeChars?]
        rw [hbyte (by omega), if_neg (by omega), if_neg (by omega), if_neg (by omega), if_neg (by omega),
          if_pos (by omega), continuation?_ofNat (by omega), continuation?_ofNat (by omega),
          continuation?_ofNat (by omega)]
        -- rewritten one by one, as the numbers are too large for the kernel to compute with
        rw [Option.bind_eq_bind, Option.bind_some, Option.bind_eq_bind, Option.bind_some, Option.bind_some,
          scalar?_of_eq hvalue (by omega), Option.bind_some]

theorem decodeChars?_encodeChars (cs : List Char) : decodeChars? (encodeChars cs) = some cs := by
  induction cs with
  | nil => rfl
  | cons c cs ih =>
    have hcons : encodeChars (c :: cs) = encodeChar c ++ encodeChars cs := List.flatMap_cons
    rw [hcons, decodeChars?_encodeChar, ih]
    rfl

/-- A text reads back from its bytes. -/
theorem decode?_encode (s : String) : decode? (encode s) = some s := by
  unfold decode? encode
  rw [decodeChars?_encodeChars]
  simp

/-! ### Cut short -/

/-- Bytes behind a well-formed sequence are read on their own. -/
theorem decodeChars?_append {bs : Bytes} {cs : List Char} (h : decodeChars? bs = some cs) (t : Bytes) :
    decodeChars? (bs ++ t) = (cs ++ ·) <$> decodeChars? t := by
  have hcons : ∀ (c : Char) (cs : List Char) (o : Option (List Char)),
      (c :: ·) <$> (cs ++ ·) <$> o = (c :: cs ++ ·) <$> o := fun c cs o => by cases o <;> rfl
  fun_induction decodeChars? bs generalizing cs with
  | case1 =>
    cases h
    exact Option.map_id'.symm
  | case2 a r hlow ih =>
    obtain ⟨cs', hcs', rfl⟩ := Option.map_eq_some_iff.1 h
    rw [List.cons_append, decodeChars?.eq_def]
    simp only [if_pos hlow, ih hcs', hcons]
  | case4 a h₁ h₂ h₃ b r ih =>
    obtain ⟨x, hx, hrest⟩ := Option.bind_eq_some_iff.1 h
    obtain ⟨c, hc, hrest⟩ := Option.bind_eq_some_iff.1 hrest
    obtain ⟨cs', hcs', rfl⟩ := Option.map_eq_some_iff.1 hrest
    simp only [List.cons_append, decodeChars?, if_neg h₁, if_neg h₂, if_pos h₃, hx, hc, ih hcs', Option.bind_eq_bind,
      Option.bind_some, hcons]
  | case6 a h₁ h₂ h₃ h₄ b b' r ih =>
    obtain ⟨x, hx, hrest⟩ := Option.bind_eq_some_iff.1 h
    obtain ⟨y, hy, hrest⟩ := Option.bind_eq_some_iff.1 hrest
    obtain ⟨c, hc, hrest⟩ := Option.bind_eq_some_iff.1 hrest
    obtain ⟨cs', hcs', rfl⟩ := Option.map_eq_some_iff.1 hrest
    simp only [List.cons_append, decodeChars?, if_neg h₁, if_neg h₂, if_neg h₃, if_pos h₄, hx, hy, hc, ih hcs',
      Option.bind_eq_bind, Option.bind_some, hcons]
  | case8 a h₁ h₂ h₃ h₄ h₅ b b' b'' r ih =>
    obtain ⟨x, hx, hrest⟩ := Option.bind_eq_some_iff.1 h
    obtain ⟨y, hy, hrest⟩ := Option.bind_eq_some_iff.1 hrest
    obtain ⟨z, hz, hrest⟩ := Option.bind_eq_some_iff.1 hrest
    obtain ⟨c, hc, hrest⟩ := Option.bind_eq_some_iff.1 hrest
    obtain ⟨cs', hcs', rfl⟩ := Option.map_eq_some_iff.1 hrest
    simp only [List.cons_append, decodeChars?, if_neg h₁, if_neg h₂, if_neg h₃, if_neg h₄, if_pos h₅]
    -- rewritten one by one here, too
    rw [hx, Option.bind_eq_bind, Option.bind_some, hy, Option.bind_eq_bind, Option.bind_some, hz, Option.bind_some,
      hc, Option.bind_some, ih hcs']
    exact hcons c cs' _
  | case3 | case5 | case7 | case9 | case10 => cases h

private theorem eq_nil_of_decodeChars? {bs : Bytes} (h : decodeChars? bs = some []) : bs = [] := by
  revert h
  fun_cases decodeChars? bs <;> simp [Option.bind_eq_some_iff]

/-- What is read from the bytes of a text that are cut short is a text that is cut short. -/
theorem properPrefix_of_decodeChars? {bs : Bytes} {cs cs' : List Char} (hbs : ProperPrefix bs (encodeChars cs))
    (h : decodeChars? bs = some cs') : ProperPrefix cs' cs := by
  obtain ⟨⟨cut, hcut⟩, hne⟩ := hbs
  have hwhole := decodeChars?_append h cut
  rw [hcut, decodeChars?_encodeChars] at hwhole
  obtain ⟨cs'', hcs'', hcs⟩ := Option.map_eq_some_iff.1 hwhole.symm
  subst hcs
  refine ⟨List.prefix_append _ _, fun heq => hne ?_⟩
  -- bytes that spell nothing are none
  have hempty : cs'' = [] := by simpa using heq
  rw [hempty] at hcs''
  rw [← hcut, eq_nil_of_decodeChars? hcs'', List.append_nil]

end Switchboard.Utf8
