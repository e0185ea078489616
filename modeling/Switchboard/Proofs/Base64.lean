import Switchboard.Text.Base64

/-!
# Base64 read back

Three bytes are four values of six bits each and the other way round. What is left over at the end is told by the
padding (`Base64.decode?_encode`).
-/

namespace Switchboard.Base64

theorem value?_symbol {n : Nat} (h : n < 64) : value? (symbol n) = some n := by
  revert n
  decide

theorem symbol_ne_pad {n : Nat} (h : n < 64) : symbol n ≠ '=' := by
  revert n
  decide

private theorem ofNat_eq {n : Nat} {b : UInt8} (h : n = b.toNat) : UInt8.ofNat n = b := by
  rw [h, UInt8.ofNat_toNat]

/-- Four characters of the alphabet are three bytes. -/
theorem decodeChars?_symbols {x y z w : Nat} {a b c : UInt8} (hx : x < 64) (hy : y < 64) (hz : z < 64) (hw : w < 64)
    (h : x * 262144 + y * 4096 + z * 64 + w = a.toNat * 65536 + b.toNat * 256 + c.toNat) (r : List Char) :
    decodeChars? (symbol x :: symbol y :: symbol z :: symbol w :: r) =
      (decodeChars? r).map fun rest => a :: b :: c :: rest := by
  have hpad := symbol_ne_pad hw
  have ha := a.toNat_lt
  have hb := b.toNat_lt
  have hc := c.toNat_lt
  rw [decodeChars?]
  · rw [value?_symbol hx, value?_symbol hy, value?_symbol hz, value?_symbol hw]
    simp only [Option.bind_eq_bind, Option.bind_some, h]
    rw [ofNat_eq (by omega : _ = a.toNat), ofNat_eq (by omega : _ = b.toNat), ofNat_eq (by omega : _ = c.toNat)]
    cases decodeChars? r <;> rfl
  · exact fun _ h => absurd h hpad
  · exact fun h => absurd h hpad

/-- Three characters of the alphabet and a pad are two bytes, if no bits are left over. -/
theorem decodeChars?_pad {x y z : Nat} {a b : UInt8} (hx : x < 64) (hy : y < 64) (hz : z < 64) (hleft : z % 4 = 0)
    (h : x * 1024 + y * 16 + z / 4 = a.toNat * 256 + b.toNat) :
    decodeChars? [symbol x, symbol y, symbol z, '='] = some [a, b] := by
  have hpad := symbol_ne_pad hz
  have ha := a.toNat_lt
  have hb := b.toNat_lt
  rw [decodeChars?]
  · rw [value?_symbol hx, value?_symbol hy, value?_symbol hz]
    simp only [Option.bind_eq_bind, Option.bind_some, h, hleft, if_true]
    rw [ofNat_eq (by omega : _ = a.toNat), ofNat_eq (by omega : _ = b.toNat)]
  · exact hpad

/-- Two characters of the alphabet and two pads are one byte, if no bits are left over. -/
theorem decodeChars?_pads {x y : Nat} {a : UInt8} (hx : x < 64) (hy : y < 64) (hleft : y % 16 = 0)
    (h : x * 4 + y / 16 = a.toNat) : decodeChars? [symbol x, symbol y, '=', '='] = some [a] := by
  rw [decodeChars?, value?_symbol hx, value?_symbol hy]
  simp only [Option.bind_eq_bind, Option.bind_some, hleft, if_true]
  rw [ofNat_eq h]

theorem decodeChars?_encodeChars (bs : Bytes) : decodeChars? (encodeChars bs) = some bs := by
  induction bs using encodeChars.induct with
  | case1 => rfl
  | case2 a =>
    have ha := a.toNat_lt
    rw [encodeChars]
    exact decodeChars?_pads (by omega) (by omega) (by omega) (by omega)
  | case3 a b =>
    have ha := a.toNat_lt
    have hb := b.toNat_lt
    rw [encodeChars]
    exact decodeChars?_pad (by omega) (by omega) (by omega) (by omega) (by omega)
  | case4 a b c r ih =>
    have ha := a.toNat_lt
    have hb := b.toNat_lt
    have hc := c.toNat_lt
    rw [encodeChars]
    refine (decodeChars?_symbols (a := a) (b := b) (c := c) (by omega) (by omega) (by omega) (by omega) (by omega)
      _).trans ?_
    rw [ih]
    rfl

/-- Bytes read back from their base64 text. -/
theorem decode?_encode (bs : Bytes) : decode? (encode bs) = some bs := by
  rw [decode?, encode, String.toList_ofList, decodeChars?_encodeChars]

end Switchboard.Base64
