/-!
# UTF-8

Texts as lists of bytes. `encode` writes each character in one to four bytes; `decode?` accepts exactly the
well-formed sequences: no overlong form, no surrogate, nothing above U+10FFFF.
-/

namespace Switchboard

/-- Raw bytes, as messages carry them. -/
abbrev Bytes := List UInt8

namespace Utf8

/-- The bytes of one character. -/
def encodeChar (c : Char) : Bytes :=
  let n := c.toNat
  if n < 0x80 then [UInt8.ofNat n]
  else if n < 0x800 then [UInt8.ofNat (0xC0 + n / 64), UInt8.ofNat (0x80 + n % 64)]
  else if n < 0x10000 then
    [UInt8.ofNat (0xE0 + n / 4096), UInt8.ofNat (0x80 + n / 64 % 64), UInt8.ofNat (0x80 + n % 64)]
  else
    [UInt8.ofNat (0xF0 + n / 262144), UInt8.ofNat (0x80 + n / 4096 % 64),
      UInt8.ofNat (0x80 + n / 64 % 64), UInt8.ofNat (0x80 + n % 64)]

/-- The bytes of a list of characters. -/
def encodeChars (cs : List Char) : Bytes := cs.flatMap encodeChar

/-- The bytes of a text. -/
def encode (s : String) : Bytes := encodeChars s.toList

/-- The six value bits of a continuation byte. -/
def continuation? (b : UInt8) : Option Nat :=
  if 0x80 ≤ b.toNat ∧ b.toNat < 0xC0 then some (b.toNat - 0x80) else none

/-- The character of a code point, if it is a scalar value not below `least`. -/
def scalar? (least n : Nat) : Option Char :=
  if least ≤ n ∧ n.isValidChar then some (Char.ofNat n) else none

/-- The characters of a byte sequence, if it is well formed. -/
def decodeChars? : Bytes → Option (List Char)
  | [] => some []
  | a :: r =>
    if a.toNat < 0x80 then (Char.ofNat a.toNat :: ·) <$> decodeChars? r
    else if a.toNat < 0xC0 then none
    else if a.toNat < 0xE0 then
      match r with
      | b :: r => do
        let x ← continuation? b
        let c ← scalar? 0x80 ((a.toNat - 0xC0) * 64 + x)
        (c :: ·) <$> decodeChars? r
      | [] => none
    else if a.toNat < 0xF0 then
      match r with
      | b :: b' :: r => do
        let x ← continuation? b
        let y ← continuation? b'
        let c ← scalar? 0x800 ((a.toNat - 0xE0) * 4096 + x * 64 + y)
        (c :: ·) <$> decodeChars? r
      | _ => none
    else if a.toNat < 0xF8 then
      match r with
      | b :: b' :: b'' :: r => do
        let x ← continuation? b
        let y ← continuation? b'
        let z ← continuation? b''
        let c ← scalar? 0x10000 ((a.toNat - 0xF0) * 262144 + x * 4096 + y * 64 + z)
        (c :: ·) <$> decodeChars? r
      | _ => none
    else none

/-- The text of a byte sequence, if it is well formed. -/
def decode? (bs : Bytes) : Option String := String.ofList <$> decodeChars? bs

end Utf8

end Switchboard
