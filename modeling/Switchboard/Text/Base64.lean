import Switchboard.Text.Utf8

/-!
# Base64

Bytes as text over the standard alphabet with `+` and `/`. Writing pads the last group with `=`. Reading accepts
exactly what writing produces: padding must be there and the unused bits before it must be zero.
-/

namespace Switchboard.Base64

/-- The character of a six-bit value. -/
def symbol (n : Nat) : Char :=
  if n < 26 then Char.ofNat (n + 65)
  else if n < 52 then Char.ofNat (n - 26 + 97)
  else if n < 62 then Char.ofNat (n - 52 + 48)
  else if n = 62 then '+'
  else '/'

/-- The six-bit value of a character of the alphabet. -/
def value? (c : Char) : Option Nat :=
  if 'A' ≤ c ∧ c ≤ 'Z' then some (c.toNat - 65)
  else if 'a' ≤ c ∧ c ≤ 'z' then some (c.toNat - 97 + 26)
  else if '0' ≤ c ∧ c ≤ '9' then some (c.toNat - 48 + 52)
  else if c = '+' then some 62
  else if c = '/' then some 63
  else none

/-- The base64 text of a byte sequence, three bytes to four characters. -/
def encodeChars : Bytes → List Char
  | [] => []
  | [a] =>
    let n := a.toNat
    [symbol (n / 4), symbol (n % 4 * 16), '=', '=']
  | [a, b] =>
    let n := a.toNat * 256 + b.toNat
    [symbol (n / 1024), symbol (n / 16 % 64), symbol (n % 16 * 4), '=']
  | a :: b :: c :: r =>
    let n := a.toNat * 65536 + b.toNat * 256 + c.toNat
    symbol (n / 262144) :: symbol (n / 4096 % 64) :: symbol (n / 64 % 64) :: symbol (n % 64) :: encodeChars r

/-- The base64 text of a byte sequence. -/
def encode (bs : Bytes) : String := String.ofList (encodeChars bs)

/-- The bytes of a base64 text, if it is one. -/
def decodeChars? : List Char → Option Bytes
  | [] => some []
  | [p, q, '=', '='] => do
    let x ← value? p
    let y ← value? q
    if y % 16 = 0 then some [UInt8.ofNat (x * 4 + y / 16)] else none
  | [p, q, s, '='] => do
    let x ← value? p
    let y ← value? q
    let z ← value? s
    if z % 4 = 0 then
      let n := x * 1024 + y * 16 + z / 4
      some [UInt8.ofNat (n / 256), UInt8.ofNat (n % 256)]
    else none
  | p :: q :: s :: t :: r => do
    let x ← value? p
    let y ← value? q
    let z ← value? s
    let w ← value? t
    let n := x * 262144 + y * 4096 + z * 64 + w
    let rest ← decodeChars? r
    some (UInt8.ofNat (n / 65536) :: UInt8.ofNat (n / 256 % 256) :: UInt8.ofNat (n % 256) :: rest)
  | _ => none

/-- The bytes of a base64 text, if it is one. -/
def decode? (s : String) : Option Bytes := decodeChars? s.toList

end Switchboard.Base64
