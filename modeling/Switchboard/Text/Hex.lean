import Switchboard.Text.Utf8

/-!
# Hexadecimal texts

Bytes as pairs of lower-case hexadecimal digits. Reading accepts exactly what writing produces.
-/

namespace Switchboard.Hex

def digits : List Char := ['0', '1', '2', '3', '4', '5', '6', '7', '8', '9', 'a', 'b', 'c', 'd', 'e', 'f']

/-- The digit of a value below sixteen. -/
def digit (n : Nat) : Char := digits.getD n '0'

/-- The value of a digit. -/
def value? (c : Char) : Option Nat := digits.idxOf? c

def encodeByte (b : UInt8) : List Char := [digit (b.toNat / 16), digit (b.toNat % 16)]

/-- The hexadecimal text of a byte sequence. -/
def encode (bs : Bytes) : String := String.ofList (bs.flatMap encodeByte)

def decodeChars? : List Char → Option Bytes
  | [] => some []
  | [_] => none
  | a :: b :: r => do
    let x ← value? a
    let y ← value? b
    (UInt8.ofNat (x * 16 + y) :: ·) <$> decodeChars? r

/-- The bytes of a hexadecimal text, if it is one. -/
def decode? (s : String) : Option Bytes := decodeChars? s.toList

end Switchboard.Hex
