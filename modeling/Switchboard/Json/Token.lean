import Switchboard.Json.Number

/-!
# JSON tokens

The words of a JSON text: brackets, separators, literals, numbers and strings, with blanks between them. Blanks are
space, tab, line feed and carriage return. In a string the control characters below U+0020 must be escaped, and an
escaped surrogate counts only together with its partner.
-/

namespace Switchboard.Json

inductive Token
  | openArray
  | closeArray
  | openObject
  | closeObject
  | comma
  | colon
  | null
  | bool (b : Bool)
  | num (n : JsonNumber)
  | str (s : List Char)
deriving DecidableEq, Inhabited

/-! ### Writing -/

/-- A hexadecimal digit in lower case. -/
def hexDigit (n : Nat) : Char := Nat.digitChar n

/-- A character inside a string: quote, backslash and the control characters are escaped. -/
def escapeChar (c : Char) : List Char :=
  if c = '"' then ['\\', '"']
  else if c = '\\' then ['\\', '\\']
  else if c.toNat < 0x20 then
    if c.toNat = 0x08 then ['\\', 'b']
    else if c = '\t' then ['\\', 't']
    else if c = '\n' then ['\\', 'n']
    else if c.toNat = 0x0C then ['\\', 'f']
    else if c = '\r' then ['\\', 'r']
    else ['\\', 'u', '0', '0', hexDigit (c.toNat / 16), hexDigit (c.toNat % 16)]
  else [c]

/-- A string with its quotes. -/
def quote (s : List Char) : List Char := '"' :: s.flatMap escapeChar ++ ['"']

def Token.text : Token → List Char
  | .openArray => ['[']
  | .closeArray => [']']
  | .openObject => ['\x7b']
  | .closeObject => ['\x7d']
  | .comma => [',']
  | .colon => [':']
  | .null => ['n', 'u', 'l', 'l']
  | .bool true => ['t', 'r', 'u', 'e']
  | .bool false => ['f', 'a', 'l', 's', 'e']
  | .num n => n.text
  | .str s => quote s

/-! ### Reading -/

def isBlank (c : Char) : Bool := c = ' ' || c = '\t' || c = '\n' || c = '\r'

/-- The characters a number text is made of. -/
def isNumberChar (c : Char) : Bool :=
  c.isDigit || c = '-' || c = '+' || c = '.' || c = 'e' || c = 'E'

def hexValue? (c : Char) : Option Nat :=
  if '0' ≤ c ∧ c ≤ '9' then some (c.toNat - 48)
  else if 'a' ≤ c ∧ c ≤ 'f' then some (c.toNat - 87)
  else if 'A' ≤ c ∧ c ≤ 'F' then some (c.toNat - 55)
  else none

/-- The value of four hexadecimal digits. -/
def unit? (a b c d : Char) : Option Nat := do
  let w ← hexValue? a
  let x ← hexValue? b
  let y ← hexValue? c
  let z ← hexValue? d
  some (w * 4096 + x * 256 + y * 16 + z)

/-- The character of a two-character escape. -/
def unescape? (c : Char) : Option Char :=
  if c = '"' ∨ c = '\\' ∨ c = '/' then some c
  else if c = 'b' then some '\x08'
  else if c = 'f' then some '\x0c'
  else if c = 'n' then some '\n'
  else if c = 'r' then some '\r'
  else if c = 't' then some '\t'
  else none

/-- The bracket or separator that a character stands for. -/
def punctuation? (c : Char) : Option Token :=
  if c = '[' then some .openArray
  else if c = ']' then some .closeArray
  else if c = '\x7b' then some .openObject
  else if c = '\x7d' then some .closeObject
  else if c = ',' then some .comma
  else if c = ':' then some .colon
  else none

mutual
/-- The tokens of a text. -/
def lex? : List Char → Option (List Token)
  | [] => some []
  | 'n' :: 'u' :: 'l' :: 'l' :: r => (Token.null :: ·) <$> lex? r
  | 't' :: 'r' :: 'u' :: 'e' :: r => (Token.bool true :: ·) <$> lex? r
  | 'f' :: 'a' :: 'l' :: 's' :: 'e' :: r => (Token.bool false :: ·) <$> lex? r
  | c :: r =>
    if isBlank c then lex? r
    else if c = '"' then lexString? [] r
    else if c = '-' ∨ c.isDigit then lexNumber? [c] r
    else match punctuation? c with
      | some t => (t :: ·) <$> lex? r
      | none => none

/-- The tokens of a text that starts inside a string; `acc` is what was read of it, last character first. -/
def lexString? (acc : List Char) : List Char → Option (List Token)
  | [] => none
  | '"' :: r => (Token.str acc.reverse :: ·) <$> lex? r
  | '\\' :: 'u' :: a :: b :: c :: d :: r =>
    match unit? a b c d with
    | none => none
    | some n =>
      if n < 0xD800 ∨ 0xE000 ≤ n then lexString? (Char.ofNat n :: acc) r
      else if 0xDC00 ≤ n then none
      else match r with
        | '\\' :: 'u' :: a' :: b' :: c' :: d' :: r =>
          match unit? a' b' c' d' with
          | none => none
          | some n' =>
            if 0xDC00 ≤ n' ∧ n' < 0xE000 then
              lexString? (Char.ofNat (0x10000 + (n - 0xD800) * 1024 + (n' - 0xDC00)) :: acc) r
            else none
        | _ => none
  | '\\' :: c :: r =>
    match unescape? c with
    | some c => lexString? (c :: acc) r
    | none => none
  | c :: r => if c.toNat < 0x20 ∨ c = '\\' then none else lexString? (c :: acc) r

/-- The tokens of a text that starts inside a number; `acc` is what was read of it, last character first. -/
def lexNumber? (acc : List Char) : List Char → Option (List Token)
  | [] => (fun n => [Token.num n]) <$> JsonNumber.ofText? acc.reverse
  | c :: r =>
    if isNumberChar c then lexNumber? (c :: acc) r
    else match JsonNumber.ofText? acc.reverse with
      | none => none
      | some n => (Token.num n :: ·) <$>
        (if isBlank c then lex? r
        else match punctuation? c with
          | some t => (t :: ·) <$> lex? r
          | none => none)
end

end Switchboard.Json
