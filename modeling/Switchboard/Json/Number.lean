import Switchboard.Decimal.Layout
import Switchboard.Json.Basic

/-!
# JSON numbers as text

A text without fraction and exponent is an integer if it fits 64 bits, and a double otherwise; `-0` is the double
negative zero. A double is read from as many leading digits as fit an unsigned word of 64 bits, and scaled by a
power of ten that is itself a double. A number too large for a double is refused.
-/

namespace Switchboard.JsonNumber

/-- Doubles are written with a fraction digit from 0.00001 up to sixteen digits, with a signed exponent beyond;
of two equally near decimals the even one is written. -/
def layout : Decimal.Layout := ⟨some (-5, 15), true, .toEven⟩

/-- The text of a number. -/
def text : JsonNumber → List Char
  | .int n => Decimal.intText n
  | .float x => Decimal.text layout x

/-- The parts of a number text: sign, whole digits, fraction digits, exponent. -/
structure Parts where
  negative : Bool
  whole : List Char
  fraction : Option (List Char)
  exponent : Option (Bool × List Char)

def isDigits (ds : List Char) : Bool := !ds.isEmpty && ds.all Char.isDigit

/-- Whole digits have no leading zero. -/
def isWhole : List Char → Bool
  | ['0'] => true
  | '0' :: _ => false
  | ds => isDigits ds

/-- Whether there is a minus sign in front, and what follows. -/
def splitSign : List Char → Bool × List Char
  | '-' :: r => (true, r)
  | r => (false, r)

/-- The digits behind a point, if there is one, and what follows. -/
def splitFraction : List Char → Option (List Char) × List Char
  | '.' :: r => (some (r.takeWhile Char.isDigit), r.dropWhile Char.isDigit)
  | r => (none, r)

/-- The exponent that is the rest of a number text: whether it is negative, and its digits. There need not be one, but
nothing else may follow. -/
def exponent? : List Char → Option (Option (Bool × List Char))
  | [] => some none
  | c :: r =>
    if c = 'e' ∨ c = 'E' then
      match r with
      | '-' :: ds => some (some (true, ds))
      | '+' :: ds => some (some (false, ds))
      | ds => some (some (false, ds))
    else none

/-- Splits a number text at its point and its exponent mark. -/
def Parts.of? (cs : List Char) : Option Parts :=
  let (negative, cs) := splitSign cs
  let whole := cs.takeWhile Char.isDigit
  let (fraction, cs) := splitFraction (cs.dropWhile Char.isDigit)
  match exponent? cs with
  | none => none
  | some exponent =>
    if isWhole whole && fraction.all isDigits && exponent.all (isDigits ·.2) then
      some ⟨negative, whole, fraction, exponent⟩
    else none

/-- The value of a digit. -/
def digitValue (c : Char) : Nat := c.toNat - '0'.toNat

def natOfDigits (ds : List Char) : Nat := ds.foldl (fun n c => n * 10 + digitValue c) 0

/-- As many of the digits as fit a word of 64 bits together with what is already there, and the digits left over. -/
def fitWord (n : Nat) : List Char → Nat × List Char
  | [] => (n, [])
  | c :: r =>
    let n' := n * 10 + digitValue c
    if n' < UInt64.size then fitWord n' r else (n, c :: r)

/-- The double nearest to a power of ten. -/
def powerOfTen (k : Nat) : Binary64 := .ofRatio false (Nat.pow 10 k) 1

/-- Divides by powers of ten, at most `10 ^ 308` at a time. -/
def scaleDown (x : Binary64) : (fuel k : Nat) → Binary64
  | 0, _ => x
  | fuel + 1, k =>
    if k ≤ 308 then x.divMagnitude (powerOfTen k)
    else if x.isZero then x
    else scaleDown (x.divMagnitude (powerOfTen 308)) fuel (k - 308)

/-- `n * 10 ^ k` as a double, rounded once for `n`, once for the power and once for the result. -/
def scale? (n : Nat) (k : Int) : Option Binary64 :=
  let x := Binary64.ofInt n
  if k < 0 then some (scaleDown x 5 (-k).toNat)
  else if x.isZero then some x
  else if 308 < k then none
  else
    let y := x.mulMagnitude (powerOfTen k.toNat)
    if y.isFinite then some y else none

/-- The double of a number text. -/
def Parts.float? (p : Parts) : Option Binary64 :=
  let (n, left) := fitWord 0 p.whole
  let fraction := p.fraction.getD []
  let (n', left') := fitWord n fraction
  let written : Nat := match p.exponent with
    | some (_, ds) => natOfDigits ds
    | none => 0
  let e : Int := if (p.exponent.map (·.1)).getD false then -written else written
  let k : Int := (left.length : Int) - ((fraction.length : Int) - left'.length) + e
  (scale? n' k).map fun x => if p.negative then x.neg else x

/-- The number of a text, if it is one. -/
def ofText? (cs : List Char) : Option JsonNumber := do
  let p ← Parts.of? cs
  let n := natOfDigits p.whole
  if p.fraction.isNone ∧ p.exponent.isNone ∧ !(p.negative && n == 0) ∧
      n < (if p.negative then (1 <<< 63) + 1 else UInt64.size) then
    some (.int (if p.negative then -n else n))
  else .float <$> p.float?

end Switchboard.JsonNumber
