import Switchboard.Decimal.Shortest

/-!
# Number texts

How the digits of a number are laid out. The digits are always the shortest that read back; a `Layout` says when
they are written positionally, how an exponent looks, and whether a whole number keeps a fraction digit.
-/

namespace Switchboard.Decimal

/-- The choices of one number format. -/
structure Layout where
  /-- Numbers whose first digit has an exponent in this range are written without one; `none` means all. -/
  positional : Option (Int × Int)
  /-- Whether a whole number ends in a point and a zero. -/
  fractionDigit : Bool
  tie : Tie
deriving Repr

/-- The decimal digits of a natural number. -/
def natDigits (n : Nat) : List Char := Nat.toDigits 10 n

/-- The text of an integer. -/
def intText (n : Int) : List Char :=
  if n < 0 then '-' :: natDigits n.natAbs else natDigits n.natAbs

private def zeros (n : Nat) : List Char := List.replicate n '0'

/-- Digits whose first one has exponent `e`, without an exponent. -/
def positionalText (l : Layout) (ds : List Char) (e : Int) : List Char :=
  if e < 0 then '0' :: '.' :: zeros ((-e).toNat - 1) ++ ds
  else
    let whole := e.toNat + 1
    if ds.length ≤ whole then
      ds ++ zeros (whole - ds.length) ++ (if l.fractionDigit then ['.', '0'] else [])
    else ds.take whole ++ '.' :: ds.drop whole

/-- Digits whose first one has exponent `e`, with a signed exponent behind them. -/
def scientificText (ds : List Char) (e : Int) : List Char :=
  let mark := 'e' :: (if e < 0 then '-' else '+') :: natDigits e.natAbs
  match ds with
  | d :: rest@(_ :: _) => d :: '.' :: rest ++ mark
  | ds => ds ++ mark

/-- The text of the magnitude of a finite number. -/
def magnitudeText (l : Layout) (x : Binary64) : List Char :=
  if x.isZero then if l.fractionDigit then ['0', '.', '0'] else ['0']
  else
    let d := shortest l.tie x
    let ds := natDigits d.digits
    let e := d.scale + ds.length - 1
    match l.positional with
    | none => positionalText l ds e
    | some (least, most) => if least ≤ e ∧ e ≤ most then positionalText l ds e else scientificText ds e

/-- The text of a number. -/
def text (l : Layout) (x : Binary64) : List Char :=
  if x.isNaN then ['N', 'a', 'N']
  else
    let body := if x.isFinite then magnitudeText l x else ['i', 'n', 'f']
    if x.isNegative then '-' :: body else body

/-- Plain notation: never an exponent, whole numbers without a point, a tie goes up. -/
def plain : Layout := ⟨none, false, .up⟩

end Switchboard.Decimal
