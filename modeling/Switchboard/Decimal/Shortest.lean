import Switchboard.Decimal.Binary64

/-!
# Shortest decimals

The decimal with the fewest digits that reads back to a given number. For one, two, … seventeen digits the two
neighbours of the value on that decimal grid are tried; the first grid with a neighbour that still rounds to the
number wins, and of two such neighbours the nearer one. What happens when both are equally near is left to the
caller.
-/

namespace Switchboard.Decimal

/-- Which of two equally near decimals is taken. -/
inductive Tie
  | toEven
  | up
deriving DecidableEq, Repr

/-- The number `digits * 10 ^ scale`. -/
structure Scaled where
  digits : Nat
  scale : Int
deriving DecidableEq, Repr

/-- Ten to an integer power, as a quotient. -/
def pow10 (k : Int) : Nat × Nat :=
  if 0 ≤ k then (Nat.pow 10 k.toNat, 1) else (1, Nat.pow 10 (-k).toNat)

/-- The least `k ≥ start` with `den ≤ num * 10 ^ k`, searched for `fuel` steps. -/
def leastPower (num den : Nat) : (fuel start : Nat) → Nat
  | 0, k => k
  | fuel + 1, k => if den ≤ num * Nat.pow 10 k then k else leastPower num den fuel (k + 1)

/-- The decimal exponent of the first digit of a positive quotient. -/
def firstExponent (num den : Nat) : Int :=
  if den ≤ num then ((Nat.toDigits 10 (num / den)).length : Int) - 1
  else -(leastPower num den (den.log2 + 1) 1 : Nat)

/-- The reals that round to a finite number, as numerators over a common denominator. -/
structure Interval where
  low : Nat
  value : Nat
  high : Nat
  den : Nat
  closed : Bool

/-- The interval of the reals that round to a finite positive number. Below a power of two it is half as wide as
above; its ends belong to it when the significand is even. -/
def Interval.of (x : Binary64) : Interval :=
  let m := x.significand
  let below := if x.fraction = 0 ∧ 1 < x.exponentField then 1 else 2
  let q := x.exponent - 2
  let up := if 0 ≤ q then 1 <<< q.toNat else 1
  let den := if 0 ≤ q then 1 else 1 <<< (-q).toNat
  ⟨(4 * m - below) * up, 4 * m * up, (4 * m + 2) * up, den, m % 2 == 0⟩

/-- Whether `c` times the grid lies in the interval. -/
def Interval.holds (i : Interval) (grid : Nat × Nat) (c : Nat) : Bool :=
  let point := c * grid.1 * i.den
  if i.closed then i.low * grid.2 ≤ point && point ≤ i.high * grid.2
  else i.low * grid.2 < point && point < i.high * grid.2

/-- The multiple of the grid that reads back, if one of the two neighbours of the value does. -/
def Interval.onGrid? (tie : Tie) (i : Interval) (scale : Int) : Option Nat :=
  let grid := pow10 scale
  let num := i.value * grid.2
  let den := i.den * grid.1
  let c := num / den
  match i.holds grid c, i.holds grid (c + 1) with
  | false, false => none
  | true, false => some c
  | false, true => some (c + 1)
  | true, true =>
    let twice := 2 * (num % den)
    if twice < den then some c
    else if den < twice then some (c + 1)
    else match tie with
      | .toEven => some (c + c % 2)
      | .up => some (c + 1)

/-- Trailing zeros moved from the digits into the scale. -/
def Scaled.trim : (fuel : Nat) → Scaled → Scaled
  | 0, d => d
  | fuel + 1, d => if d.digits % 10 = 0 then trim fuel ⟨d.digits / 10, d.scale + 1⟩ else d

/-- The first grid, from `tried` digits on, that holds a decimal which reads back. -/
def searchGrids (tie : Tie) (i : Interval) (first : Int) : (left tried : Nat) → Scaled
  | 0, tried => ⟨i.value * (pow10 (first - tried)).2 / (i.den * (pow10 (first - tried)).1), first - tried⟩
  | left + 1, tried =>
    match i.onGrid? tie (first - tried) with
    | some d => Scaled.trim 20 ⟨d, first - tried⟩
    | none => searchGrids tie i first left (tried + 1)

/-- The shortest decimal that reads back to the magnitude of a finite number other than zero. -/
def shortest (tie : Tie) (x : Binary64) : Scaled :=
  let i := Interval.of x
  searchGrids tie i (firstExponent i.value i.den) 17 0

end Switchboard.Decimal
