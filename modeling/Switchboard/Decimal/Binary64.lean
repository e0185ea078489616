/-!
# Double precision numbers

An IEEE 754 number of 64 bits, kept as its bits, so that all NaNs and both zeros stay apart. Values are computed
exactly, as quotients of natural numbers, and rounded once: to the nearest number, a tie to the even one.
-/

namespace Switchboard

/-- A double precision number, given by its bits. -/
structure Binary64 where
  bits : UInt64
deriving DecidableEq, Inhabited, Repr

namespace Binary64

def isNegative (x : Binary64) : Bool := 1 <<< 63 ≤ x.bits.toNat

/-- The eleven exponent bits. -/
def exponentField (x : Binary64) : Nat := (x.bits.toNat >>> 52) % (1 <<< 11)

/-- The fifty-two fraction bits. -/
def fraction (x : Binary64) : Nat := x.bits.toNat % (1 <<< 52)

def isFinite (x : Binary64) : Bool := x.exponentField != 2047

def isNaN (x : Binary64) : Bool := x.exponentField == 2047 && x.fraction != 0

/-- The magnitude of a finite number is `significand * 2 ^ exponent`. -/
def significand (x : Binary64) : Nat :=
  if x.exponentField = 0 then x.fraction else x.fraction + (1 <<< 52)

/-- The magnitude of a finite number is `significand * 2 ^ exponent`. -/
def exponent (x : Binary64) : Int := (max x.exponentField 1 : Nat) - 1075

/-- The magnitude of a finite number as a quotient. -/
def magnitude (x : Binary64) : Nat × Nat :=
  if 0 ≤ x.exponent then (x.significand <<< x.exponent.toNat, 1)
  else (x.significand, 1 <<< (-x.exponent).toNat)

/-- Whether a finite number is zero, of either sign. -/
def isZero (x : Binary64) : Bool := x.bits.toNat % (1 <<< 63) == 0

def ofBits (negative : Bool) (magnitude : Nat) : Binary64 :=
  ⟨UInt64.ofNat ((if negative then 1 <<< 63 else 0) + magnitude)⟩

def infinity (negative : Bool) : Binary64 := ofBits negative (2047 <<< 52)

def zero (negative : Bool) : Binary64 := ofBits negative 0

def neg (x : Binary64) : Binary64 := ofBits (!x.isNegative) (x.bits.toNat % (1 <<< 63))

/-- A quotient rounded to the nearest natural number, a tie to the even one. -/
def roundDiv (num den : Nat) : Nat :=
  let q := num / den
  let r := 2 * (num % den)
  if r < den then q else if r = den then q + q % 2 else q + 1

/-- The binary exponent of a positive quotient: `2 ^ e ≤ num / den < 2 ^ (e + 1)`. -/
def log2Ratio (num den : Nat) : Int :=
  let e : Int := (num.log2 : Int) - den.log2
  let reaches := if 0 ≤ e then den <<< e.toNat ≤ num else den ≤ num <<< (-e).toNat
  if reaches then e else e - 1

/-- The number nearest to `num / den`, with the given sign; infinity from half a unit above the largest. -/
def ofRatio (negative : Bool) (num den : Nat) : Binary64 :=
  if num = 0 then zero negative
  else
    let unit : Int := max (log2Ratio num den - 52) (-1074)
    let m := if 0 ≤ unit then roundDiv num (den <<< unit.toNat) else roundDiv (num <<< (-unit).toNat) den
    let magnitude := ((unit + 1074).toNat <<< 52) + m
    if magnitude < 2047 <<< 52 then ofBits negative magnitude else infinity negative

/-- The number nearest to an integer. -/
def ofInt (n : Int) : Binary64 := ofRatio (n < 0) n.natAbs 1

/-- The product of two finite numbers that are not negative. -/
def mulMagnitude (x y : Binary64) : Binary64 :=
  ofRatio false (x.magnitude.1 * y.magnitude.1) (x.magnitude.2 * y.magnitude.2)

/-- The quotient of two finite numbers that are not negative, the second not zero. -/
def divMagnitude (x y : Binary64) : Binary64 :=
  ofRatio false (x.magnitude.1 * y.magnitude.2) (x.magnitude.2 * y.magnitude.1)

/-- The value of a single precision number. A NaN keeps its payload and becomes quiet. -/
def ofSingle (bits : UInt32) : Binary64 :=
  let n := bits.toNat
  let negative : Bool := 1 <<< 31 ≤ n
  let e := (n >>> 23) % (1 <<< 8)
  let f := n % (1 <<< 23)
  if e = 255 then
    if f = 0 then infinity negative else ofBits negative ((2047 <<< 52) + ((f % (1 <<< 22) + (1 <<< 22)) <<< 29))
  else
    let m := if e = 0 then f else f + (1 <<< 23)
    let s := max e 1
    if 150 ≤ s then ofRatio negative (m <<< (s - 150)) 1 else ofRatio negative m (1 <<< (150 - s))

end Binary64

end Switchboard
