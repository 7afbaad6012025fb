import TaskTags.Decimal.Words

/-!
Binary floating point numbers of 64 bits, as bit patterns. The magnitude of a pattern (all but the
sign bit) orders the numbers of one sign, so rounding picks a magnitude. `nearest` is the rounding
of a quotient to the nearest number, a tie going to the even magnitude.
-/

namespace TaskTags

open Decimal (pow2 pow10)

structure Binary64 where
  bits : UInt64
deriving DecidableEq, Inhabited

namespace Binary64

def isNegative (x : Binary64) : Bool :=
  x.bits.toNat / pow2 63 == 1

def magnitude (x : Binary64) : Nat :=
  x.bits.toNat % pow2 63

def infinityMagnitude : Nat :=
  0x7FF * pow2 52

def ofMagnitude (negative : Bool) (magnitude : Nat) : Binary64 :=
  ⟨UInt64.ofNat (magnitude + if negative then pow2 63 else 0)⟩

def zero : Binary64 := ofMagnitude false 0
def infinity : Binary64 := ofMagnitude false infinityMagnitude
def negInfinity : Binary64 := ofMagnitude true infinityMagnitude
def nan : Binary64 := ofMagnitude false (infinityMagnitude + pow2 51)

def isNaN (x : Binary64) : Bool :=
  infinityMagnitude < x.magnitude

def isInfinite (x : Binary64) : Bool :=
  x.magnitude == infinityMagnitude

def isFinite (x : Binary64) : Bool :=
  x.magnitude < infinityMagnitude

/-- Numeric equality: both zeros are equal and a NaN equals nothing. -/
def same (x y : Binary64) : Bool :=
  !x.isNaN && (x == y || (x.magnitude == 0 && y.magnitude == 0))

def lt (x y : Binary64) : Bool :=
  let key (z : Binary64) : Int := if z.isNegative then -z.magnitude else z.magnitude
  !x.isNaN && !y.isNaN && key x < key y

/-- A finite magnitude stands for `significand * 2 ^ exponent`. -/
def significand (magnitude : Nat) : Nat :=
  if magnitude < pow2 52 then magnitude else pow2 52 + magnitude % pow2 52

def exponent (magnitude : Nat) : Int :=
  if magnitude < pow2 52 then -1074 else (magnitude / pow2 52 : Nat) - 1075

def ratio (magnitude : Nat) : Nat × Nat :=
  let e := exponent magnitude
  if 0 ≤ e then
    (significand magnitude * pow2 e.toNat, 1)
  else
    (significand magnitude, pow2 (-e).toNat)

/-- The quotient rounded to a natural number, a tie going to the even one. -/
def roundDiv (num den : Nat) : Nat :=
  let q := num / den
  let twice := 2 * (num % den)
  if twice < den then q
  else if twice == den then q + q % 2
  else q + 1

def log2Ratio (num den : Nat) : Int :=
  let e : Int := (Nat.log2 num : Int) - Nat.log2 den
  let small := if 0 ≤ e then num < den * pow2 e.toNat else num * pow2 (-e).toNat < den
  if small then e - 1 else e

/-- The magnitude nearest to a quotient; beyond the greatest finite number it is infinite. -/
def nearest (num den : Nat) : Nat :=
  if num == 0 then 0
  else
    let e := max (log2Ratio num den - 52) (-1074)
    let m := if 0 ≤ e then roundDiv num (den * pow2 e.toNat) else roundDiv (num * pow2 (-e).toNat) den
    min (m + (e + 1074).toNat * pow2 52) infinityMagnitude

/-- The number nearest to `m * 10 ^ e`. Exponents that leave the range at once are cut off. -/
def ofScientific (negative : Bool) (m : Nat) (e : Int) : Binary64 :=
  let top : Int := Nat.log2 m / 3 + 1 + e
  if m == 0 ∨ top < -400 then ofMagnitude negative 0
  else if 400 < e then ofMagnitude negative infinityMagnitude
  else if 0 ≤ e then ofMagnitude negative (nearest (m * pow10 e.toNat) 1)
  else ofMagnitude negative (nearest m (pow10 (-e).toNat))

def ofInt (n : Int) : Binary64 :=
  ofMagnitude (n < 0) (nearest n.natAbs 1)

def truncate (x : Binary64) : Int :=
  let (num, den) := ratio x.magnitude
  if x.isNegative then -(num / den : Nat) else (num / den : Nat)

def isIntegral (x : Binary64) : Bool :=
  let (num, den) := ratio x.magnitude
  num % den == 0

def neg (x : Binary64) : Binary64 :=
  ofMagnitude (!x.isNegative) x.magnitude

def toFloat (x : Binary64) : Float :=
  Float.ofBits x.bits

def ofFloat (x : Float) : Binary64 :=
  ⟨x.toBits⟩

end Binary64
end TaskTags
