/-!
Double-precision numbers by their bits. Every operation here is exact integer arithmetic on the
significand and the exponent; rounding happens in `ofRatio` alone.
-/
namespace MergeDecoration

/-- An IEEE 754 double. -/
structure Binary64 where
  bits : UInt64
  deriving DecidableEq, Inhabited

/-- The integer nearest to `num / den`; a tie goes to the even neighbour. -/
def roundDiv (num den : Nat) : Nat :=
  let q := num / den
  let twice := 2 * (num % den)
  if twice < den then q
  else if twice = den then q + q % 2
  else q + 1

namespace Binary64

def signWeight : Nat := Nat.pow 2 63
def fractionSize : Nat := Nat.pow 2 52

def isNegative (x : Binary64) : Bool := signWeight ≤ x.bits.toNat
def exponentField (x : Binary64) : Nat := x.bits.toNat / fractionSize % 2048
def fraction (x : Binary64) : Nat := x.bits.toNat % fractionSize

def isFinite (x : Binary64) : Bool := x.exponentField < 2047
def isInfinite (x : Binary64) : Bool := x.exponentField == 2047 && x.fraction == 0
def isNaN (x : Binary64) : Bool := x.exponentField == 2047 && x.fraction != 0
def isZero (x : Binary64) : Bool := x.exponentField == 0 && x.fraction == 0

/-- The magnitude of a finite number is `significand * 2 ^ exponent`. -/
def significand (x : Binary64) : Nat :=
  if x.exponentField = 0 then x.fraction else fractionSize + x.fraction

def exponent (x : Binary64) : Int := max x.exponentField 1 - 1075

/-- The magnitude of a finite number as a fraction. -/
def ratio (x : Binary64) : Nat × Nat :=
  match x.exponent with
  | .ofNat e => (x.significand * Nat.pow 2 e, 1)
  | .negSucc e => (x.significand, Nat.pow 2 (e + 1))

/-- Sign and magnitude bits put together. -/
def ofMagnitude (negative : Bool) (magnitude : Nat) : Binary64 :=
  ⟨UInt64.ofNat (magnitude + if negative then signWeight else 0)⟩

def zero (negative : Bool) : Binary64 := ofMagnitude negative 0
def infinity (negative : Bool) : Binary64 := ofMagnitude negative (2047 * fractionSize)

/-- Not a number; there are many, told apart by a number of their own. -/
def nanNumbered (k : Nat) : Binary64 :=
  ofMagnitude false (2047 * fractionSize + Nat.pow 2 51 + k % Nat.pow 2 51)

def nan : Binary64 := nanNumbered 0

/-- The largest `k` with `2 ^ k ≤ num / den`. -/
def floorLog2 (num den : Nat) : Int :=
  let k := (Nat.log2 num : Int) - Nat.log2 den
  let reached : Bool := match k with
    | .ofNat e => den * Nat.pow 2 e ≤ num
    | .negSucc e => den ≤ num * Nat.pow 2 (e + 1)
  if reached then k else k - 1

/-- The double nearest to `num / den`, ties to the even significand; too large a magnitude becomes
an infinity. -/
def ofRatio (negative : Bool) (num den : Nat) : Binary64 :=
  if num = 0 then zero negative
  else
    let e := max (floorLog2 num den - 52) (-1074)
    let q := match e with
      | .ofNat k => roundDiv num (den * Nat.pow 2 k)
      | .negSucc k => roundDiv (num * Nat.pow 2 (k + 1)) den
    let magnitude := (e + 1074).toNat * fractionSize + q
    if 2047 * fractionSize ≤ magnitude then infinity negative else ofMagnitude negative magnitude

/-- The double nearest to `digits * 10 ^ power`. Powers far outside the range are not computed. -/
def ofDecimal (negative : Bool) (digits : Nat) (power : Int) : Binary64 :=
  let size : Int := (Nat.toDigits 10 digits).length + power
  if digits = 0 ∨ size < -400 then zero negative
  else if 400 < size then infinity negative
  else match power with
    | .ofNat p => ofRatio negative (digits * Nat.pow 10 p) 1
    | .negSucc p => ofRatio negative digits (Nat.pow 10 (p + 1))

/-- The double nearest to an integer, unless its magnitude rounds out of range. -/
def ofInt? (i : Int) : Option Binary64 :=
  let x := ofRatio (i < 0) i.natAbs 1
  if x.isFinite then some x else none

/-- The integer part of a finite number, toward zero. -/
def truncate (x : Binary64) : Int :=
  let (num, den) := x.ratio
  let n : Int := (num / den : Nat)
  if x.isNegative then -n else n

/-- Change the sign; a NaN stays as it is. -/
def negate (x : Binary64) : Binary64 :=
  if x.isNaN then x else ofMagnitude (!x.isNegative) (x.bits.toNat % signWeight)

/-- A finite number as a fraction with its sign. -/
def signedRatio (x : Binary64) : Int × Nat :=
  let (num, den) := x.ratio
  (if x.isNegative then -num else num, den)

/-- The sum, rounded once. -/
def add (x y : Binary64) : Binary64 :=
  if x.isFinite && y.isFinite then
    let ((a, b), (c, d)) := (x.signedRatio, y.signedRatio)
    let num := a * d + c * b
    if num = 0 then zero (x.isNegative && y.isNegative) else ofRatio (num < 0) num.natAbs (b * d)
  else if x.isNaN || y.isNaN then nan
  else if x.isFinite then y
  else if y.isFinite || x == y then x
  else nan

/-- The product, rounded once. -/
def mul (x y : Binary64) : Binary64 :=
  let negative := x.isNegative != y.isNegative
  if x.isFinite && y.isFinite then
    ofRatio negative (x.ratio.1 * y.ratio.1) (x.ratio.2 * y.ratio.2)
  else if x.isNaN || y.isNaN || x.isZero || y.isZero then nan
  else infinity negative

/-- Whether two finite numbers have the same value; nothing equals a NaN. -/
def sameValue (x y : Binary64) : Bool :=
  !x.isNaN && !y.isNaN && (x == y || (x.isZero && y.isZero))

/-- Whether a number is exactly the integer `i`. -/
def isInt (x : Binary64) (i : Int) : Bool :=
  x.isFinite && x.ratio.1 % x.ratio.2 == 0 && x.truncate == i

end Binary64
end MergeDecoration
