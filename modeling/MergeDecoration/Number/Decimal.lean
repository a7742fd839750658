import MergeDecoration.Number.Binary64

/-!
Decimal texts of doubles: the fewest digits that read back, laid out by a `Layout`, and a fixed
number of decimal places.
-/
namespace MergeDecoration.Binary64

/-- A positive decimal `0.d₁d₂… * 10 ^ point`, its digits written as one number. -/
structure Digits where
  digits : List Char
  point : Int
  deriving DecidableEq

/-- `num / den * 10 ^ k` as a fraction. -/
private def scale (num den : Nat) (k : Int) : Nat × Nat :=
  match k with
  | .ofNat p => (num * Nat.pow 10 p, den)
  | .negSucc p => (num, den * Nat.pow 10 (p + 1))

/-- The largest `k` with `10 ^ k ≤ num / den`, from the number of digits of both. -/
private def floorLog10 (num den : Nat) : Int :=
  let guess : Int := (Nat.toDigits 10 num).length - (Nat.toDigits 10 den).length
  let (n, d) := scale num den (-guess)
  if d ≤ n then guess else guess - 1

/-- The reals that round to a positive double: a fraction each for the lower and the upper end,
both over the same denominator, and whether the ends belong to it. -/
private def roundingInterval (x : Binary64) : (Nat × Nat × Nat) × Bool :=
  let m := x.significand
  -- in quarters of the last place; below a power of two the gap is half as wide
  let low := if m = fractionSize ∧ 1 < x.exponentField then 4 * m - 1 else 4 * m - 2
  let high := 4 * m + 2
  let ends := match x.exponent - 2 with
    | .ofNat e => (low * Nat.pow 2 e, high * Nat.pow 2 e, 1)
    | .negSucc e => (low, high, Nat.pow 2 (e + 1))
  (ends, m % 2 == 0)

/-- The neighbour of the value on the grid of multiples of `10 ^ k` that lies in the interval, the
nearer of two; of two equally near ones the even. -/
private def onGrid? (x : Binary64) (k : Int) : Option Nat :=
  let ((low, high, den), closed) := roundingInterval x
  let (vNum, vDen) := scale x.ratio.1 x.ratio.2 (-k)
  let (lNum, lDen) := scale low den (-k)
  let (hNum, hDen) := scale high den (-k)
  let inside (n : Nat) : Bool :=
    if closed then lNum ≤ n * lDen && n * hDen ≤ hNum else lNum < n * lDen && n * hDen < hNum
  let below := vNum / vDen
  let above := below + 1
  match inside below && below != 0, inside above with
  | true, true => some (if roundDiv vNum vDen = below then below else above)
  | true, false => some below
  | false, true => some above
  | false, false => none

/-- The shortest digits that read back as a positive finite double. -/
def shortest (x : Binary64) : Digits :=
  let top := floorLog10 x.ratio.1 x.ratio.2
  let found := (List.range 17).findSome? fun n =>
    (onGrid? x (top - (n : Nat))).map fun d => (d, top - (n : Nat))
  match found with
  | none => ⟨['0'], 0⟩
  | some (n, k) =>
    let ds := Nat.toDigits 10 n
    let kept := (ds.reverse.dropWhile (· == '0')).reverse
    ⟨kept, ds.length + k⟩

/-- How a decimal is laid out. -/
structure Layout where
  /-- The least and the greatest position of the point that is written without an exponent. -/
  leastPoint : Int
  greatestPoint : Int
  /-- Whether a whole number gets a zero after the point. -/
  wholeWithPoint : Bool
  mark : Char
  /-- The least number of digits of an exponent. -/
  exponentWidth : Nat
  notANumber : String
  infinite : String

/-- Numbers from `1e-4` up to `1e16` are written out, others with an exponent of two digits or
more and a sign. -/
def Layout.standard : Layout where
  leastPoint := -3
  greatestPoint := 16
  wholeWithPoint := true
  mark := 'e'
  exponentWidth := 2
  notANumber := "nan"
  infinite := "inf"

def Layout.place (l : Layout) (d : Digits) : List Char :=
  if l.leastPoint ≤ d.point ∧ d.point ≤ l.greatestPoint then
    if d.point ≤ 0 then '0' :: '.' :: List.replicate (-d.point).toNat '0' ++ d.digits
    else
      let whole := d.point.toNat
      if d.digits.length ≤ whole then
        d.digits ++ List.replicate (whole - d.digits.length) '0' ++
          if l.wholeWithPoint then ['.', '0'] else []
      else d.digits.take whole ++ '.' :: d.digits.drop whole
  else
    let e := d.point - 1
    let es := Nat.toDigits 10 e.natAbs
    d.digits.take 1 ++ (if d.digits.length = 1 then [] else '.' :: d.digits.drop 1) ++
      l.mark :: (if e < 0 then '-' else '+') ::
        (List.replicate (l.exponentWidth - es.length) '0' ++ es)

/-- The text of a double. -/
def toText (x : Binary64) (l : Layout := .standard) : String :=
  if x.isNaN then l.notANumber
  else
    let sign := if x.isNegative then "-" else ""
    if x.isInfinite then sign ++ l.infinite
    else sign ++ String.ofList (l.place (if x.isZero then ⟨['0'], 1⟩ else x.shortest))

/-- The value with `places` decimal places, rounded from its exact binary value, ties to even. -/
def toFixed (x : Binary64) (places : Nat) : String :=
  if x.isNaN then "nan"
  else
    let sign := if x.isNegative then "-" else ""
    if x.isInfinite then sign ++ "inf"
    else
      let ds := Nat.toDigits 10 (roundDiv (x.ratio.1 * Nat.pow 10 places) x.ratio.2)
      let ds := List.replicate (places + 1 - ds.length) '0' ++ ds
      let whole := ds.length - places
      sign ++ String.ofList (ds.take whole ++ if places = 0 then [] else '.' :: ds.drop whole)

end MergeDecoration.Binary64
