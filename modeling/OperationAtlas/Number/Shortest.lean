import OperationAtlas.Number.Binary64

/-!
# The shortest decimal of a double

A decimal reads back as a double if it lies in the interval of the reals that round to it; the ends
belong to the interval exactly if the mantissa is even. `shortest` looks at the decimals with one
digit, with two, and so on, each time at the two neighbours of the exact value, and takes the first
that reads back. Of two that do it takes the nearer; a tie is decided by a flag.
-/

namespace OperationAtlas

/-- A positive decimal `digits · 10 ^ exponent`. -/
structure Decimal where
  digits : Nat
  exponent : Int
  deriving DecidableEq, Repr

namespace Decimal

/-- A decimal of the same value whose last digit is not zero; the number bounds how many zeros
go. -/
def stripZeros : Nat → Decimal → Decimal
  | 0, d => d
  | n + 1, d =>
    if d.digits ≠ 0 ∧ d.digits % 10 = 0 then stripZeros n ⟨d.digits / 10, d.exponent + 1⟩ else d

/-- The digits in order. -/
def digitChars (d : Decimal) : List Char :=
  Nat.toDigits 10 d.digits

/-- The number of digits before the decimal point; not positive if the value is below one. -/
def pointPosition (d : Decimal) : Int :=
  d.digitChars.length + d.exponent

/-- The decimal without an exponent. A point is written only before a fraction. -/
def positional (d : Decimal) : List Char :=
  let ds := d.digitChars
  if 0 ≤ d.exponent then ds ++ List.replicate d.exponent.toNat '0'
  else if 0 < d.pointPosition then
    ds.take d.pointPosition.toNat ++ '.' :: ds.drop d.pointPosition.toNat
  else '0' :: '.' :: (List.replicate (-d.pointPosition).toNat '0' ++ ds)

/-- The decimal with one digit before the point and a signed exponent. -/
def scientific (d : Decimal) : List Char :=
  let leading := match d.digitChars with
    | [] => []
    | [c] => [c]
    | c :: cs => c :: '.' :: cs
  let e := d.pointPosition - 1
  leading ++ 'e' :: (if 0 ≤ e then '+' else '-') :: Nat.toDigits 10 e.natAbs

end Decimal

namespace Binary64

/-- `a · 2 ^ i ≤ b · 10 ^ j`, or `<` if `strict`, decided in the naturals. -/
def pow2LePow10 (strict : Bool) (a : Nat) (i : Int) (b : Nat) (j : Int) : Bool :=
  let left := a * pow2 i.toNat * pow10 (-j).toNat
  let right := b * pow10 j.toNat * pow2 (-i).toNat
  if strict then left < right else left ≤ right

/-- `b · 10 ^ j ≤ a · 2 ^ i`, or `<` if `strict`, decided in the naturals. -/
def pow10LePow2 (strict : Bool) (b : Nat) (j : Int) (a : Nat) (i : Int) : Bool :=
  let left := b * pow10 j.toNat * pow2 (-i).toNat
  let right := a * pow2 i.toNat * pow10 (-j).toNat
  if strict then left < right else left ≤ right

/-- Whether a decimal rounds to the double `mantissa · 2 ^ exponent`. -/
def readsBack (mantissa : Nat) (exponent : Int) (d : Decimal) : Bool :=
  let exclusive := mantissa % 2 = 1
  let aboveLow :=
    if mantissa = pow2 (precision - 1) ∧ minExponent < exponent then
      pow2LePow10 exclusive (4 * mantissa - 1) (exponent - 2) d.digits d.exponent
    else pow2LePow10 exclusive (2 * mantissa - 1) (exponent - 1) d.digits d.exponent
  aboveLow && pow10LePow2 exclusive d.digits d.exponent (2 * mantissa + 1) (exponent - 1)

/-- The greatest integer `k` with `10 ^ k ≤ mantissa · 2 ^ exponent`, for a positive double. -/
def floorLog10 (mantissa : Nat) (exponent : Int) : Int :=
  let (num, den) := scaleRatio mantissa 1 exponent
  let k : Int := (Nat.toDigits 10 num).length - (Nat.toDigits 10 den).length
  if pow10 k.toNat * den ≤ num * pow10 (-k).toNat then k else k - 1

/-- The decimal next to a double on the grid `10 ^ place`, if one of the two neighbours reads
back. -/
def onGrid? (tieUp : Bool) (mantissa : Nat) (exponent place : Int) : Option Decimal :=
  let (num, den) := scaleRatio mantissa 1 exponent
  let num := num * pow10 (-place).toNat
  let den := den * pow10 place.toNat
  let low : Decimal := ⟨num / den, place⟩
  let high : Decimal := ⟨num / den + 1, place⟩
  let lowHit := 0 < low.digits && readsBack mantissa exponent low
  let highHit := readsBack mantissa exponent high
  if lowHit && highHit then
    let twice := 2 * (num % den)
    let takeHigh := den < twice || (twice == den && (tieUp || low.digits % 2 == 1))
    some (if takeHigh then high else low)
  else if lowHit then some low
  else if highHit then some high
  else none

/-- The shortest decimal that reads back as a positive double; of several the nearest, and of two
equally near the greater if `tieUp` and the even one otherwise. -/
def shortest (tieUp : Bool) (mantissa : Nat) (exponent : Int) : Decimal :=
  let lead := floorLog10 mantissa exponent
  let places := (List.range 17).map fun (n : Nat) => lead - (n : Int)
  let found := places.findSome? fun place => onGrid? tieUp mantissa exponent place
  (found.getD ⟨0, 0⟩).stripZeros 400

end Binary64

end OperationAtlas
