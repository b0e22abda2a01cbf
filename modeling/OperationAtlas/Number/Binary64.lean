/-!
# Doubles as exact numbers

A finite double is `± mantissa · 2 ^ exponent`. All arithmetic goes through `roundRatio`, which
rounds an exact quotient of naturals to the nearest double, ties to the even mantissa. So products
and quotients of doubles, and doubles read from decimal texts, are defined by exact arithmetic and
one rounding.
-/

namespace OperationAtlas

/-- A double that is a number or an infinity. -/
inductive Binary64
  | finite (negative : Bool) (mantissa : Nat) (exponent : Int)
  | infinite (negative : Bool)
  deriving DecidableEq, Repr

namespace Binary64

/-- The number of bits of a mantissa. -/
def precision : Nat := 53

/-- The least exponent of a mantissa: subnormal numbers have it. -/
def minExponent : Int := -1074

/-- The greatest exponent of a mantissa. -/
def maxExponent : Int := 971

/-- Zero. -/
def zero (negative : Bool) : Binary64 := .finite negative 0 minExponent

/-- A power of two. -/
def pow2 (n : Nat) : Nat := Nat.pow 2 n

/-- A power of ten. -/
def pow10 (n : Nat) : Nat := Nat.pow 10 n

/-- `num · 2 ^ k / den` as a quotient of naturals. -/
def scaleRatio (num den : Nat) (k : Int) : Nat × Nat :=
  if 0 ≤ k then (num * pow2 k.toNat, den) else (num, den * pow2 (-k).toNat)

/-- The natural nearest to a quotient; of two the even one. -/
def roundHalfEven (num den : Nat) : Nat :=
  let quotient := num / den
  let twice := 2 * (num % den)
  if twice < den then quotient
  else if den < twice then quotient + 1
  else if quotient % 2 = 0 then quotient
  else quotient + 1

/-- The greatest integer `k` with `2 ^ k ≤ num / den`, for a positive quotient. -/
def floorLog2 (num den : Nat) : Int :=
  let k : Int := (Nat.log2 num : Int) - (Nat.log2 den : Int)
  let (n, d) := scaleRatio num den (-k)
  if d ≤ n then k else k - 1

/-- The double nearest to `± num / den`, with ties to the even mantissa. -/
def roundRatio (negative : Bool) (num den : Nat) : Binary64 :=
  if num = 0 then zero negative
  else
    let exponent := max (floorLog2 num den - 52) minExponent
    let (n, d) := scaleRatio num den (-exponent)
    let mantissa := roundHalfEven n d
    let (mantissa, exponent) :=
      if mantissa = pow2 precision then (pow2 (precision - 1), exponent + 1)
      else (mantissa, exponent)
    if maxExponent < exponent then .infinite negative else .finite negative mantissa exponent

/-- The double nearest to a natural. -/
def ofNat (n : Nat) : Binary64 := roundRatio false n 1

/-- The double nearest to `± digits · 10 ^ exponent`. A number outside the range of all doubles is
decided by its number of digits, so the exponent may be of any size. -/
def ofDecimal (negative : Bool) (digits : Nat) (exponent : Int) : Binary64 :=
  if digits = 0 then zero negative
  else
    let magnitude : Int := (Nat.toDigits 10 digits).length + exponent
    if 310 < magnitude then .infinite negative
    else if magnitude < -330 then zero negative
    else if 0 ≤ exponent then roundRatio negative (digits * pow10 exponent.toNat) 1
    else roundRatio negative digits (pow10 (-exponent).toNat)

/-- The negation of a double. -/
def neg : Binary64 → Binary64
  | finite negative mantissa exponent => finite (!negative) mantissa exponent
  | infinite negative => infinite (!negative)

/-- The product of a double and a positive power of ten, both rounded. -/
def mulPow10 (n : Nat) : Binary64 → Binary64
  | infinite negative => infinite negative
  | finite negative mantissa exponent =>
    match ofNat (pow10 n) with
    | infinite _ => infinite negative
    | finite _ m e =>
      let (num, den) := scaleRatio (mantissa * m) 1 (exponent + e)
      roundRatio negative num den

/-- The quotient of a double and a positive power of ten, both rounded. -/
def divPow10 (n : Nat) : Binary64 → Binary64
  | infinite negative => infinite negative
  | finite negative mantissa exponent =>
    match ofNat (pow10 n) with
    | infinite _ => zero negative
    | finite _ m e =>
      let (num, den) := scaleRatio mantissa m (exponent - e)
      roundRatio negative num den

end Binary64

end OperationAtlas
