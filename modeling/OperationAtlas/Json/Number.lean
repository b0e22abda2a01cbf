import OperationAtlas.Json.Value
import OperationAtlas.Number.Shortest

/-!
# The text of JSON numbers

Reading collects the digits of a number in an unsigned word of 64 bits for as long as they fit;
later digits only count for the scale. A number without point and exponent that fits in 64 bits is
an integer; every other one is the double that results from scaling the word by a power of ten, one
rounding for each step. Minus zero is a double.

An integer is written with its digits. A double is written with the fewest digits that read back:
positional from `1e-5` up to below `1e16`, always with a fraction, and with a signed exponent
outside.
-/

namespace OperationAtlas.JsonNumber

/-- The greatest unsigned word. -/
def maxWord : Nat := 0xFFFFFFFFFFFFFFFF

/-- The greatest exponent that counts. -/
def maxExponent : Nat := 0x7FFFFFFF

/-- Whether a character is an ASCII digit. -/
def isDigit (c : Char) : Bool :=
  48 ≤ c.toNat && c.toNat ≤ 57

/-- The value of a digit. -/
def digitValue (c : Char) : Nat :=
  c.toNat - 48

/-- The natural that digits write. -/
def natOfDigits (digits : List Char) : Nat :=
  digits.foldl (fun n c => n * 10 + digitValue c) 0

/-- The word that collects leading digits, starting from `word`, and the digits that did not fit. -/
def collect : Nat → List Char → Nat × List Char
  | word, [] => (word, [])
  | word, c :: cs =>
    if maxWord < word * 10 + digitValue c then (word, c :: cs)
    else collect (word * 10 + digitValue c) cs

/-- `± word · 10 ^ exponent` with at most one scaling for each step of 308; nothing beyond the range
of doubles. The number bounds the steps. -/
def scale? : Nat → Binary64 → Int → Option Binary64
  | 0, _, _ => none
  | steps + 1, value, exponent =>
    if exponent.natAbs ≤ 308 then
      if 0 ≤ exponent then
        match value.mulPow10 exponent.natAbs with
        | .infinite _ => none
        | product => some product
      else some (value.divPow10 exponent.natAbs)
    else match value with
      | .finite _ 0 _ => some value
      | _ =>
        if 0 ≤ exponent then none
        else scale? steps (value.divPow10 308) (exponent + 308)

/-- The double of a word with a sign and a scale. -/
def double? (negative : Bool) (word : Nat) (exponent : Int) : Option JsonNumber :=
  let exponent := max (-0x80000000) (min 0x7FFFFFFF exponent)
  (scale? 4 (Binary64.ofNat word) exponent).map fun value =>
    .double (if negative then value.neg else value)

/-- A number given by its parts: the digits before the point, the digits after it and the exponent
with its sign. Nothing if it lies beyond the range of doubles. -/
def ofParts? (negative : Bool) (whole : List Char) (fraction : Option (List Char))
    (exponent : Option (Bool × List Char)) : Option JsonNumber :=
  let (word, spill) := collect 0 whole
  if fraction.isNone && exponent.isNone && spill.isEmpty then
    if !negative then some (.int word)
    else if word = 0 ∨ 0x8000000000000000 < word then
      some (.double (Binary64.ofNat word).neg)
    else some (.int (-word))
  else
    let (word, dropped) := collect word (fraction.getD [])
    let taken := (fraction.getD []).length - dropped.length
    let scale : Int := (spill.length : Int) - taken
    match exponent with
    | none => double? negative word scale
    | some (down, digits) =>
      let e := natOfDigits digits
      if maxExponent < e then
        if word ≠ 0 ∧ !down then none
        else some (.double (Binary64.zero negative))
      else double? negative word (if down then scale - e else scale + e)

/-- Reads the longest number at the start of a text, which must not be cut short: a point and an
exponent mark call for a digit, and a number does not start with a superfluous zero. The inner
result is nothing for a number beyond the range of doubles. -/
def read? (cs : List Char) : Option (Option JsonNumber × List Char) :=
  let negative := cs.head? == some '-'
  let cs := if negative then cs.drop 1 else cs
  let whole := cs.takeWhile isDigit
  let cs := cs.dropWhile isDigit
  if whole.isEmpty || (whole.head? == some '0' && whole.length > 1) then none
  else
    let fraction? : Option (Option (List Char) × List Char) := match cs with
      | '.' :: rest =>
        let digits := rest.takeWhile isDigit
        if digits.isEmpty then none else some (some digits, rest.dropWhile isDigit)
      | _ => some (none, cs)
    match fraction? with
    | none => none
    | some (fraction, cs) =>
      let exponent? : Option (Option (Bool × List Char) × List Char) := match cs with
        | c :: rest =>
          if c = 'e' ∨ c = 'E' then
            let down := rest.head? == some '-'
            let rest := if down || rest.head? == some '+' then rest.drop 1 else rest
            let digits := rest.takeWhile isDigit
            if digits.isEmpty then none else some (some (down, digits), rest.dropWhile isDigit)
          else some (none, c :: rest)
        | [] => some (none, [])
      exponent?.map fun (exponent, cs) => (ofParts? negative whole fraction exponent, cs)

/-- The blanks that may stand around a value. -/
def isSpace (c : Char) : Bool :=
  c == ' ' || c == '\n' || c == '\t' || c == '\r'

/-- The number that a whole text writes, with blanks around it. -/
def parse? (text : List Char) : Option JsonNumber :=
  match read? (text.dropWhile isSpace) with
  | some (some number, rest) => if rest.all isSpace then some number else none
  | _ => none

/-- The text of a positive decimal: positional while the exponent of the leading digit is from `-5`
to `15`, then with a fraction in any case. -/
def decimalText (d : Decimal) : List Char :=
  if -5 < d.pointPosition ∧ d.pointPosition ≤ 16 then
    if 0 ≤ d.exponent then d.positional ++ ['.', '0'] else d.positional
  else d.scientific

/-- The text of a number. -/
def write : JsonNumber → List Char
  | .int value => (toString value).toList
  | .double (.finite negative mantissa exponent) =>
    let magnitude :=
      if mantissa = 0 then ['0', '.', '0']
      else decimalText (Binary64.shortest false mantissa exponent)
    if negative then '-' :: magnitude else magnitude
  | .double (.infinite _) => ['n', 'u', 'l', 'l']

end OperationAtlas.JsonNumber
