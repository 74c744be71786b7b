import KeyAudit.Number.Double
import KeyAudit.Text.Basic

namespace KeyAudit.Double

/-!
# Shortest decimal text of a double

Of all decimal numbers that round to a double, the ones with the fewest digits
are considered, and the nearest of these is written.  Numbers of moderate size
are written positionally, the others with an exponent.
-/

/-- A quotient of natural numbers. -/
structure Quotient where
  numerator : Nat
  denominator : Nat

namespace Quotient

/-- A natural number times a power of two. -/
def timesTwo (factor : Nat) (exponent : Int) : Quotient :=
  let (numerator, denominator) := ratio factor exponent
  ⟨numerator, denominator⟩

/-- A natural number times a power of ten. -/
def timesTen (factor : Nat) (exponent : Int) : Quotient :=
  match exponent with
  | .ofNat power => ⟨factor * Nat.pow 10 power, 1⟩
  | .negSucc power => ⟨factor, Nat.pow 10 (power + 1)⟩

/-- Order of quotients with positive denominators. -/
def lt (first second : Quotient) : Bool :=
  first.numerator * second.denominator < second.numerator * first.denominator

end Quotient

/--
The interval of numbers that round to a double, in quarters of the distance to
the next double above: both ends, and whether they belong to it.
-/
structure RoundingInterval where
  lower : Quotient
  upper : Quotient
  closed : Bool

/-- The numbers that round to `mantissa * 2 ^ exponent`. -/
def roundingInterval (mantissa : Nat) (exponent : Int) : RoundingInterval :=
  let below := if mantissa = Nat.pow 2 52 ∧ -1074 < exponent then 1 else 2
  { lower := .timesTwo (4 * mantissa - below) (exponent - 2)
    upper := .timesTwo (4 * mantissa + 2) (exponent - 2)
    closed := mantissa % 2 == 0 }

/-- Whether a number rounds to the double of an interval. -/
def RoundingInterval.contains (interval : RoundingInterval) (number : Quotient) : Bool :=
  if interval.closed then
    !number.lt interval.lower && !interval.upper.lt number
  else
    interval.lower.lt number && number.lt interval.upper

/-- The exponent of ten of the first digit, sought downwards from a start. -/
def leadingExponent (value : Quotient) : (steps : Nat) → (start : Int) → Int
  | 0, start => start
  | steps + 1, start =>
      if value.lt (.timesTen 1 start) then leadingExponent value steps (start - 1) else start

/-- A decimal number: digits times a power of ten. -/
structure Decimal where
  digits : Nat
  exponent : Int
  deriving Repr, DecidableEq

/-- The best decimal number with a last digit of the given weight, if one rounds to the double. -/
def onGrid? (value : Quotient) (interval : RoundingInterval) (weight : Int) : Option Decimal :=
  let scaled : Quotient :=
    match weight with
    | .ofNat power => ⟨value.numerator, value.denominator * Nat.pow 10 power⟩
    | .negSucc power => ⟨value.numerator * Nat.pow 10 (power + 1), value.denominator⟩
  let below := scaled.numerator / scaled.denominator
  let twice := 2 * (scaled.numerator % scaled.denominator)
  let fitsBelow := interval.contains (.timesTen below weight)
  let fitsAbove := interval.contains (.timesTen (below + 1) weight)
  let aboveIsNearer :=
    scaled.denominator < twice || (twice == scaled.denominator && below % 2 == 1)
  if fitsAbove && (!fitsBelow || aboveIsNearer) then
    some ⟨below + 1, weight⟩
  else if fitsBelow then
    some ⟨below, weight⟩
  else
    none

/-- Try grids with more and more digits, and the exact value's grid at last. -/
def shortestFrom (value : Quotient) (interval : RoundingInterval) :
    (tries : Nat) → (weight : Int) → Decimal
  | 0, weight => ⟨0, weight⟩
  | tries + 1, weight =>
      match onGrid? value interval weight with
      | some decimal => decimal
      | none => shortestFrom value interval tries (weight - 1)

/-- The shortest decimal number that rounds to a positive double. -/
def shortest (mantissa : Nat) (exponent : Int) : Decimal :=
  let value := Quotient.timesTwo mantissa exponent
  let lead := leadingExponent value 640 309
  shortestFrom value (roundingInterval mantissa exponent) 18 lead

/-- Move trailing zeros of the digits into the exponent. -/
def Decimal.trimZeros : (steps : Nat) → Decimal → Decimal
  | 0, decimal => decimal
  | steps + 1, decimal =>
      if decimal.digits % 10 = 0 ∧ decimal.digits ≠ 0 then
        trimZeros steps ⟨decimal.digits / 10, decimal.exponent + 1⟩
      else
        decimal

/-- How decimal numbers are laid out as text. -/
structure DecimalLayout where
  /-- Least exponent of the first digit that is written positionally. -/
  leastPositional : Int
  /-- Least exponent of the first digit above these that is not. -/
  leastScientific : Int
  /-- Least number of digits of a written exponent. -/
  exponentDigits : Nat

/-- Positional from 0.0001 up to sixteen digits before the point, else an exponent of two digits. -/
def layout : DecimalLayout :=
  { leastPositional := -4, leastScientific := 16, exponentDigits := 2 }

/-- A decimal number with the point between its digits. -/
def positional (digits : Text) (lead : Int) : Text :=
  let zero := CodePoint.ofChar '0'
  match lead with
  | .negSucc places => "0." ++ List.replicate places zero ++ digits
  | .ofNat places =>
      let padded := digits ++ List.replicate (places + 1 - digits.length) zero
      let whole := padded.take (places + 1)
      let fraction := padded.drop (places + 1)
      whole ++ "." ++ (if fraction.isEmpty then [zero] else fraction)

/-- A decimal number with one digit before the point and an exponent. -/
def scientific (digits : Text) (lead : Int) : Text :=
  let fraction := digits.drop 1
  let sign : Text := if lead < 0 then "-" else "+"
  digits.take 1 ++ (if fraction.isEmpty then [] else CodePoint.ofChar '.' :: fraction) ++
    "e" ++ sign ++ Text.zeroPadded layout.exponentDigits lead.natAbs

/-- The shortest text of a double. -/
def toText : Double → Text
  | .nan => "nan"
  | .infinite negative => if negative then "-inf" else "inf"
  | .finite negative mantissa exponent =>
      let sign : Text := if negative then "-" else ""
      if mantissa = 0 then
        sign ++ "0.0"
      else
        let decimal := (shortest mantissa exponent).trimZeros 20
        let digits := Text.ofNat decimal.digits
        let lead : Int := decimal.exponent + digits.length - 1
        if layout.leastPositional ≤ lead ∧ lead < layout.leastScientific then
          sign ++ positional digits lead
        else
          sign ++ scientific digits lead

end KeyAudit.Double
