import KeyAudit.Number.Double
import KeyAudit.Number.Integer

namespace KeyAudit

/-!
# Doubles from decimal text

A double is digits with an optional sign, point and exponent, or a word for
infinity or for not-a-number.  There may be spaces around it.
-/

namespace Double

/-- A power of ten beyond which every number of digits is infinite or zero. -/
def largestPower (digits : Text) : Int :=
  digits.length + 400

/-- The double nearest to digits and a power of ten. -/
def ofDigits (negative : Bool) (digits : Text) (exponent : Int) : Option Double := do
  let number ← Text.natural? 10 digits
  if number = 0 then
    return zero negative
  else if largestPower digits < exponent then
    return .infinite negative
  else if exponent < -largestPower digits then
    return zero negative
  else
    return ofDecimal negative number exponent

/-- The power of ten of an exponent part, which may be missing. -/
def exponent? : Text → Option Int
  | [] => some 0
  | point :: rest =>
      if point = CodePoint.ofChar 'e' then
        let (negative, digits) := Text.signed rest
        (Text.natural? 10 digits).map fun power => if negative then -power else (power : Int)
      else
        none

/-- The double that a text stands for. -/
def ofText? (text : Text) : Option Double :=
  let (negative, body) := text.numeral.lowerCase.signed
  if body = Text.ofString "inf" ∨ body = Text.ofString "infinity" then
    some (.infinite negative)
  else if body = Text.ofString "nan" then
    some .nan
  else
    let whole := body.takeWhile CodePoint.isDigit
    let rest := body.drop whole.length
    let (fraction, rest) :=
      if rest.head? = some (CodePoint.ofChar '.') then
        let fraction := rest.tail.takeWhile CodePoint.isDigit
        (fraction, rest.drop (fraction.length + 1))
      else
        ([], rest)
    match exponent? rest with
    | some power => ofDigits negative (whole ++ fraction) (power - fraction.length)
    | none => none

end Double

end KeyAudit
