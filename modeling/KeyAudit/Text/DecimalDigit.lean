import KeyAudit.Text.Blank

namespace KeyAudit

/-!
# Decimal digits of all scripts

The code points of general category Nd in version 14 of the Unicode Character
Database.  Each script has its ten digits in a row, so the zeros tell them all.
-/

namespace CodePoint

/-- The zero of each script, ascending. -/
def decimalZeros : List Nat := [
    0x30, 0x660, 0x6F0, 0x7C0, 0x966, 0x9E6, 0xA66, 0xAE6, 0xB66, 0xBE6, 0xC66, 0xCE6, 0xD66,
    0xDE6, 0xE50, 0xED0, 0xF20, 0x1040, 0x1090, 0x17E0, 0x1810, 0x1946, 0x19D0, 0x1A80, 0x1A90,
    0x1B50, 0x1BB0, 0x1C40, 0x1C50, 0xA620, 0xA8D0, 0xA900, 0xA9D0, 0xA9F0, 0xAA50, 0xABF0,
    0xFF10, 0x104A0, 0x10D30, 0x11066, 0x110F0, 0x11136, 0x111D0, 0x112F0, 0x11450, 0x114D0,
    0x11650, 0x116C0, 0x11730, 0x118E0, 0x11950, 0x11C50, 0x11D50, 0x11DA0, 0x16A60, 0x16AC0,
    0x16B50, 0x1D7CE, 0x1D7D8, 0x1D7E2, 0x1D7EC, 0x1D7F6, 0x1E140, 0x1E2F0, 0x1E950, 0x1FBF0]

/-- The value of a decimal digit of some script. -/
def decimalValue? (point : CodePoint) : Option Nat :=
  (decimalZeros.find? fun least => least ≤ point.val && point.val < least + 10).map fun least =>
    point.val - least

/-- A decimal digit of some script. -/
def isDecimal (point : CodePoint) : Bool :=
  point.decimalValue?.isSome

/-- A code point of the ASCII range. -/
def isAscii (point : CodePoint) : Bool :=
  point.val < 0x80

/-- The ASCII digit of a value below ten. -/
def ofDigit (value : Nat) : CodePoint :=
  ⟨0x30 + value % 10, by omega⟩

/--
The code point that a reader of numbers sees: a digit of any script is seen as
an ASCII digit, and a blank beyond ASCII as a space.
-/
def asNumeral (point : CodePoint) : CodePoint :=
  if point.isAscii then
    point
  else if point.isBlank then
    CodePoint.ofChar ' '
  else
    match point.decimalValue? with
    | some value => ofDigit value
    | none => point

/-- A blank that may be around a number. -/
def isNumeralSpace (point : CodePoint) : Bool :=
  (0x09 ≤ point.val && point.val ≤ 0x0D) || point.val == 0x20

end CodePoint

/-- A text as a reader of numbers sees it, without the spaces around it. -/
def Text.numeral (text : Text) : Text :=
  let seen := (text.map CodePoint.asNumeral).dropWhile CodePoint.isNumeralSpace
  (seen.reverse.dropWhile CodePoint.isNumeralSpace).reverse

end KeyAudit
