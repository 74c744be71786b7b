import KeyAudit.Bytes
import KeyAudit.Text.Printable

namespace KeyAudit

/-!
# Quoted text

A quoted text stands between single quotes, or between double quotes when it
holds a single quote and no double one.  The quote in use, the backslash and
the code points that are not printable are written as escapes.  Bytes are quoted
in the same way, and those outside of printable ASCII are escapes.
-/

namespace Text

/-- One lower-case hexadecimal digit. -/
def hexDigit (value : Nat) : CodePoint :=
  CodePoint.ofChar (Nat.digitChar (value % 16))

/-- The last digits of a number in lower-case hexadecimal. -/
def hex : (width : Nat) → Nat → Text
  | 0, _ => []
  | width + 1, number => hex width (number / 16) ++ [hexDigit number]

/-- The backslash, which starts every escape. -/
def backslash : CodePoint := CodePoint.ofChar '\\'

/-- The double quote. -/
def doubleQuote : CodePoint := CodePoint.ofChar '\x22'

/-- The single quote. -/
def singleQuote : CodePoint := CodePoint.ofChar '\x27'

/-- How a code point stands between two quotes. -/
def escaped (quote point : CodePoint) : Text :=
  if point = quote ∨ point = backslash then
    [backslash, point]
  else if point.val = 0x09 then
    [backslash, 't']
  else if point.val = 0x0A then
    [backslash, 'n']
  else if point.val = 0x0D then
    [backslash, 'r']
  else if point.isPrintable then
    [point]
  else if point.val < 0x100 then
    backslash :: CodePoint.ofChar 'x' :: hex 2 point.val
  else if point.val < 0x10000 then
    backslash :: CodePoint.ofChar 'u' :: hex 4 point.val
  else
    backslash :: CodePoint.ofChar 'U' :: hex 8 point.val

/-- The quote that needs the fewest escapes, single unless only it occurs. -/
def preferredQuote (text : Text) : CodePoint :=
  if text.contains singleQuote && !text.contains doubleQuote then
    doubleQuote
  else
    singleQuote

/-- A text between quotes. -/
def quoted (text : Text) : Text :=
  let quote := preferredQuote text
  quote :: text.flatMap (escaped quote) ++ [quote]

end Text

namespace Bytes

/-- The code point with the number of a byte. -/
def toPoint (byte : UInt8) : CodePoint :=
  ⟨byte.toNat, Nat.lt_trans byte.toNat_lt (by decide)⟩

/-- How a byte stands between two quotes. -/
def escaped (quote : CodePoint) (byte : UInt8) : Text :=
  if byte.toNat < 0x7F then
    Text.escaped quote (toPoint byte)
  else
    Text.backslash :: CodePoint.ofChar 'x' :: Text.hex 2 byte.toNat

/-- Bytes between quotes. -/
def quoted (bytes : Bytes) : Text :=
  let quote := Text.preferredQuote (bytes.map toPoint)
  CodePoint.ofChar 'b' :: quote :: bytes.flatMap (escaped quote) ++ [quote]

end Bytes

end KeyAudit
