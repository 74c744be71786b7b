import KeyAudit.Bytes
import KeyAudit.Text.Basic

namespace KeyAudit

/-!
# Bytes in base 64

Four digits of six bits stand for three bytes.  An equals sign takes the place
of a digit that is not needed at the end, and what follows the last one needed
is not read.  Code points that are no digits are passed over.
-/

namespace Base64

/-- The value of a digit. -/
def digit? (point : CodePoint) : Option Nat :=
  let code := point.val
  if 0x41 ≤ code ∧ code ≤ 0x5A then some (code - 0x41)
  else if 0x61 ≤ code ∧ code ≤ 0x7A then some (code - 0x61 + 26)
  else if 0x30 ≤ code ∧ code ≤ 0x39 then some (code - 0x30 + 52)
  else if code = 0x2B then some 62
  else if code = 0x2F then some 63
  else none

/--
The bytes of a text after so many digits of a group of four, so many equals
signs in a row and some bits that are not yet part of a byte.
-/
def decodeFrom (digits signs bits : Nat) : Text → Option Bytes
  | [] => if digits = 0 then some [] else none
  | point :: rest =>
      if point = CodePoint.ofChar '=' then
        if digits < 2 then decodeFrom digits signs bits rest
        else if 4 ≤ digits + signs + 1 then some []
        else decodeFrom digits (signs + 1) bits rest
      else
        match digit? point, digits with
        | none, _ => decodeFrom digits signs bits rest
        | some value, 0 => decodeFrom 1 0 value rest
        | some value, 1 =>
            (decodeFrom 2 0 (value % 16) rest).map (UInt8.ofNat (bits * 4 + value / 16) :: ·)
        | some value, 2 =>
            (decodeFrom 3 0 (value % 4) rest).map (UInt8.ofNat (bits * 16 + value / 4) :: ·)
        | some value, _ => (decodeFrom 0 0 0 rest).map (UInt8.ofNat (bits * 64 + value) :: ·)

/-- The bytes of a text. -/
def decode? (text : Text) : Option Bytes :=
  decodeFrom 0 0 0 text

end Base64

end KeyAudit
