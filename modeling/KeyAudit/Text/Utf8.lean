import KeyAudit.Bytes
import KeyAudit.Text.Quoted

namespace KeyAudit

/-!
# Text in UTF-8

Decoding refuses overlong forms, code points above U+10FFFF and, unless they
are asked for, surrogates.  A refusal names the bytes that cannot begin or
continue a code point.
-/

/-- Why bytes are not UTF-8. -/
inductive Utf8Cause where
  | badStart
  | badContinuation
  | unexpectedEnd
  deriving Repr, DecidableEq

/-- The place where bytes stop to be UTF-8. -/
structure Utf8Fault where
  cause : Utf8Cause
  first : UInt8
  position : Nat
  length : Nat
  deriving Repr, DecidableEq

/-- The wording of a cause. -/
def Utf8Cause.message : Utf8Cause → Text
  | .badStart => "invalid start byte"
  | .badContinuation => "invalid continuation byte"
  | .unexpectedEnd => "unexpected end of data"

/-- The wording of a fault, with the bytes that it is about. -/
def Utf8Fault.message (fault : Utf8Fault) : Text :=
  let bytes : Text :=
    if fault.length = 1 then
      "byte 0x" ++ Text.hex 2 fault.first.toNat ++ " in position " ++ Text.ofNat fault.position
    else
      "bytes in position " ++ Text.ofNat fault.position ++ "-" ++
        Text.ofNat (fault.position + fault.length - 1)
  "'utf-8' codec can't decode " ++ bytes ++ ": " ++ fault.cause.message

namespace Utf8

/-- The number of bytes of a code point. -/
def width (point : CodePoint) : Nat :=
  if point.val < 0x80 then 1 else if point.val < 0x800 then 2
  else if point.val < 0x10000 then 3 else 4

/-- The byte that continues a code point with the bits of a number. -/
def continuation (bits : Nat) : UInt8 :=
  UInt8.ofNat (0x80 + bits % 0x40)

/-- The bytes of a code point; surrogates take three bytes. -/
def encodePoint (point : CodePoint) : Bytes :=
  let number := point.val
  match width point with
  | 1 => [UInt8.ofNat number]
  | 2 => [UInt8.ofNat (0xC0 + number / 0x40), continuation number]
  | 3 => [UInt8.ofNat (0xE0 + number / 0x1000), continuation (number / 0x40), continuation number]
  | _ => [UInt8.ofNat (0xF0 + number / 0x40000), continuation (number / 0x1000),
      continuation (number / 0x40), continuation number]

/-- A byte that continues a code point. -/
def isContinuation (byte : UInt8) : Bool :=
  0x80 ≤ byte.toNat && byte.toNat < 0xC0

/-- The bits that a continuation byte carries. -/
def payload (byte : UInt8) : Nat :=
  byte.toNat % 0x40

/-- A code point from a number; numbers outside the code space wrap. -/
def point (number : Nat) : CodePoint :=
  ⟨number % 0x110000, Nat.mod_lt _ (by decide)⟩

/-- Whether the second byte of a three-byte form is in range for the first one. -/
def secondOfThree (surrogates : Bool) (first second : UInt8) : Bool :=
  isContinuation second &&
    !(first.toNat == 0xE0 && second.toNat < 0xA0) &&
    !(first.toNat == 0xED && 0xA0 ≤ second.toNat && !surrogates)

/-- Whether the second byte of a four-byte form is in range for the first one. -/
def secondOfFour (first second : UInt8) : Bool :=
  isContinuation second &&
    !(first.toNat == 0xF0 && second.toNat < 0x90) &&
    !(first.toNat == 0xF4 && 0x90 ≤ second.toNat)

/-- Decode bytes that begin at a position; `surrogates` admits surrogates in three bytes. -/
def decodeFrom (surrogates : Bool) (position : Nat) : Bytes → Except Utf8Fault Text
  | [] => .ok []
  | first :: rest =>
      let refuse := fun cause length =>
        Except.error (Utf8Fault.mk cause first position length)
      if first.toNat < 0x80 then
        match decodeFrom surrogates (position + 1) rest with
        | .error fault => .error fault
        | .ok text => .ok (point first.toNat :: text)
      else if first.toNat < 0xC2 then
        refuse .badStart 1
      else if first.toNat < 0xE0 then
        match rest with
        | [] => refuse .unexpectedEnd 1
        | second :: rest =>
            if isContinuation second then
              match decodeFrom surrogates (position + 2) rest with
              | .error fault => .error fault
              | .ok text =>
                  .ok (point ((first.toNat % 0x20) * 0x40 + payload second) :: text)
            else
              refuse .badContinuation 1
      else if first.toNat < 0xF0 then
        match rest with
        | [] => refuse .unexpectedEnd 1
        | [second] =>
            if secondOfThree surrogates first second then
              refuse .unexpectedEnd 2
            else
              refuse .badContinuation 1
        | second :: third :: rest =>
            if !secondOfThree surrogates first second then
              refuse .badContinuation 1
            else if !isContinuation third then
              refuse .badContinuation 2
            else
              match decodeFrom surrogates (position + 3) rest with
              | .error fault => .error fault
              | .ok text =>
                  .ok (point ((first.toNat % 0x10) * 0x1000 + payload second * 0x40 +
                    payload third) :: text)
      else if first.toNat < 0xF5 then
        match rest with
        | [] => refuse .unexpectedEnd 1
        | [second] =>
            if secondOfFour first second then
              refuse .unexpectedEnd 2
            else
              refuse .badContinuation 1
        | [second, third] =>
            if !secondOfFour first second then
              refuse .badContinuation 1
            else if isContinuation third then
              refuse .unexpectedEnd 3
            else
              refuse .badContinuation 2
        | second :: third :: fourth :: rest =>
            if !secondOfFour first second then
              refuse .badContinuation 1
            else if !isContinuation third then
              refuse .badContinuation 2
            else if !isContinuation fourth then
              refuse .badContinuation 3
            else
              match decodeFrom surrogates (position + 4) rest with
              | .error fault => .error fault
              | .ok text =>
                  .ok (point ((first.toNat % 0x08) * 0x40000 + payload second * 0x1000 +
                    payload third * 0x40 + payload fourth) :: text)
      else
        refuse .badStart 1

/-- Decode bytes without surrogates. -/
def decode (bytes : Bytes) : Except Utf8Fault Text :=
  decodeFrom false 0 bytes

end Utf8

end KeyAudit
