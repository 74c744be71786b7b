import KeyAudit.Bytes
import KeyAudit.Text.Basic

namespace KeyAudit.Utf16

/-!
# Text in UTF-16

A supplementary code point is two units of 16 bits, a high surrogate and a low
one, and every other code point is one unit.  Surrogates on their own pass in
both directions, so two halves that were encoded apart come back as one code
point.  Encoded text begins with a byte order mark, which decoding takes off.
-/

/-- The first unit of a supplementary code point. -/
def leading (point : CodePoint) : UInt16 :=
  UInt16.ofNat (0xD800 + (point.val - 0x10000) / 0x400)

/-- The second unit of a supplementary code point. -/
def trailing (point : CodePoint) : UInt16 :=
  UInt16.ofNat (0xDC00 + (point.val - 0x10000) % 0x400)

/-- The units of a code point. -/
def unitsOf (point : CodePoint) : List UInt16 :=
  if point.val < 0x10000 then
    [UInt16.ofNat point.val]
  else
    [leading point, trailing point]

/-- The code point of a unit on its own. -/
def pointOf (unit : UInt16) : CodePoint :=
  ⟨unit.toNat, Nat.lt_trans unit.toNat_lt (by decide)⟩

/-- The code points of units; a high surrogate with a low one right after it is a pair. -/
def pointsOf : List UInt16 → Text
  | [] => []
  | [unit] => [pointOf unit]
  | first :: second :: rest =>
      if (pointOf first).isHighSurrogate && (pointOf second).isLowSurrogate then
        CodePoint.ofPair (pointOf first) (pointOf second) :: pointsOf rest
      else
        pointOf first :: pointsOf (second :: rest)

/-- The unit that encoded text begins with. -/
def mark : UInt16 :=
  0xFEFF

/-- The bytes of a unit, the lower one first. -/
def unitBytes (unit : UInt16) : Bytes :=
  [UInt8.ofNat (unit.toNat % 0x100), UInt8.ofNat (unit.toNat / 0x100)]

/-- The bytes of a text, after a byte order mark. -/
def encode (text : Text) : Bytes :=
  (mark :: text.flatMap unitsOf).flatMap unitBytes

/-- Which byte of a unit comes first. -/
inductive ByteOrder where
  | lowerFirst
  | higherFirst
  deriving Repr, DecidableEq

/-- The unit of two bytes. -/
def ByteOrder.unit (first second : UInt8) : ByteOrder → UInt16
  | .lowerFirst => UInt16.ofNat (second.toNat * 0x100 + first.toNat)
  | .higherFirst => UInt16.ofNat (first.toNat * 0x100 + second.toNat)

/-- The units of bytes, unless there is a byte too many. -/
def units? (order : ByteOrder) : Bytes → Option (List UInt16)
  | [] => some []
  | [_] => none
  | first :: second :: rest =>
      (units? order rest).map (order.unit first second :: ·)

/-- The order that a mark at the start tells, and the bytes after the mark. -/
def takeMark : Bytes → ByteOrder × Bytes
  | 0xFF :: 0xFE :: rest => (.lowerFirst, rest)
  | 0xFE :: 0xFF :: rest => (.higherFirst, rest)
  | bytes => (.lowerFirst, bytes)

/-- The text of bytes, with or without a byte order mark. -/
def decode? (bytes : Bytes) : Option Text :=
  let (order, body) := takeMark bytes
  (units? order body).map pointsOf

end KeyAudit.Utf16
