import KeyAudit.Text.Utf8

namespace KeyAudit

/-!
# Names of files

A file is named by bytes, none of which is zero.  A text names a file by its
bytes in UTF-8, and the code points U+DC80 to U+DCFF stand for the single bytes
80 to FF, so that every name can be written.  Other surrogates stand for
nothing.  Two texts can name one file; the one that escapes no byte without
need is the settled one.
-/

/-- Why a text names no file. -/
inductive NameFault where
  /-- The code point that ends names. -/
  | null
  /-- Surrogates that stand for no byte: the first one, its position and how many there are. -/
  | surrogates (first : CodePoint) (position count : Nat)
  deriving Repr, DecidableEq

namespace FileName

/-- The byte that a code point stands for on its own. -/
def escapedByte? (point : CodePoint) : Option UInt8 :=
  if 0xDC80 ≤ point.val ∧ point.val ≤ 0xDCFF then
    some (UInt8.ofNat (point.val - 0xDC00))
  else
    none

/-- The code point that stands for a byte on its own. -/
def escape (byte : UInt8) : CodePoint :=
  Utf8.point (0xDC00 + byte.toNat)

/-- The bytes of a text whose first code point is at a position. -/
def bytesFrom (position : Nat) : Text → Except NameFault Bytes
  | [] => .ok []
  | point :: rest =>
      match escapedByte? point with
      | some byte => (bytesFrom (position + 1) rest).map fun bytes => byte :: bytes
      | none =>
          if point.isSurrogate then
            .error (.surrogates point position
              (1 + (rest.takeWhile CodePoint.isSurrogate).length))
          else
            (bytesFrom (position + 1) rest).map fun bytes => Utf8.encodePoint point ++ bytes

/-- The bytes by which a text names a file. -/
def bytes (name : Text) : Except NameFault Bytes := do
  let bytes ← bytesFrom 0 name
  if bytes.contains 0 then
    throw .null
  return bytes

/-- The number of bytes of a code point in a name. -/
def width (point : CodePoint) : Nat :=
  if (escapedByte? point).isSome then 1 else Utf8.width point

/-- The number of bytes of a name. -/
def size (name : Text) : Nat :=
  name.foldl (fun total point => total + width point) 0

/-- The code point that bytes begin with, and the number of its bytes. -/
def leading? (bytes : Bytes) : Option (CodePoint × Nat) :=
  [1, 2, 3, 4].findSome? fun width =>
    match Utf8.decode (bytes.take width) with
    | .ok [point] => some (point, width)
    | _ => none

/-- The text of a name: code points where the bytes are UTF-8, and escaped bytes elsewhere. -/
def ofBytes (bytes : Bytes) : Text :=
  match bytes with
  | [] => []
  | first :: rest =>
      match leading? (first :: rest) with
      | some (point, width) => point :: ofBytes (rest.drop (width - 1))
      | none => escape first :: ofBytes rest
termination_by bytes.length
decreasing_by
  · simp only [List.length_drop, List.length_cons]
    omega
  · simp only [List.length_cons]
    omega

/-- The settled text of a name; a text that names nothing stays as it is. -/
def settled (name : Text) : Text :=
  match bytes name with
  | .ok bytes => ofBytes bytes
  | .error _ => name

end FileName

end KeyAudit
