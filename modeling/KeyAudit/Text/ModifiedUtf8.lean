import KeyAudit.Text.Utf16
import KeyAudit.Text.Utf8

namespace KeyAudit.ModifiedUtf8

/-!
# Text in the encoding of class files

Class files encode each 16-bit unit of a text on its own, in one to three
bytes, and U+0000 in the two bytes C0 80.  A pair of surrogates stands for one
supplementary code point, and a surrogate on its own stands for itself: the
pairs are found on the way through UTF-16.
-/

/-- Put the byte 00 in place of each two-byte form of U+0000. -/
def restoreNul : Bytes → Bytes
  | [] => []
  | [byte] => [byte]
  | first :: second :: rest =>
      if first = 0xC0 ∧ second = 0x80 then
        0x00 :: restoreNul rest
      else
        first :: restoreNul (second :: rest)

/-- The text that bytes of a class file stand for. -/
def decode? (bytes : Bytes) : Option Text :=
  match Utf8.decodeFrom true 0 (restoreNul bytes) with
  | .error _ => none
  | .ok text => Utf16.decode? (Utf16.encode text)

end KeyAudit.ModifiedUtf8
