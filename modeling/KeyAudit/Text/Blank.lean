import KeyAudit.Text.Basic

namespace KeyAudit

/-!
# Blank code points

The blanks are the white space of Unicode together with the four information
separators U+001C to U+001F.
-/

/-- White space of Unicode, or an information separator. -/
def CodePoint.isBlank (point : CodePoint) : Bool :=
  let code := point.val
  (0x09 ≤ code && code ≤ 0x0D) || (0x1C ≤ code && code ≤ 0x20) ||
    code == 0x85 || code == 0xA0 || code == 0x1680 ||
    (0x2000 ≤ code && code ≤ 0x200A) || code == 0x2028 || code == 0x2029 ||
    code == 0x202F || code == 0x205F || code == 0x3000

namespace Text

/-- Drop blanks at the start. -/
def trimStart (text : Text) : Text :=
  text.dropWhile CodePoint.isBlank

/-- Drop blanks at the end. -/
def trimEnd (text : Text) : Text :=
  (text.reverse.dropWhile CodePoint.isBlank).reverse

/-- Drop blanks at both ends. -/
def trim (text : Text) : Text :=
  trimEnd (trimStart text)

/-- Whether a text holds nothing but blanks. -/
def isBlank (text : Text) : Bool :=
  text.all CodePoint.isBlank

end Text

end KeyAudit
