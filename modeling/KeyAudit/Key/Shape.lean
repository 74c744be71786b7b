import KeyAudit.Text.Blank
import KeyAudit.Text.LetterOrDigit

namespace KeyAudit

/-!
# The shape of message keys

A string literal is a message key when it consists of letters and digits of
the basic plane, dots, underscores and hyphens, and when it begins with the
configured prefix, has a dot or is the key of the prefix itself.  The key is
the literal without surrounding blanks, with the prefix in front.
-/

/-- A code point that keys may hold. -/
def CodePoint.isKeyPoint (point : CodePoint) : Bool :=
  point = CodePoint.ofChar '.' || point = CodePoint.ofChar '_' ||
    point = CodePoint.ofChar '-' || point.isLetterOrDigit

namespace Key

/-- The key of the prefix, which needs no dot. -/
def ofPrefix : Text := "prefix"

/-- Whether a text begins with a prefix that is not empty. -/
def isQualified (qualifier text : Text) : Bool :=
  !qualifier.isEmpty && text.startsWith qualifier

/-- Whether a text has the shape of a key under a prefix. -/
def hasShape (qualifier text : Text) : Bool :=
  !text.isBlank && !text.contains (CodePoint.ofChar '/') && text.all CodePoint.isKeyPoint &&
    (isQualified qualifier text || text == ofPrefix || text.contains (CodePoint.ofChar '.'))

/-- Put the prefix in front unless it is there already. -/
def qualify (qualifier text : Text) : Text :=
  if isQualified qualifier text then text else qualifier ++ text

/-- The key that a literal stands for under a prefix. -/
def ofLiteral? (qualifier literal : Text) : Option Text :=
  let trimmed := literal.trim
  if hasShape qualifier trimmed then some (qualify qualifier trimmed) else none

end Key

end KeyAudit
