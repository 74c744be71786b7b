import KeyAudit.Data.ValueFault

namespace KeyAudit.Yaml

/-!
# Source text of documents

A place in a source text knows what is left of the text and its line and
column.  The end of the text counts as blank and as the end of a line.
-/

/-- Why a text is not a document, or holds a value that does not exist. -/
inductive Fault where
  | malformed
  | badValue (fault : ValueFault)
  deriving Repr, DecidableEq

/-- A text that is not a document. -/
def malformed : Except Fault α :=
  .error .malformed

/-- A code point that documents may hold. -/
def isAllowed (point : CodePoint) : Bool :=
  let code := point.val
  code == 0x09 || code == 0x0A || code == 0x0D || (0x20 ≤ code && code ≤ 0x7E) ||
    code == 0x85 || (0xA0 ≤ code && code ≤ 0xD7FF) || (0xE000 ≤ code && code ≤ 0xFFFD) ||
    0x10000 ≤ code

/-- The byte order mark, which takes no column. -/
def byteOrderMark : CodePoint := CodePoint.ofChar '\uFEFF'

/-- A code point that ends a line. -/
def isBreak (point : CodePoint) : Bool :=
  let code := point.val
  code == 0x0A || code == 0x0D || code == 0x85 || code == 0x2028 || code == 0x2029

/-- A space. -/
def isSpace (point : CodePoint) : Bool :=
  point.val == 0x20

/-- A space or a tab. -/
def isSpaceOrTab (point : CodePoint) : Bool :=
  point.val == 0x20 || point.val == 0x09

/-- Whether a line ends here. -/
def atBreakOrEnd (point : Option CodePoint) : Bool :=
  point.all isBreak

/-- Whether a blank, the end of a line or the end of the text is here. -/
def atBlankOrEnd (point : Option CodePoint) : Bool :=
  point.all fun point => isBreak point || isSpaceOrTab point

/-- Whether a space, the end of a line or the end of the text is here. -/
def atSpaceOrEnd (point : Option CodePoint) : Bool :=
  point.all fun point => isBreak point || isSpace point

/-- One of the characters of a string. -/
def isOneOf (characters : String) (point : CodePoint) : Bool :=
  (Text.ofString characters).contains point

/-- A code point of names: an ASCII letter, a digit, a hyphen or an underscore. -/
def isWordPoint (point : CodePoint) : Bool :=
  let code := point.val
  (0x30 ≤ code && code ≤ 0x39) || (0x41 ≤ code && code ≤ 0x5A) ||
    (0x61 ≤ code && code ≤ 0x7A) || code == 0x2D || code == 0x5F

/-- A place in a source text. -/
structure Place where
  rest : Text
  /-- The number of code points in the rest. -/
  left : Nat
  index : Nat
  line : Nat
  column : Nat
  deriving Repr, DecidableEq

namespace Place

/-- The start of a text. -/
def start (text : Text) : Place :=
  ⟨text, text.length, 0, 0, 0⟩

/-- The code point at a distance. -/
def peek (place : Place) (distance : Nat) : Option CodePoint :=
  place.rest[distance]?

/-- The code point right here. -/
def here (place : Place) : Option CodePoint :=
  place.rest.head?

/-- Whether a given character is right here. -/
def isAt (place : Place) (character : Char) : Bool :=
  place.here == some (CodePoint.ofChar character)

/-- The place after the code point right here. -/
def step (place : Place) : Place :=
  match place.rest with
  | [] => place
  | point :: rest =>
      let endsLine :=
        isBreak point && !(point.val == 0x0D && rest.head? == some (CodePoint.ofChar '\n'))
      if endsLine then
        ⟨rest, place.left - 1, place.index + 1, place.line + 1, 0⟩
      else if point = byteOrderMark then
        ⟨rest, place.left - 1, place.index + 1, place.line, place.column⟩
      else
        ⟨rest, place.left - 1, place.index + 1, place.line, place.column + 1⟩

/-- The place after so many code points. -/
def advance : Nat → Place → Place
  | 0, place => place
  | count + 1, place => advance count place.step

/-- The code points from here on that satisfy a test. -/
def run (place : Place) (test : CodePoint → Bool) : Text :=
  place.rest.takeWhile test

/-- The place after the code points that satisfy a test. -/
def skip (place : Place) (test : CodePoint → Bool) : Place :=
  place.advance (place.run test).length

/-- The place after spaces. -/
def skipSpaces (place : Place) : Place :=
  place.skip isSpace

/-- The place at the end of the line, if a comment is here. -/
def skipComment (place : Place) : Place :=
  if place.isAt '#' then place.skip fun point => !isBreak point else place

/--
The line break that is here, and the place after it.  All kinds of line breaks
are read as a line feed, except for the two separators of Unicode.
-/
def lineBreak? (place : Place) : Option (CodePoint × Place) :=
  match place.rest with
  | [] => none
  | point :: rest =>
      if point.val == 0x0D && rest.head? == some (CodePoint.ofChar '\n') then
        some ('\n', place.advance 2)
      else if point.val == 0x0A || point.val == 0x0D || point.val == 0x85 then
        some ('\n', place.step)
      else if isBreak point then
        some (point, place.step)
      else
        none

/-- Whether a mark of three characters that begins or ends a document is here. -/
def isAtMark (place : Place) (mark : String) : Bool :=
  place.rest.startsWith mark && atBlankOrEnd (place.peek 3)

/-- Whether a document ends or begins here. -/
def isAtDocumentMark (place : Place) : Bool :=
  place.isAtMark "---" || place.isAtMark "..."

/-- Go past the rest of a line that may hold only a comment. -/
def skipRestOfLine (place : Place) : Except Fault Place :=
  let place := place.skipSpaces.skipComment
  match place.lineBreak? with
  | some (_, after) => .ok after
  | none => if place.rest.isEmpty then .ok place else malformed

end Place

end KeyAudit.Yaml
