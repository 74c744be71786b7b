import KeyAudit.Text.Utf8
import KeyAudit.Yaml.Token.Quoted

namespace KeyAudit.Yaml

/-!
# Tags, anchors and directives

A tag names the type of a node, in full or as an ending after a handle.  An
anchor names a node, and an alias stands for the node of that name.  A directive
is about the document that follows.
-/

/-- A tag: an ending after a handle, or in full without one. -/
structure Tag where
  handle : Option Text
  ending : Text
  deriving Repr, DecidableEq

/-- An instruction about the document that follows. -/
inductive Directive where
  | version (major minor : Int)
  | handle (name start : Text)
  | other
  deriving Repr, DecidableEq

/-- A name of ASCII letters, digits, hyphens and underscores. -/
def wordName (place : Place) : Except Fault (Text × Place) :=
  let name := place.run isWordPoint
  if name.isEmpty then malformed else .ok (name, place.advance name.length)

/-- The name of an anchor or alias; its indicator is here. -/
def anchorName (place : Place) : Except Fault (Text × Place) := do
  let (name, place) ← wordName place.step
  if atBlankOrEnd place.here || place.here.any (isOneOf "?:,]\x7d%@\x60") then
    return (name, place)
  else
    malformed

/-- A code point of a tag, the percent sign included. -/
def isTagPoint (point : CodePoint) : Bool :=
  isWordPoint point || isOneOf ";/?:@&=+$,.!~*'()[]%" point

/-- The bytes of percent escapes from here on; the first argument bounds their number. -/
def escapedBytes : Nat → Place → Except Fault (Bytes × Place)
  | 0, place => .ok ([], place)
  | bound + 1, place =>
      if place.isAt '%' then do
        let digits := place.step.rest.take 2
        match readDigits? 16 digits with
        | none => malformed
        | some number =>
            if digits.length < 2 then
              malformed
            else
              let (bytes, place) ← escapedBytes bound (place.advance 3)
              return (UInt8.ofNat number :: bytes, place)
      else
        .ok ([], place)

/-- The code points of a tag from here on; the first argument bounds the number of pieces. -/
def tagPieces : Nat → Place → Except Fault (Text × Place)
  | 0, place => .ok ([], place)
  | bound + 1, place => do
      let word := place.run fun point => isTagPoint point && point != CodePoint.ofChar '%'
      let place := place.advance word.length
      if place.isAt '%' then
        let (bytes, place) ← escapedBytes (place.left + 1) place
        match Utf8.decode bytes with
        | .error _ => malformed
        | .ok text =>
            let (pieces, place) ← tagPieces bound place
            return (word ++ text ++ pieces, place)
      else
        return (word, place)

/-- The code points of a tag, of which there is at least one. -/
def tagText (place : Place) : Except Fault (Text × Place) :=
  if place.here.any isTagPoint then
    tagPieces (place.left + 1) place
  else
    malformed

/-- A handle of tags, which begins and ends with an exclamation mark. -/
def tagHandle (place : Place) : Except Fault (Text × Place) :=
  if !place.isAt '!' then
    malformed
  else if (place.peek 1).any isSpace then
    .ok ([CodePoint.ofChar '!'], place.step)
  else
    let name := place.step.run isWordPoint
    let after := place.advance (name.length + 1)
    if after.isAt '!' then
      .ok (CodePoint.ofChar '!' :: name ++ [CodePoint.ofChar '!'], after.step)
    else
      malformed

/-- The tag that is here. -/
def tagMark (place : Place) : Except Fault (Tag × Place) := do
  let next := place.peek 1
  let (tag, place) ←
    if next == some (CodePoint.ofChar '<') then do
      let (ending, place) ← tagText (place.advance 2)
      if place.isAt '>' then .ok (Tag.mk none ending, place.step) else malformed
    else if atBlankOrEnd next then
      .ok (Tag.mk none [CodePoint.ofChar '!'], place.step)
    else
      let word := place.step.run fun point => !isBreak point && !isSpace point
      if word.contains (CodePoint.ofChar '!') then do
        let (handle, place) ← tagHandle place
        let (ending, place) ← tagText place
        .ok (Tag.mk (some handle) ending, place)
      else do
        let (ending, place) ← tagText place.step
        .ok (Tag.mk (some [CodePoint.ofChar '!']) ending, place)
  if atSpaceOrEnd place.here then return (tag, place) else malformed

/-- A decimal number. -/
def versionNumber (place : Place) : Except Fault (Int × Place) :=
  let digits := place.run CodePoint.isDigit
  if digits.isEmpty then
    malformed
  else
    match Integer.parse 10 digits with
    | .ok number => .ok (number, place.advance digits.length)
    | .error fault => .error (.badValue (.integer fault))

/-- The numbers of a version directive. -/
def versionDirective (place : Place) : Except Fault (Directive × Place) := do
  let (major, place) ← versionNumber place.skipSpaces
  if !place.isAt '.' then
    malformed
  else
    let (minor, place) ← versionNumber place.step
    if atSpaceOrEnd place.here then return (.version major minor, place) else malformed

/-- The handle of a tag directive and what it stands for. -/
def handleDirective (place : Place) : Except Fault (Directive × Place) := do
  let (handle, place) ← tagHandle place.skipSpaces
  if !place.isAt ' ' then
    malformed
  else
    let (start, place) ← tagText place.skipSpaces
    if atSpaceOrEnd place.here then return (.handle handle start, place) else malformed

/-- The directive that is here, up to the end of its line. -/
def directiveLine (place : Place) : Except Fault (Directive × Place) := do
  let (name, place) ← wordName place.step
  if !atSpaceOrEnd place.here then
    malformed
  else
    let (directive, place) ←
      if name = Text.ofString "YAML" then versionDirective place
      else if name = Text.ofString "TAG" then handleDirective place
      else .ok (.other, place.skip fun point => !isBreak point)
    return (directive, ← place.skipRestOfLine)

end KeyAudit.Yaml
