import KeyAudit.Yaml.Source

namespace KeyAudit.Yaml

/-!
# Quoted scalars

A line break in a quoted scalar is read as a space, and each empty line after it
as a line feed.  Only double quotes know escapes.
-/

/-- What a one-letter escape stands for. -/
def escapedPoint? (point : CodePoint) : Option CodePoint :=
  let table : List (CodePoint × CodePoint) :=
    [('0', '\x00'), ('a', '\x07'), ('b', '\x08'), ('t', '\t'), ('\t', '\t'), ('n', '\n'),
      ('v', '\x0B'), ('f', '\x0C'), ('r', '\r'), ('e', '\x1B'), (' ', ' '), ('\x22', '\x22'),
      ('\\', '\\'), ('/', '/'), ('N', '\u0085'), ('_', '\u00A0'), ('L', '\u2028'),
      ('P', '\u2029')]
  table.lookup point

/-- The number of hexadecimal digits after a letter. -/
def hexEscape? (point : CodePoint) : Option Nat :=
  if point = CodePoint.ofChar 'x' then some 2
  else if point = CodePoint.ofChar 'u' then some 4
  else if point = CodePoint.ofChar 'U' then some 8
  else none

/-- The number that digits of a base stand for. -/
def readDigits? (base : Nat) (digits : Text) : Option Nat :=
  digits.foldlM (fun number point =>
    match point.digitValue? with
    | some digit => if digit < base then some (number * base + digit) else none
    | none => none) 0

/--
The line breaks of empty lines from here on.  The first argument bounds their
number.
-/
def emptyLines : Nat → Place → Except Fault (Text × Place)
  | 0, place => .ok ([], place)
  | bound + 1, place =>
      if place.isAtDocumentMark then
        malformed
      else
        let place := place.skip isSpaceOrTab
        match place.lineBreak? with
        | none => .ok ([], place)
        | some (point, after) => do
            let (points, place) ← emptyLines bound after
            return (point :: points, place)

/-- Blanks or line breaks between the words of a quoted scalar. -/
def quotedGap (place : Place) : Except Fault (Text × Place) :=
  let blanks := place.run isSpaceOrTab
  let place := place.advance blanks.length
  match place.lineBreak? with
  | none => if place.rest.isEmpty then malformed else .ok (blanks, place)
  | some (point, after) => do
      let (breaks, place) ← emptyLines (after.left + 1) after
      let joint : Text :=
        if point ≠ CodePoint.ofChar '\n' then [point]
        else if breaks.isEmpty then [CodePoint.ofChar ' ']
        else []
      return (joint ++ breaks, place)

/-- What an escape in double quotes stands for; the backslash is already read. -/
def escapeSequence (place : Place) : Except Fault (Text × Place) :=
  match place.here with
  | none => malformed
  | some point =>
      match escapedPoint? point, hexEscape? point with
      | some value, _ => .ok ([value], place.step)
      | none, some width =>
          let place := place.step
          let digits := place.rest.take width
          match readDigits? 16 digits with
          | none => malformed
          | some number =>
              if digits.length < width then
                malformed
              else if h : number < 0x110000 then
                .ok ([⟨number, h⟩], place.advance width)
              else
                .error (.badValue (if number < 0x80000000 then .codePoint else .codePointWord))
      | none, none =>
          match place.lineBreak? with
          | none => malformed
          | some (_, after) => emptyLines (after.left + 1) after

/-- A code point that stands for itself inside quotes. -/
def isQuotedWordPoint (point : CodePoint) : Bool :=
  !isOneOf "'\"\\" point && !isSpaceOrTab point && !isBreak point

/--
The text of a quoted scalar up to its closing quote, which is read too.  The
first argument bounds the number of pieces.
-/
def quotedText (double : Bool) : Nat → Place → Except Fault (Text × Place)
  | 0, _ => malformed
  | bound + 1, place => do
      let word := place.run isQuotedWordPoint
      let place := place.advance word.length
      let (piece, place, done) ←
        match place.here with
        | none => malformed
        | some point =>
            if point.val = 0x27 ∧ !double then
              if (place.peek 1).any fun next => next.val = 0x27 then
                .ok ([point], place.advance 2, false)
              else
                .ok ([], place.step, true)
            else if point.val = 0x22 ∧ double then
              .ok ([], place.step, true)
            else if point.val = 0x27 ∨ point.val = 0x22 ∨ (point.val = 0x5C ∧ !double) then
              .ok ([point], place.step, false)
            else if point.val = 0x5C then do
              let (text, place) ← escapeSequence place.step
              .ok (text, place, false)
            else do
              let (text, place) ← quotedGap place
              .ok (text, place, false)
      if done then
        return (word, place)
      else
        let (text, place) ← quotedText double bound place
        return (word ++ piece ++ text, place)

/-- A quoted scalar; its opening quote is here. -/
def quotedScalar (double : Bool) (place : Place) : Except Fault (Text × Place) :=
  quotedText double (place.left + 1) place.step

end KeyAudit.Yaml
