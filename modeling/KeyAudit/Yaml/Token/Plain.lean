import KeyAudit.Yaml.Source

namespace KeyAudit.Yaml

/-!
# Plain scalars

A plain scalar is a run of words without quotes.  It may go on over the lines
that are indented under it; the line breaks are folded as in quoted scalars.  It
ends before a comment, before a colon that a blank follows and, inside brackets,
before the characters that structure a flow collection.
-/

/-- Whether a plain word ends before this code point, by the code point after it. -/
def endsPlainWord (inFlow : Bool) (point : CodePoint) (next : Option CodePoint) : Bool :=
  isBreak point || isSpaceOrTab point ||
    (point == CodePoint.ofChar ':' &&
      (atBlankOrEnd next || (inFlow && next.any (isOneOf ",[]\x7b\x7d")))) ||
    (inFlow && isOneOf ",?[]\x7b\x7d" point)

/-- The plain word at the start of a text. -/
def plainWord (inFlow : Bool) : Text → Text
  | [] => []
  | point :: rest =>
      if endsPlainWord inFlow point rest.head? then
        []
      else
        point :: plainWord inFlow rest

/--
The breaks of empty lines between two lines of a plain scalar, or nothing if the
document ends there.  The first argument bounds the steps.
-/
def plainBreaks : Nat → Place → Option Text × Place
  | 0, place => (some [], place)
  | bound + 1, place =>
      if place.isAt ' ' then
        plainBreaks bound place.step
      else
        match place.lineBreak? with
        | none => (some [], place)
        | some (point, after) =>
            if after.isAtDocumentMark then
              (none, after)
            else
              let (breaks, place) := plainBreaks bound after
              (breaks.map (point :: ·), place)

/-- What is between two plain words, and whether a line ends there; nothing ends the scalar. -/
def plainGap (place : Place) : Text × Place × Bool :=
  let spaces := place.run isSpace
  let place := place.advance spaces.length
  match place.lineBreak? with
  | none => (spaces, place, false)
  | some (point, after) =>
      if after.isAtDocumentMark then
        ([], after, true)
      else
        match plainBreaks (after.left + 1) after with
        | (none, place) => ([], place, true)
        | (some breaks, place) =>
            let joint : Text :=
              if point ≠ CodePoint.ofChar '\n' then [point]
              else if breaks.isEmpty then [CodePoint.ofChar ' ']
              else []
            (joint ++ breaks, place, true)

/-- The words of a plain scalar from here on, and whether a line ended after the last one. -/
def plainText (inFlow : Bool) (indent : Int) : Nat → Bool → Place → Text × Place × Bool
  | 0, lineEnded, place => ([], place, lineEnded)
  | bound + 1, lineEnded, place =>
      let word := if place.isAt '#' then [] else plainWord inFlow place.rest
      if word.isEmpty then
        ([], place, lineEnded)
      else
        let (gap, place, lineEnded) := plainGap (place.advance word.length)
        if gap.isEmpty || place.isAt '#' || (!inFlow && place.column < indent) then
          (word, place, lineEnded)
        else
          let (words, place, lineEnded) := plainText inFlow indent bound lineEnded place
          (word ++ (if words.isEmpty then [] else gap ++ words), place, lineEnded)

/-- A plain scalar, whose lines have at least the given indentation outside of brackets. -/
def plainScalar (inFlow : Bool) (indent : Int) (place : Place) : Text × Place × Bool :=
  plainText inFlow indent (place.left + 1) false place

/-- Whether a plain scalar can begin here. -/
def isAtPlain (inFlow : Bool) (place : Place) : Bool :=
  match place.here with
  | none => false
  | some point =>
      let isIndicator := isOneOf "-?:,[]\x7b\x7d#&*!|>'\"%@\x60" point
      if isBreak point || isSpaceOrTab point then
        false
      else if isIndicator then
        !atBlankOrEnd (place.peek 1) &&
          (point == CodePoint.ofChar '-' || (!inFlow && isOneOf "?:" point))
      else
        true

end KeyAudit.Yaml
