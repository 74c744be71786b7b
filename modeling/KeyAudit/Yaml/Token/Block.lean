import KeyAudit.Yaml.Source

namespace KeyAudit.Yaml

/-!
# Block scalars

A block scalar holds the lines that are indented under its header.  A literal
block keeps its line breaks; a folded one reads a break between two lines that
begin with text as a space.  The header says how deep the lines are indented and
what becomes of the line breaks at the end.
-/

/-- What becomes of line breaks at the end of a block. -/
inductive Chomping where
  /-- One line break stays. -/
  | clip
  /-- No line break stays. -/
  | strip
  /-- All line breaks stay. -/
  | keep
  deriving Repr, DecidableEq

/-- The chomping indicator that is here, if one is. -/
def chomping? (place : Place) : Option (Chomping × Place) :=
  if place.isAt '+' then some (.keep, place.step)
  else if place.isAt '-' then some (.strip, place.step)
  else none

/-- The indentation indicator that is here, if one is; it may not be zero. -/
def indentation? (place : Place) : Except Fault (Option (Nat × Place)) :=
  match place.here with
  | none => .ok none
  | some point =>
      if point.isDigit then
        if point.val = 0x30 then malformed else .ok (some (point.val - 0x30, place.step))
      else
        .ok none

/-- The header of a block: chomping, the indentation if it is given, and the first line. -/
def blockHeader (place : Place) : Except Fault (Chomping × Option Nat × Place) := do
  let (chomping, increment, place) ←
    match chomping? place with
    | some (chomping, place) => do
        match ← indentation? place with
        | some (increment, place) => .ok (chomping, some increment, place)
        | none => .ok (chomping, none, place)
    | none => do
        match ← indentation? place with
        | none => .ok (Chomping.clip, none, place)
        | some (increment, place) =>
            match chomping? place with
            | some (chomping, place) => .ok (chomping, some increment, place)
            | none => .ok (Chomping.clip, some increment, place)
  if atSpaceOrEnd place.here then
    return (chomping, increment, ← place.skipRestOfLine)
  else
    malformed

/--
Leading empty lines of a block whose indentation is not given: their breaks, the
deepest column seen, and the place of the first text.
-/
def leadingLines : Nat → Nat → Place → Text × Nat × Place
  | 0, deepest, place => ([], deepest, place)
  | bound + 1, deepest, place =>
      if place.isAt ' ' then
        let place := place.step
        leadingLines bound (max deepest place.column) place
      else
        match place.lineBreak? with
        | none => ([], deepest, place)
        | some (point, after) =>
            let (points, deepest, place) := leadingLines bound deepest after
            (point :: points, deepest, place)

/-- Skip spaces up to a column. -/
def skipIndent (indent : Nat) : Nat → Place → Place
  | 0, place => place
  | bound + 1, place =>
      if place.column < indent && place.isAt ' ' then
        skipIndent indent bound place.step
      else
        place

/-- The breaks of empty lines under an indentation. -/
def blockBreaks (indent : Nat) : Nat → Place → Text × Place
  | 0, place => ([], place)
  | bound + 1, place =>
      let place := skipIndent indent indent place
      match place.lineBreak? with
      | none => ([], place)
      | some (point, after) =>
          let (points, place) := blockBreaks indent bound after
          (point :: points, place)

/-- Whether a line of the block is here. -/
def isAtBlockLine (indent : Nat) (place : Place) : Bool :=
  place.column == indent && !place.rest.isEmpty

/-- What is between two lines of a block. -/
def lineJoint (folded : Bool) (firstIsText secondIsText : Bool) (point : Option CodePoint)
    (breaks : Text) : Text :=
  if folded && point == some (CodePoint.ofChar '\n') && firstIsText && secondIsText then
    if breaks.isEmpty then [CodePoint.ofChar ' '] else []
  else
    point.toList

/--
The lines of a block, the last line break and the breaks of empty lines after
it.  The breaks given are those before the line that is here; the first argument
bounds the number of lines.
-/
def blockLines (folded : Bool) (indent : Nat) :
    Nat → Text → Place → Text × Option CodePoint × Text × Place
  | 0, breaks, place => ([], none, breaks, place)
  | bound + 1, breaks, place =>
      if isAtBlockLine indent place then
        let isText := !place.here.any isSpaceOrTab
        let line := place.run fun point => !isBreak point
        let place := place.advance line.length
        let (point, place) := match place.lineBreak? with
          | none => (none, place)
          | some (point, after) => (some point, after)
        let (after, place) := blockBreaks indent (place.left + 1) place
        if isAtBlockLine indent place then
          let nextIsText := !place.here.any isSpaceOrTab
          let joint := lineJoint folded isText nextIsText point after
          let (text, last, final, place) := blockLines folded indent bound after place
          (breaks ++ line ++ joint ++ text, last, final, place)
        else
          (breaks ++ line, point, after, place)
      else
        ([], none, breaks, place)

/-- A block scalar whose indicator is here, inside a block of the given indentation. -/
def blockScalar (folded : Bool) (parent : Int) (place : Place) :
    Except Fault (Text × Place) := do
  let (chomping, increment, place) ← blockHeader place.step
  let least := (max (parent + 1) 1).toNat
  let (indent, breaks, place) :=
    match increment with
    | some increment =>
        let indent := least + increment - 1
        let (breaks, place) := blockBreaks indent (place.left + 1) place
        (indent, breaks, place)
    | none =>
        let (breaks, deepest, place) := leadingLines (place.left + 1) 0 place
        (max least deepest, breaks, place)
  let (text, last, final, place) :=
    blockLines folded indent (place.left + 1) breaks place
  let ending := match chomping with
    | .strip => []
    | .clip => last.toList
    | .keep => last.toList ++ final
  return (text ++ ending, place)

end KeyAudit.Yaml
