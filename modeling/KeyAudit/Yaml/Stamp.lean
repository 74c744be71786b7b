import KeyAudit.Data.Datum
import KeyAudit.Yaml.Source

namespace KeyAudit.Yaml

/-!
# Days and times

A day is a year, a month and a day with hyphens between them.  A time of the day
may follow it, and then a distance from universal time.
-/

/-- A text without the line feed at its end, if there is one. -/
def withoutFinalFeed (text : Text) : Text :=
  if text.getLast? = some (CodePoint.ofChar '\n') then text.dropLast else text

/-- A step in the reading of a text. -/
abbrev Scan := StateT Text Option

namespace Scan

/-- A number of at least and at most so many digits. -/
def number (least most : Nat) : Scan Nat := fun text => do
  let digits := (text.take most).takeWhile CodePoint.isDigit
  if digits.length < least then
    none
  else
    let number ← Text.natural? 10 digits
    return (number, text.drop digits.length)

/-- One code point out of a few. -/
def oneOf (characters : String) : Scan CodePoint
  | [] => none
  | point :: rest => if isOneOf characters point then some (point, rest) else none

/-- The code points that satisfy a test. -/
def many (test : CodePoint → Bool) : Scan Text := fun text =>
  some (text.takeWhile test, text.dropWhile test)

/-- The end of the text. -/
def atEnd : Scan Bool := fun text =>
  some (text.isEmpty, text)

/-- Whether a code point is next, which is then read. -/
def skipIf (character : Char) : Scan Bool
  | [] => some (false, [])
  | point :: rest =>
      if point = CodePoint.ofChar character then some (true, rest) else some (false, point :: rest)

end Scan

/-- A day, or a time on a day. -/
inductive Stamp where
  | date (date : Date)
  | dateTime (time : DateTime)
  deriving Repr, DecidableEq

namespace Stamp

/-- The distance from universal time at the end of a text. -/
def zone : Scan (Option Int) := do
  if ← Scan.atEnd then
    return none
  let _ ← Scan.many isSpaceOrTab
  if ← Scan.skipIf 'Z' then
    return some 0
  let sign ← Scan.oneOf "-+"
  let hours ← Scan.number 1 2
  let minutes ← if ← Scan.skipIf ':' then Scan.number 2 2 else pure 0
  let distance : Int := hours * 60 + minutes
  return some (if sign = CodePoint.ofChar '-' then -distance else distance)

/-- Millionths of a second from the digits after a point. -/
def microseconds (digits : Text) : Nat :=
  let digits := digits.take 6
  (Text.natural? 10 digits).getD 0 * Nat.pow 10 (6 - digits.length)

/-- A time after a day. -/
def time (date : Date) : Scan DateTime := do
  if !(← Scan.skipIf 'T') && !(← Scan.skipIf 't') then
    let _ ← Scan.oneOf " \t"
    let _ ← Scan.many isSpaceOrTab
  let hour ← Scan.number 1 2
  let _ ← Scan.oneOf ":"
  let minute ← Scan.number 2 2
  let _ ← Scan.oneOf ":"
  let second ← Scan.number 2 2
  let fraction ← if ← Scan.skipIf '.' then Scan.many CodePoint.isDigit else pure []
  return ⟨date, hour, minute, second, microseconds fraction, ← zone⟩

/-- A day, and a time on it unless the text ends. -/
def scan : Scan Stamp := do
  let year ← Scan.number 4 4
  let _ ← Scan.oneOf "-"
  let month ← Scan.number 1 2
  let _ ← Scan.oneOf "-"
  let day ← Scan.number 1 2
  let date : Date := ⟨year, month, day⟩
  if ← Scan.atEnd then return .date date else return .dateTime (← time date)

/-- The day or time that a text is in full. -/
def ofWhole? (text : Text) : Option Stamp :=
  match StateT.run scan text with
  | some (stamp, []) => some stamp
  | _ => none

/-- The day or time of a text; whether it exists is not checked. -/
def ofText? (text : Text) : Option Stamp :=
  ofWhole? (withoutFinalFeed text)

/-- The form of a day or time without a tag: a day alone has all its digits. -/
def isPlain (text : Text) : Bool :=
  match ofWhole? text with
  | some (.date _) => text.length == 10
  | some (.dateTime _) => true
  | none => false

/-- The scalar of a day or time that exists. -/
def toScalar (stamp : Stamp) : Except Fault Scalar :=
  let scalar : Except CalendarFault Scalar := match stamp with
    | .date day => day.checked.map Scalar.date
    | .dateTime time => time.checked.map Scalar.dateTime
  scalar.mapError fun fault => .badValue (.calendar fault)

end Stamp

end KeyAudit.Yaml
