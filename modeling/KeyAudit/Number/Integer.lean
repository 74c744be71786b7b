import KeyAudit.Text.DecimalDigit

namespace KeyAudit

/-!
# Integers as text

An integer is read from digits of a base, with an optional sign and spaces
around it.  Single underscores may stand between digits.  The time to read or
write decimal digits grows faster than their number, so their number is limited.
-/

/-- The greatest number of decimal digits that are read or written. -/
def digitLimit : Nat := 4300

/-- Why a text is not an integer. -/
inductive IntegerFault where
  | invalid (base : Nat) (text : Text)
  | tooLong (digits : Nat)
  deriving Repr, DecidableEq

namespace Text

/-- Whether a minus sign begins a text, and the text without its sign. -/
def signed : Text → Bool × Text
  | [] => (false, [])
  | point :: rest =>
      if point = CodePoint.ofChar '-' then (true, rest)
      else if point = CodePoint.ofChar '+' then (false, rest)
      else (false, point :: rest)

/-- The number that digits of a base stand for; there must be one. -/
def natural? (base : Nat) : Text → Option Nat
  | [] => none
  | digits =>
      digits.foldlM (fun number point =>
        match point.digitValue? with
        | some digit => if digit < base then some (number * base + digit) else none
        | none => none) 0

/-- The digits after the letter that may announce a base. -/
def withoutBase (base : Nat) (text : Text) : Text :=
  let letter : Text := if base = 2 then "0b" else if base = 8 then "0o" else "0x"
  if base ≠ 10 ∧ text.lowerCase.startsWith letter then
    match text.drop 2 with
    | [] => []
    | point :: rest => if point = CodePoint.ofChar '_' then rest else point :: rest
  else
    text

end Text

namespace Integer

/-- A digit of a base or an underscore. -/
def isNumeralPoint (base : Nat) (point : CodePoint) : Bool :=
  point == CodePoint.ofChar '_' || point.digitValue?.any (· < base)

/-- The integer that a text stands for in a base. -/
def parse (base : Nat) (text : Text) : Except IntegerFault Int :=
  let (negative, body) := text.numeral.signed
  let body := Text.withoutBase base body
  let groups := Text.splitAtEach '_' (body.takeWhile (isNumeralPoint base))
  let digits := groups.flatten
  if groups.any List.isEmpty then
    .error (.invalid base text)
  else if base = 10 ∧ digitLimit < digits.length then
    .error (.tooLong digits.length)
  else if body.all (isNumeralPoint base) then
    match Text.natural? base digits with
    | some number => .ok (if negative then -number else number)
    | none => .error (.invalid base text)
  else
    .error (.invalid base text)

/-- Whether an integer has too many digits to be written. -/
def isTooLong (number : Int) : Bool :=
  Nat.pow 10 digitLimit ≤ number.natAbs

end Integer

end KeyAudit
