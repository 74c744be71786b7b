import KeyAudit.Data.Calendar
import KeyAudit.Number.Integer
import KeyAudit.Text.Quoted

namespace KeyAudit

/-!
# Values that do not exist

A text may have the form of a value, or a tag may demand one, without a value
that it stands for.
-/

/-- Why there is no value. -/
inductive ValueFault where
  | integer (fault : IntegerFault)
  | number (text : Text)
  | calendar (fault : CalendarFault)
  /-- A number without a character. -/
  | noDigits
  | truthWord (word : Text)
  /-- A text that is no day or time. -/
  | stamp
  /-- A mapping in the place of a day or time. -/
  | stampOfMapping
  /-- An escape beyond the code space. -/
  | codePoint
  /-- An escape beyond the code space and beyond a machine word. -/
  | codePointWord
  /-- A power of sixty that no double comes near. -/
  | power
  /-- An integer with too many digits to be written. -/
  | longInteger
  /-- An empty list where a key or a text of a set belongs. -/
  | listAsKey
  /-- A mapping that stands for itself. -/
  | endless
  /-- A mapping with paths that never end. -/
  | endlessPaths
  deriving Repr, DecidableEq

/-- The start of all complaints about too many digits. -/
def digitLimitWording : Text :=
  "Exceeds the limit (" ++ Text.ofNat digitLimit ++ " digits) for integer string conversion"

/-- The end of all complaints about too many digits. -/
def digitLimitAdvice : Text :=
  "; use sys.set_int_max_str_digits() to increase the limit"

/-- The wording of a fault; only the start of a long text is shown. -/
def IntegerFault.message : IntegerFault → Text
  | .invalid base text =>
      "invalid literal for int() with base " ++ Text.ofNat base ++ ": " ++ text.quoted.take 200
  | .tooLong digits =>
      digitLimitWording ++ ": value has " ++ Text.ofNat digits ++ " digits" ++ digitLimitAdvice

/-- The wording of a fault. -/
def ValueFault.message : ValueFault → Text
  | .integer fault => fault.message
  | .number text => "could not convert string to float: " ++ text.quoted
  | .calendar fault => fault.message
  | .noDigits => "string index out of range"
  | .truthWord word => word.quoted
  | .stamp => "'NoneType' object has no attribute 'groupdict'"
  | .stampOfMapping => "expected string or bytes-like object, got 'list'"
  | .codePoint => "chr() arg not in range(0x110000)"
  | .codePointWord => "Python int too large to convert to C int"
  | .power => "int too large to convert to float"
  | .longInteger => digitLimitWording ++ digitLimitAdvice
  | .listAsKey => "unhashable type: 'list'"
  | .endless => "maximum recursion depth exceeded"
  | .endlessPaths => "maximum recursion depth exceeded while calling a Python object"

end KeyAudit
