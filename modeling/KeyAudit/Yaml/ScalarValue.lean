import KeyAudit.Data.Base64
import KeyAudit.Number.Decimal
import KeyAudit.Text.LowerCase
import KeyAudit.Yaml.NodeType

namespace KeyAudit.Yaml

/-!
# Values of scalars

The type of a scalar says how its text is read.  Underscores in numbers are
passed over, and colons stand between the digits of base sixty.
-/

/-- Text without underscores. -/
def withoutRules (text : Text) : Text :=
  text.filter fun point => point != CodePoint.ofChar '_'

/-- A number of base sixty from its digits, the last first. -/
def sexagesimal : List Int → Int
  | [] => 0
  | digit :: digits => digit + 60 * sexagesimal digits

/-- An integer from text in a base. -/
def baseInteger (base : Nat) (text : Text) : Except ValueFault Int :=
  (Integer.parse base text).mapError .integer

/-- The integer of a text. -/
def integerOf (text : Text) : Except ValueFault Int := do
  let (negative, body) := Text.signed (withoutRules text)
  let number ←
    if body.isEmpty then throw .noDigits
    else if body = Text.ofString "0" then pure 0
    else if body.startsWith "0b" then baseInteger 2 (body.drop 2)
    else if body.startsWith "0x" then baseInteger 16 (body.drop 2)
    else if body.startsWith "0" then baseInteger 8 body
    else if body.contains (CodePoint.ofChar ':') then do
      let digits ← (Text.splitAtEach ':' body).mapM (baseInteger 10)
      pure (sexagesimal digits.reverse)
    else baseInteger 10 body
  return if negative then -number else number

/-- A double from text. -/
def decimalDouble (text : Text) : Except ValueFault Double :=
  match Double.ofText? text with
  | some number => .ok number
  | none => .error (.number text)

/--
A sum of doubles from the last one on, each weighed by a power of sixty.  Each
weight, product and sum is rounded.
-/
def sexagesimalDouble (digits : List Double) : Except ValueFault Double := do
  let step := fun (sum, weight) digit =>
    match Double.ofNat? weight with
    | some factor => .ok (sum.add (digit.mul factor), weight * 60)
    | none => .error .power
  return (← digits.reverse.foldlM step (Double.zero false, 1)).1

/-- The word for not-a-number. -/
def nanWord : Text := ".nan"

/-- The sign and the rest of the text of a double, in lower case. -/
def doubleParts (text : Text) : Bool × Text :=
  Text.signed (withoutRules text).lowered

/-- The double of a text. -/
def doubleOf (text : Text) : Except ValueFault Double := do
  let (negative, body) := doubleParts text
  let number ←
    if (withoutRules text).isEmpty then throw .noDigits
    else if body = Text.ofString ".inf" then pure (.infinite false)
    else if body = nanWord then pure .nan
    else if body.contains (CodePoint.ofChar ':') then do
      sexagesimalDouble (← (Text.splitAtEach ':' body).mapM decimalDouble)
    else decimalDouble body
  return if negative then number.negate else number

/-- The truth value of a word. -/
def truthOf (text : Text) : Except ValueFault Bool :=
  let word := text.lowered
  if truthWords.contains word then .ok true
  else if falsehoodWords.contains word then .ok false
  else .error (.truthWord word)

/-- The day or time of a text. -/
def stampOf (text : Text) : Except Fault Scalar :=
  match Stamp.ofText? text with
  | some stamp => stamp.toScalar
  | none => .error (.badValue .stamp)

/-- The bytes of a text, which must be ASCII. -/
def bytesOf (text : Text) : Except Fault Bytes :=
  match text.all CodePoint.isAscii, Base64.decode? text with
  | true, some bytes => .ok bytes
  | _, _ => malformed

/-- The scalar of a type that a text stands for. -/
def scalarOf (type : NodeType) (text : Text) : Except Fault Scalar :=
  match type with
  | .null => .ok .null
  | .bool => ((truthOf text).map Scalar.bool).mapError .badValue
  | .int => ((integerOf text).map Scalar.int).mapError .badValue
  | .float => ((doubleOf text).map Scalar.double).mapError .badValue
  | .timestamp => stampOf text
  | .text => .ok (.text text)
  | .binary => (bytesOf text).map Scalar.bytes
  | _ => malformed

end KeyAudit.Yaml
