import KeyAudit.Number.Integer
import KeyAudit.Yaml.Stamp

namespace KeyAudit.Yaml

/-!
# Types of nodes

A tag names the type of a node.  The type of a plain scalar without a tag
follows from its text: truth values, numbers in several bases, times and dates
are told apart by their form, and all else is text.
-/

/-- The types of nodes. -/
inductive NodeType where
  | null
  | bool
  | int
  | float
  | timestamp
  | text
  /-- Bytes in base 64. -/
  | binary
  | list
  | map
  /-- A mapping of which only the keys count. -/
  | set
  /-- A list of mappings with one pair each. -/
  | pairs
  /-- The key that merges other mappings into its own. -/
  | merge
  /-- The key of the value that a mapping stands for as a scalar. -/
  | default
  | unknown
  deriving Repr, DecidableEq

/-- Text in one of three cases: lower, with a first capital, upper. -/
def casesOf (word : String) : List Text :=
  [word, word.capitalize, word.toUpper].map Text.ofString

/-- Words for a truth value. -/
def truthWords : List Text :=
  ["yes", "true", "on"].flatMap casesOf

/-- Words for a falsehood. -/
def falsehoodWords : List Text :=
  ["no", "false", "off"].flatMap casesOf

/-- Words for no value. -/
def nullWords : List Text :=
  [Text.ofString "", Text.ofString "~"] ++ casesOf "null"

/-- A digit or an underscore. -/
def isDigitOrRule (point : CodePoint) : Bool :=
  point.isDigit || point == CodePoint.ofChar '_'

/-- A digit of a base, or an underscore. -/
def isDigitOf (base : Nat) (point : CodePoint) : Bool :=
  point == CodePoint.ofChar '_' || point.digitValue?.any (· < base)

/-- Digits and underscores of which the first passes a test. -/
def isNumeral (isFirst : CodePoint → Bool) : Text → Bool
  | [] => false
  | point :: rest => isFirst point && rest.all isDigitOrRule

/-- A digit that is not zero. -/
def isNonzeroDigit (point : CodePoint) : Bool :=
  point.isDigit && point != CodePoint.ofChar '0'

/-- A number below sixty of one or two digits. -/
def isSixtieth : Text → Bool
  | [last] => last.isDigit
  | [first, last] => first.isDigit && first.val ≤ 0x35 && last.isDigit
  | _ => false

/-- Numerals in base sixty with colons between them. -/
def isSexagesimal (isFirst : CodePoint → Bool) (text : Text) : Bool :=
  match Text.splitAtEach ':' text with
  | first :: part :: parts => isNumeral isFirst first && (part :: parts).all isSixtieth
  | _ => false

/-- Digits of a base after the letters that announce it. -/
def isBased (start : String) (base : Nat) (text : Text) : Bool :=
  text.startsWith start && start.length < text.length &&
    (text.drop start.length).all (isDigitOf base)

/-- The form of an integer. -/
def isInteger (text : Text) : Bool :=
  let body := (Text.signed text).2
  isBased "0b" 2 body || isBased "0" 8 body || body == Text.ofString "0" ||
    isNumeral isNonzeroDigit body || isBased "0x" 16 body || isSexagesimal isNonzeroDigit body

/-- An exponent with its sign, or nothing. -/
def isExponent : Text → Bool
  | [] => true
  | letter :: sign :: digits =>
      isOneOf "eE" letter && isOneOf "-+" sign && !digits.isEmpty && digits.all CodePoint.isDigit
  | _ => false

/-- Digits after a point with an optional exponent. -/
def isFraction (text : Text) : Bool :=
  isExponent (text.dropWhile isDigitOrRule)

/-- The form of a number with a point. -/
def isFloat (text : Text) : Bool :=
  let body := (Text.signed text).2
  let whole := body.takeWhile fun point => point != CodePoint.ofChar '.'
  let fraction := (body.drop whole.length).tail
  let hasPoint := whole.length < body.length
  (hasPoint && isNumeral CodePoint.isDigit whole && isFraction fraction) ||
    (hasPoint && isSexagesimal CodePoint.isDigit whole && fraction.all isDigitOrRule) ||
    (text.head? == some (CodePoint.ofChar '.') && text.tail.head?.any CodePoint.isDigit &&
      isFraction text.tail) ||
    ["inf", "Inf", "INF"].any (fun word => body == CodePoint.ofChar '.' :: Text.ofString word) ||
    ["nan", "NaN", "NAN"].any (fun word => text == CodePoint.ofChar '.' :: Text.ofString word)

namespace NodeType

/-- The start of the tags of the basic types. -/
def basicTags : Text := "tag:yaml.org,2002:"

/-- The type that a full tag names. -/
def ofTag (tag : Text) : NodeType :=
  let names : List (String × NodeType) :=
    [("null", .null), ("bool", .bool), ("int", .int), ("float", .float),
      ("timestamp", .timestamp), ("str", .text), ("binary", .binary), ("seq", .list),
      ("map", .map), ("set", .set), ("omap", .pairs), ("pairs", .pairs), ("merge", .merge),
      ("value", .default)]
  match names.find? fun (name, _) => tag == basicTags ++ name with
  | some (_, type) => type
  | none => .unknown

/-- The type of a scalar by the form of its text; an indicator alone has no known type. -/
def ofForm (text : Text) : NodeType :=
  if truthWords.contains text || falsehoodWords.contains text then .bool
  else if isFloat text then .float
  else if isInteger text then .int
  else if text == Text.ofString "<<" then .merge
  else if nullWords.contains text then .null
  else if Stamp.isPlain text then .timestamp
  else if text == Text.ofString "=" then .default
  else if ["!", "&", "*"].any fun mark => text == Text.ofString mark then .unknown
  else .text

/-- The type of a plain scalar.  A line feed at its end is no part of its form. -/
def ofPlain (text : Text) : NodeType :=
  if text == Text.ofString "\n" then .text else ofForm (withoutFinalFeed text)

end NodeType

end KeyAudit.Yaml
