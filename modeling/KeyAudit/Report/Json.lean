import KeyAudit.Text.Quoted

namespace KeyAudit

/-!
# Reports in JSON

Reports are written with two spaces for each level and in ASCII: all other code
points are escaped by their UTF-16 units.  Empty collections take one line.
-/

/-- A value of a report. -/
inductive JsonValue where
  | bool (value : Bool)
  | number (value : Int)
  | text (value : Text)
  | list (items : List JsonValue)
  | object (fields : List (Text × JsonValue))
  deriving Repr

namespace JsonValue

instance : Inhabited JsonValue := ⟨bool false⟩

/-- An escape by the number of a UTF-16 unit. -/
def unitEscape (unit : Nat) : Text :=
  "\\u" ++ Text.hex 4 unit

/-- How a code point is written between quotes. -/
def escapedPoint (point : CodePoint) : Text :=
  let code := point.val
  if code = 0x22 then "\\\""
  else if code = 0x5C then "\\\\"
  else if code = 0x0A then "\\n"
  else if code = 0x0D then "\\r"
  else if code = 0x09 then "\\t"
  else if code = 0x0C then "\\f"
  else if code = 0x08 then "\\b"
  else if 0x20 ≤ code ∧ code < 0x7F then [point]
  else if code < 0x10000 then unitEscape code
  else
    unitEscape (0xD800 + (code - 0x10000) / 0x400) ++
      unitEscape (0xDC00 + (code - 0x10000) % 0x400)

/-- A text between quotes. -/
def quoted (text : Text) : Text :=
  "\"" ++ text.flatMap escapedPoint ++ "\""

/-- The start of a line at a level. -/
def lineStart (level : Nat) : Text :=
  CodePoint.ofChar '\n' :: List.replicate (2 * level) (CodePoint.ofChar ' ')

/-- Parts at a level between brackets. -/
def bracketed (opening closing : CodePoint) (level : Nat) (parts : List Text) : Text :=
  if parts.isEmpty then
    [opening, closing]
  else
    let separator : Text := CodePoint.ofChar ',' :: lineStart (level + 1)
    [opening] ++ lineStart (level + 1) ++ Text.joinWith separator parts ++
      lineStart level ++ [closing]

mutual

/-- A value that begins at a level. -/
def render (level : Nat) : JsonValue → Text
  | .bool value => if value then "true" else "false"
  | .number value => Text.ofInt value
  | .text value => quoted value
  | .list items => bracketed '[' ']' level (renderItems (level + 1) items)
  | .object fields => bracketed '\x7b' '\x7d' level (renderFields (level + 1) fields)

/-- Items of a list. -/
def renderItems (level : Nat) : List JsonValue → List Text
  | [] => []
  | item :: items => item.render level :: renderItems level items

/-- Fields of an object. -/
def renderFields (level : Nat) : List (Text × JsonValue) → List Text
  | [] => []
  | (name, value) :: fields =>
      (quoted name ++ ": " ++ value.render level) :: renderFields level fields

end

mutual

/-- The same value with the fields of all its objects in the order of their names. -/
def sortFields : JsonValue → JsonValue
  | .list items => .list (sortItems items)
  | .object fields =>
      .object ((sortEach fields).mergeSort fun first second => Text.le first.1 second.1)
  | other => other

/-- Items with sorted fields. -/
def sortItems : List JsonValue → List JsonValue
  | [] => []
  | item :: items => item.sortFields :: sortItems items

/-- Fields whose values have sorted fields. -/
def sortEach : List (Text × JsonValue) → List (Text × JsonValue)
  | [] => []
  | (name, value) :: fields => (name, value.sortFields) :: sortEach fields

end

/-- A list of texts. -/
def texts (values : List Text) : JsonValue :=
  .list (values.map .text)

/-- An object with named fields. -/
def ofFields (fields : List (String × JsonValue)) : JsonValue :=
  .object (fields.map fun (name, value) => (Text.ofString name, value))

/-- The lines of a report. -/
def document (value : JsonValue) : Text :=
  value.render 0 ++ "\n"

end JsonValue

end KeyAudit
