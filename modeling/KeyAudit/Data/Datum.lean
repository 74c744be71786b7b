import KeyAudit.Data.Calendar
import KeyAudit.Number.Integer
import KeyAudit.Number.Shortest
import KeyAudit.Text.Quoted

namespace KeyAudit

/-!
# Structured data

Data is a scalar or a collection: a list, a mapping from scalars to data, a set
of scalars or a pair.  A mapping keeps the order in which its keys first
appeared, and a key that appears again gets the later value.  Numbers and truth
values of equal magnitude are one key.

A collection may contain itself.  Then it is a knot: it has a number, by which
the places inside that stand for the whole name it.
-/

/-- Data without parts. -/
inductive Scalar where
  | null
  | bool (value : Bool)
  | int (value : Int)
  | double (value : Double)
  | text (value : Text)
  | date (value : Date)
  | dateTime (value : DateTime)
  | bytes (value : Bytes)
  deriving Repr, DecidableEq

namespace Scalar

/-- The integer that a number or truth value equals. -/
def integer? : Scalar → Option Int
  | .bool value => some (if value then 1 else 0)
  | .int value => some value
  | .double value => value.toInt?
  | _ => none

/-- Whether two scalars are the same key. -/
def sameKey (first second : Scalar) : Bool :=
  match first.integer?, second.integer? with
  | some first, some second => first == second
  | none, none =>
      match first, second with
      | .double first, .double second => first.sameNumber second
      | .dateTime first, .dateTime second => first.same second
      | first, second => first == second
  | _, _ => false

/-- How a scalar is shown in messages. -/
def label : Scalar → Text
  | .null => "None"
  | .bool value => if value then "True" else "False"
  | .int value => Text.ofInt value
  | .double value => value.toText
  | .text value => value.quoted
  | .date value => value.label
  | .dateTime value => value.label
  | .bytes value => value.quoted

/-- Whether a scalar is an integer with too many digits to be written. -/
def isLongInteger : Scalar → Bool
  | .int value => Integer.isTooLong value
  | _ => false

/-- The text of a scalar; truth values are spelled as in messages. -/
def toText : Scalar → Text
  | .text value => value
  | .date value => value.toText
  | .dateTime value => value.toText ' '
  | other => other.label

/-- The text of a scalar as part of a path; truth values are in lower case. -/
def pathText : Scalar → Text
  | .bool value => if value then "true" else "false"
  | other => other.toText

end Scalar

/-- The kinds of collections. -/
inductive Collection where
  | list
  | map
  | set
  | pair
  deriving Repr, DecidableEq

/-- How a collection is shown inside of itself. -/
def Collection.ellipsis : Collection → Text
  | list => "[...]"
  | map => "\x7b...\x7d"
  | set => "set(...)"
  | pair => "(...)"

/-- A scalar or a collection. -/
inductive Datum where
  | scalar (value : Scalar)
  | list (items : List Datum)
  | map (entries : List (Scalar × Datum))
  | set (items : List Scalar)
  | pair (first second : Datum)
  /-- A collection that contains itself, and its number. -/
  | knot (number : Nat) (body : Datum)
  /-- The knot of a number that is around this place. -/
  | again (number : Nat) (kind : Collection)
  deriving Repr

namespace Datum

/-- No data. -/
def null : Datum := .scalar .null

instance : Inhabited Datum := ⟨null⟩

/-- A text as data. -/
def text (value : Text) : Datum := .scalar (.text value)

/-- Whether there is no data. -/
def isNull : Datum → Bool
  | .scalar .null => true
  | _ => false

/-- The text, if the data is one. -/
def text? : Datum → Option Text
  | .scalar (.text value) => some value
  | _ => none

/-- Set a key of a mapping; a key that is there keeps its place. -/
def insert (key : Scalar) (value : Datum) :
    List (Scalar × Datum) → List (Scalar × Datum)
  | [] => [(key, value)]
  | (first, old) :: rest =>
      if first.sameKey key then
        (first, value) :: rest
      else
        (first, old) :: insert key value rest

/-- The mapping of entries in order. -/
def ofEntries (entries : List (Scalar × Datum)) : List (Scalar × Datum) :=
  entries.foldl (fun mapping (key, value) => insert key value mapping) []

mutual

/-- Put data in the places that stand for the knot of a number. -/
def replace (number : Nat) (whole : Datum) : Datum → Datum
  | .scalar value => .scalar value
  | .list items => .list (replaceItems number whole items)
  | .map entries => .map (replaceEntries number whole entries)
  | .set items => .set items
  | .pair first second => .pair (replace number whole first) (replace number whole second)
  | .knot inner body =>
      if inner = number then .knot inner body else .knot inner (replace number whole body)
  | .again other kind => if other = number then whole else .again other kind

/-- Put data in the places of items that stand for a knot. -/
def replaceItems (number : Nat) (whole : Datum) : List Datum → List Datum
  | [] => []
  | item :: items => replace number whole item :: replaceItems number whole items

/-- Put data in the places of entries that stand for a knot. -/
def replaceEntries (number : Nat) (whole : Datum) :
    List (Scalar × Datum) → List (Scalar × Datum)
  | [] => []
  | (key, value) :: entries =>
      (key, replace number whole value) :: replaceEntries number whole entries

end

/-- The collection that a knot is, with the whole knot in all places that stand for it. -/
def unfold : Datum → Datum
  | .knot number body => replace number (.knot number body) body
  | other => other

/-- The items of a list or of a set. -/
def items? (datum : Datum) : Option (List Datum) :=
  match datum.unfold with
  | .list items => some items
  | .set items => some (items.map .scalar)
  | _ => none

/-- The entries of a mapping. -/
def entries? (datum : Datum) : Option (List (Scalar × Datum)) :=
  match datum.unfold with
  | .map entries => some entries
  | _ => none

/-- The kind of the collection that a knot is. -/
def kind : Datum → Collection
  | .map _ => .map
  | .set _ => .set
  | .pair _ _ => .pair
  | _ => .list

mutual

/-- How data is shown in messages inside of some knots, which are not shown again. -/
def labelIn (around : List Nat) : Datum → Text
  | .scalar value => value.label
  | .list items => "[" ++ Text.joinWith ", " (labelsIn around items) ++ "]"
  | .map entries => "\x7b" ++ Text.joinWith ", " (entryLabelsIn around entries) ++ "\x7d"
  | .set [] => "set()"
  | .set items => "\x7b" ++ Text.joinWith ", " (items.map Scalar.label) ++ "\x7d"
  | .pair first second => "(" ++ labelIn around first ++ ", " ++ labelIn around second ++ ")"
  | .knot number body =>
      if around.contains number then body.kind.ellipsis else labelIn (number :: around) body
  | .again _ kind => kind.ellipsis

/-- How items are shown in messages. -/
def labelsIn (around : List Nat) : List Datum → List Text
  | [] => []
  | item :: items => labelIn around item :: labelsIn around items

/-- How entries are shown in messages. -/
def entryLabelsIn (around : List Nat) : List (Scalar × Datum) → List Text
  | [] => []
  | (key, value) :: entries =>
      (key.label ++ ": " ++ labelIn around value) :: entryLabelsIn around entries

end

/-- How data is shown in messages. -/
def label (datum : Datum) : Text :=
  datum.labelIn []

mutual

/-- Whether data holds an integer with too many digits to be written. -/
def holdsLongInteger : Datum → Bool
  | .scalar value => value.isLongInteger
  | .list items => anyLongInteger items
  | .map entries => anyLongEntry entries
  | .set items => items.any Scalar.isLongInteger
  | .pair first second => first.holdsLongInteger || second.holdsLongInteger
  | .knot _ body => body.holdsLongInteger
  | .again _ _ => false

/-- Whether one of some items holds such an integer. -/
def anyLongInteger : List Datum → Bool
  | [] => false
  | item :: items => item.holdsLongInteger || anyLongInteger items

/-- Whether one of some entries holds such an integer. -/
def anyLongEntry : List (Scalar × Datum) → Bool
  | [] => false
  | (key, value) :: entries =>
      key.isLongInteger || value.holdsLongInteger || anyLongEntry entries

end

end Datum

end KeyAudit
