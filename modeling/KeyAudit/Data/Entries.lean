import KeyAudit.Data.Datum
import KeyAudit.Data.ValueFault

namespace KeyAudit

/-!
# Named entries and flat paths

Flattening names every entry of a nest of mappings by the keys that lead to it,
with points between them.  Paths are listed in the order in which they first
appear; if two entries have one path, the later entry counts.
-/

/-- Data by name, in the order of the names' first appearance. -/
abbrev Entries := List (Text × Datum)

namespace Entries

/-- Give a name its data; a name that is there keeps its place. -/
def put (name : Text) (value : Datum) : Entries → Entries
  | [] => [(name, value)]
  | (first, old) :: rest =>
      if first = name then
        (name, value) :: rest
      else
        (first, old) :: put name value rest

/-- Entries from pairs in order. -/
def ofPairs (pairs : List (Text × Datum)) : Entries :=
  pairs.foldl (fun entries (name, value) => put name value entries) []

/-- The names whose data is text. -/
def textNames (entries : Entries) : List Text :=
  (entries.filter fun (_, value) => value.text?.isSome).map Prod.fst

end Entries

namespace Datum

/-- The path of a key under a path; the empty path adds no point. -/
def subPath (start key : Text) : Text :=
  if start.isEmpty then key else start ++ "." ++ key

mutual

/-- Put all entries below data under a path; only mappings have some. -/
def flattenInto (start : Text) (found : Entries) : Datum → Entries
  | .map entries => flattenEntries start found entries
  | .knot _ body => flattenInto start found body
  | _ => found

/-- Put entries and all entries below them under a path; a null key is passed over. -/
def flattenEntries (start : Text) (found : Entries) : List (Scalar × Datum) → Entries
  | [] => found
  | (key, child) :: rest =>
      if key = .null then
        flattenEntries start found rest
      else
        let path := subPath start key.pathText
        flattenEntries start (flattenInto path (found.put path child) child) rest

end

/-- The entries of a nest of mappings by their paths. -/
def flatten (start : Text) (datum : Datum) : Entries :=
  flattenInto start [] datum

mutual

/-- The first reason on the way through a nest of mappings why not all paths can be written. -/
def flattenFault? : Datum → Option ValueFault
  | .map entries => entriesFault? entries
  | .knot _ body => body.flattenFault?
  | .again _ .map => some .endlessPaths
  | _ => none

/-- The first reason why not all paths of some entries can be written. -/
def entriesFault? : List (Scalar × Datum) → Option ValueFault
  | [] => none
  | (key, child) :: rest =>
      if key = .null then entriesFault? rest
      else if key.isLongInteger then some .longInteger
      else child.flattenFault? <|> entriesFault? rest

end

end Datum

end KeyAudit
