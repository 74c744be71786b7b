import KeyAudit.Text.Quoted

namespace KeyAudit

/-!
# Paths

A path is a list of names under the root or under the working directory.  Empty
names and the name of the directory itself are left out; the name of the parent
directory is kept, because it depends on the files what it means.
-/

/-- A path as it is written. -/
structure Path where
  /-- The slashes that begin an absolute path. -/
  root : Text
  names : List Text
  deriving Repr, DecidableEq

namespace Path

/-- The slash between names. -/
def slash : CodePoint := '/'

/-- The name of the directory itself. -/
def here : Text := "."

/-- The name of the parent directory. -/
def parent : Text := ".."

/-- The slashes that begin a path; two are kept, and any other number counts as one. -/
def rootOf (text : Text) : Text :=
  match (text.takeWhile (· == slash)).length with
  | 0 => []
  | 2 => [slash, slash]
  | _ => [slash]

/-- The path that a text spells. -/
def ofText (text : Text) : Path :=
  let names := (Text.splitAtEach slash text).filter fun name => !name.isEmpty && name != here
  ⟨rootOf text, names⟩

/-- The text of a path. -/
def toText (path : Path) : Text :=
  if path.root.isEmpty && path.names.isEmpty then
    here
  else
    path.root ++ Text.joinWith [slash] path.names

/-- A path further down. -/
def append (path : Path) (names : List Text) : Path :=
  { path with names := path.names ++ names }

/-- Whether a path begins at the root. -/
def isAbsolute (path : Path) : Bool :=
  !path.root.isEmpty

/-- The text of a path from the root, given the text of the working directory. -/
def absoluteText (directory : Text) (path : Path) : Text :=
  if path.isAbsolute then
    path.toText
  else
    Text.joinWith [slash] (directory :: path.names)

/-- The last name. -/
def fileName (path : Path) : Text :=
  path.names.getLast?.getD []

/-- The part of a name from its last point on; a point that begins or ends it does not count. -/
def extensionOf (name : Text) : Text :=
  let after := (name.reverse.takeWhile (· != CodePoint.ofChar '.')).reverse
  let before := name.length - after.length
  if after.isEmpty || before ≤ 1 then [] else CodePoint.ofChar '.' :: after

/-- The part of the last name from its last point on. -/
def extension (path : Path) : Text :=
  extensionOf path.fileName

/-- Order by names. -/
def le (first second : Path) : Bool :=
  Text.rowLe first.names second.names

end Path

end KeyAudit
