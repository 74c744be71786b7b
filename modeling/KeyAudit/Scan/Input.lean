import KeyAudit.Log
import KeyAudit.Report.Diagnostic
import KeyAudit.Tree.Basic

namespace KeyAudit

/-!
# Classes to scan

Classes come from class files, from directories that are searched at any depth,
and from archives.  Whatever else is named is passed over, and an archive that
cannot be read is reported, unless its fault is none of those that are.
-/

/-- A class: a file, or an entry of an archive. -/
structure ClassInput where
  path : Path
  entry : Option Text
  deriving Repr, DecidableEq

namespace ClassInput

/-- How a class is named in reports. -/
def label (input : ClassInput) : Text :=
  match input.entry with
  | none => input.path.toText
  | some entry => input.path.toText ++ "!/" ++ entry

/-- The bytes of a class. -/
def read (input : ClassInput) (tree : Tree) : Except Failure Bytes :=
  let bytes := match input.entry with
    | none => (tree.readBytes input.path).mapError ArchiveFault.path
    | some entry => tree.readEntry input.path entry
  bytes.mapError fun fault =>
    .classFormat ("cannot read " ++ input.label ++ ": " ++ fault.message)

/-- Why an input stops a scan: its path names nothing, or its fault is not reported. -/
def obstacle? (input : ClassInput) (tree : Tree) : Option PathFault :=
  match input.path.nameless?, input.entry with
  | some fault, _ => some fault
  | none, none => none
  | none, some entry =>
      match tree.readEntry input.path entry with
      | .ok _ => none
      | .error fault => fault.unreported? input.path

/-- The ending of the names of classes. -/
def classEnding : Text := ".class"

/-- The endings of the names of archives. -/
def archiveEndings : List Text := [Text.ofString ".jar", Text.ofString ".zip"]

/-- The classes in a directory, sorted by path; all paths on the way can be followed. -/
def inDirectory (tree : Tree) (path : Path) : Except PathFault (List ClassInput) := do
  let (found, _) ← tree.find path
  let names := (tree.filesBelow found).filter fun names =>
    (names.getLast?.getD []).endsWith classEnding
  let directories := (tree.directoriesBelow found).map path.append
  let files := (names.map path.append).mergeSort Path.le
  match (directories ++ files).findSome? tree.obstacle? with
  | some fault => throw fault
  | none => return files.map fun file => ⟨file, none⟩

/-- The classes in an archive, sorted by name. -/
def inArchive (tree : Tree) (path : Path) : Except ArchiveFault (List ClassInput) := do
  let names := (← tree.archive path).map ArchiveEntry.name
  return (Text.sorted (names.filter (Text.endsWith · classEnding))).map fun name =>
    ⟨path, some name⟩

/-- The classes at a path, and a diagnostic if an archive there cannot be read. -/
def atPath (tree : Tree) (path : Path) :
    Logged PathFault (List ClassInput × List Diagnostic) := do
  if let some fault := tree.obstacle? path then
    throw fault
  if tree.isDirectory path then
    return (← Logged.ofExcept (inDirectory tree path), [])
  else if tree.isFile path && path.extension == classEnding then
    return ([⟨path, none⟩], [])
  else if tree.isFile path && archiveEndings.contains path.extension.lowerCase then
    match inArchive tree path with
    | .ok inputs => return (inputs, [])
    | .error fault =>
        if let some fault := fault.unreported? path then
          throw fault
        Logged.log .warning .scan
          ("Skipping unreadable archive " ++ path.toText ++ ": " ++ fault.message)
        let failure := Failure.classFormat ("unreadable archive: " ++ fault.message)
        return ([], [.ofFailure failure path.toText []])
  else
    Logged.log .debug .scan ("Ignoring class input " ++ path.toText)
    return ([], [])

/-- The classes at paths in order, and what went wrong. -/
def atPaths (tree : Tree) : List Path → Logged PathFault (List ClassInput × List Diagnostic)
  | [] => return ([], [])
  | path :: paths => do
      let (inputs, diagnostics) ← atPath tree path
      let (more, further) ← atPaths tree paths
      return (inputs ++ more, diagnostics ++ further)

end ClassInput

end KeyAudit
