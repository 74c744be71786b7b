import KeyAudit.Archive.Fault
import KeyAudit.Bytes
import KeyAudit.Tree.FileName
import KeyAudit.Tree.Path

namespace KeyAudit

/-!
# Trees of files

A tree holds the files that a run can read, by their names under the working
directory or under the root.  A directory is there if it is listed or if
something is listed below it.  The entries of an archive are listed with it.
All names in a tree are settled.
-/

/-- What an entry of an archive holds. -/
inductive EntryContent where
  | bytes (bytes : Bytes)
  | faulty (fault : ZipFault)
  deriving Repr, DecidableEq

/-- One entry of an archive. -/
structure ArchiveEntry where
  name : Text
  content : EntryContent
  deriving Repr, DecidableEq

/-- What counts of the name of an entry: all that comes before the end mark. -/
def ArchiveEntry.shortName (name : Text) : Text :=
  name.takeWhile (·.val != 0)

/-- An entry stored under a name; it has no bytes if they do not fit their check sum. -/
def ArchiveEntry.ofStored (name : Text) (bytes : Option Bytes) : ArchiveEntry where
  name := shortName name
  content :=
    match bytes with
    | some bytes => .bytes bytes
    | none => .faulty (.checkSum (shortName name))

/-- What is at a path. -/
inductive Content where
  | directory
  | file (bytes : Bytes)
  | archive (bytes : Bytes) (entries : List ArchiveEntry)
  /-- A file that ends like an archive and cannot be opened as one. -/
  | badArchive (bytes : Bytes) (fault : ZipFault)
  deriving Repr, DecidableEq

/-- Files by path, with the path of the working directory. -/
structure Tree where
  directory : Text
  files : List (Path × Content)
  deriving Repr, DecidableEq

/-- Why a path cannot be read. -/
inductive PathCause where
  | missing
  | notDirectory
  | isDirectory
  | nameTooLong
  /-- The text of the path names nothing. -/
  | noName (fault : NameFault)
  /-- What is at the path is an archive with a fault that is not reported. -/
  | unpacking (fault : ZipFault)
  deriving Repr, DecidableEq

/-- A path that cannot be read. -/
structure PathFault where
  cause : PathCause
  path : Path
  deriving Repr, DecidableEq

/-- The wording of a name fault. -/
def NameFault.message : NameFault → Text
  | .null => "embedded null byte"
  | .surrogates first position count =>
      let place : Text :=
        if count = 1 then
          "character '\\u" ++ Text.hex 4 first.val ++ "' in position " ++ Text.ofNat position
        else
          "characters in position " ++ Text.ofNat position ++ "-" ++
            Text.ofNat (position + count - 1)
      "'utf-8' codec can't encode " ++ place ++ ": surrogates not allowed"

namespace PathFault

/-- The wording of a path fault. -/
def message (fault : PathFault) : Text :=
  let numbered (cause : Text) : Text := cause ++ ": " ++ fault.path.toText.quoted
  match fault.cause with
  | .missing => numbered "[Errno 2] No such file or directory"
  | .notDirectory => numbered "[Errno 20] Not a directory"
  | .isDirectory => numbered "[Errno 21] Is a directory"
  | .nameTooLong => numbered "[Errno 36] File name too long"
  | .noName nameFault => nameFault.message
  | .unpacking zipFault => zipFault.message

end PathFault

/-- The fault of a path whose text names nothing, whatever the files are. -/
def Path.nameless? (path : Path) : Option PathFault :=
  match FileName.bytes path.toText with
  | .ok _ => none
  | .error fault => some ⟨.noName fault, path⟩

/-- Why an archive cannot be read. -/
inductive ArchiveFault where
  | path (fault : PathFault)
  | missingEntry (name : Text)
  | zip (fault : ZipFault)
  deriving Repr, DecidableEq

namespace ArchiveFault

/-- The wording of an archive fault. -/
def message : ArchiveFault → Text
  | .path fault => fault.message
  | .missingEntry name =>
      let sentence : Text := "There is no item named " ++ name.quoted ++ " in the archive"
      sentence.quoted
  | .zip fault => fault.message

/-- The fault of the path of an archive, if a fault of the archive is not reported. -/
def unreported? (path : Path) : ArchiveFault → Option PathFault
  | .zip fault => if fault.isReported then none else some ⟨.unpacking fault, path⟩
  | _ => none

end ArchiveFault

namespace Tree

/-- A tree without files. -/
def empty (directory : Text) : Tree :=
  ⟨directory, []⟩

/-- The path one name further; the parent of the root is the root. -/
def enter (path : Path) (name : Text) : Path :=
  if name = Path.parent then
    match path.names.getLast? with
    | none => if path.isAbsolute then path else path.append [name]
    | some last => if last = Path.parent then path.append [name] else
        { path with names := path.names.dropLast }
  else
    path.append [name]

/-- The path without needless parent directories, if all names on its way are directories. -/
def direct (path : Path) : Path :=
  path.names.foldl enter { path with names := [] }

/-- The path with settled names. -/
def settle (path : Path) : Path :=
  { path with names := path.names.map FileName.settled }

/-- Whether a path is at or above another. -/
def isAbove (path other : Path) : Bool :=
  path.root == other.root && path.names.isPrefixOf other.names

/-- Whether a path is the working directory, the root or above the working directory. -/
def isOutermost (path : Path) : Bool :=
  path.names.all (· == Path.parent)

/-- What is at a path in which parent directories come only first. -/
def contentAt? (tree : Tree) (path : Path) : Option Content :=
  match tree.files.find? fun (other, _) => other == path with
  | some (_, content) => some content
  | none =>
      if isOutermost path || tree.files.any fun (other, _) => isAbove path other then
        some .directory
      else
        none

/-- List content at a settled path without needless parent directories. -/
def list (tree : Tree) (path : Path) (content : Content) : Tree :=
  { tree with files := tree.files.filter (fun (other, _) => other != path) ++ [(path, content)] }

/-- The paths that are passed on the way to a path, also those that are left again. -/
def wayTo (path : Path) : List Path :=
  (List.range path.names.length).map fun count =>
    direct { path with names := path.names.take count }

/-- List a directory unless something is there. -/
def ensure (tree : Tree) (path : Path) : Tree :=
  if (tree.contentAt? path).isNone then tree.list path .directory else tree

/-- Put content at a path, and directories on the way to it. -/
def put (tree : Tree) (path : Path) (content : Content) : Tree :=
  let path := settle path
  (wayTo path).foldl ensure (tree.list (direct path) content)

/-- The longest name, in bytes. -/
def longestName : Nat := 255

/-- The longest path, in bytes. -/
def longestPath : Nat := 4095

/-- Follow settled names from a path on; everything on the way is a directory. -/
def follow (tree : Tree) (path : Path) : List Text → Except PathCause Path
  | [] => .ok path
  | name :: names =>
      match tree.contentAt? path with
      | none => .error .missing
      | some .directory =>
          if longestName < FileName.size name then
            .error .nameTooLong
          else
            follow tree (enter path name) names
      | some _ => .error .notDirectory

/-- What is at a path, and its settled path without needless parent directories. -/
def find (tree : Tree) (path : Path) : Except PathFault (Path × Content) := do
  let fault := fun cause => PathFault.mk cause path
  let bytes ← (FileName.bytes path.toText).mapError (fault ∘ .noName)
  if longestPath < bytes.length then
    throw (fault .nameTooLong)
  let found ← (tree.follow { path with names := [] } (settle path).names).mapError fault
  match tree.contentAt? found with
  | some content => .ok (found, content)
  | none => .error (fault .missing)

/-- Why nothing can be told of a path.  A path that leads nowhere is no obstacle. -/
def obstacle? (tree : Tree) (path : Path) : Option PathFault :=
  match tree.find path with
  | .error fault => if fault.cause = .nameTooLong then some fault else none
  | .ok _ => none

/-- Whether a directory is at a path. -/
def isDirectory (tree : Tree) (path : Path) : Bool :=
  match tree.find path with
  | .ok (_, .directory) => true
  | _ => false

/-- Whether a file is at a path. -/
def isFile (tree : Tree) (path : Path) : Bool :=
  match tree.find path with
  | .ok (_, .directory) => false
  | .ok _ => true
  | .error _ => false

/-- The bytes of a file. -/
def readBytes (tree : Tree) (path : Path) : Except PathFault Bytes := do
  match (← tree.find path).2 with
  | .directory => throw ⟨.isDirectory, path⟩
  | .file bytes | .archive bytes _ | .badArchive bytes _ => return bytes

/-- Line ends of all kinds as line feeds. -/
def lineFeeds : Text → Text
  | [] => []
  | point :: rest =>
      if point.val = 0x0D then
        match rest with
        | next :: _ => if next.val = 0x0A then lineFeeds rest else CodePoint.ofChar '\n' :: lineFeeds rest
        | [] => [CodePoint.ofChar '\n']
      else
        point :: lineFeeds rest

/-- The text of bytes in UTF-8, with line feeds at the ends of its lines. -/
def textOfBytes (bytes : Bytes) : Except Utf8Fault Text :=
  (Utf8.decode bytes).map lineFeeds

/-- The entries of the archive at a path. -/
def archive (tree : Tree) (path : Path) : Except ArchiveFault (List ArchiveEntry) := do
  match (← (tree.find path).mapError ArchiveFault.path).2 with
  | .directory => throw (.path ⟨.isDirectory, path⟩)
  | .file _ => throw (.zip .notArchive)
  | .badArchive _ fault => throw (.zip fault)
  | .archive _ entries => return entries

/-- The bytes of an entry of the archive at a path; of two entries with one name the last. -/
def readEntry (tree : Tree) (path : Path) (name : Text) : Except ArchiveFault Bytes := do
  match (← tree.archive path).findRev? fun entry => entry.name = name with
  | none => throw (.missingEntry name)
  | some ⟨_, .faulty fault⟩ => throw (.zip fault)
  | some ⟨_, .bytes bytes⟩ => return bytes

/-- The names that lead from a directory to all that is listed below it. -/
def below (tree : Tree) (directory : Path) : List (List Text × Content) :=
  tree.files.filterMap fun (path, content) =>
    if isAbove directory path then
      some (path.names.drop directory.names.length, content)
    else
      none

/-- The names that lead from a directory to each file below it. -/
def filesBelow (tree : Tree) (directory : Path) : List (List Text) :=
  ((tree.below directory).filter fun (_, content) => content != .directory).map Prod.fst

/-- The names that lead from a directory to each directory below it, outer directories first. -/
def directoriesBelow (tree : Tree) (directory : Path) : List (List Text) :=
  ((tree.below directory).flatMap fun (names, content) =>
    let depth := if content = .directory then names.length else names.length - 1
    (List.range depth).map fun count => names.take (count + 1)).eraseDups

end Tree

end KeyAudit
