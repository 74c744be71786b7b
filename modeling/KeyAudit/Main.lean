import KeyAudit.Archive.Zip
import KeyAudit.Command.Reads

namespace KeyAudit

/-!
# The program

The files that a run reads are taken into a tree, and the run works on the tree.
-/

/-- Take what is at a path into a tree, a directory with everything below it. -/
partial def takePath (tree : Tree) (path : Path) : IO Tree := do
  let target := (← IO.currentDir) / path.toText.toDisplay
  if ← target.isDir then
    let mut tree := tree.put path .directory
    for entry in ← target.readDir do
      tree ← takePath tree (path.append [Text.ofString entry.fileName])
    return tree
  else if ← target.pathExists then
    return tree.put path (Content.ofFile (← IO.FS.readBinFile target))
  else
    return tree

/-- Take a path and the directories on the way to it into a tree. -/
def takeWay (tree : Tree) (path : Path) : IO Tree := do
  let mut tree := tree
  for count in List.range path.names.length do
    let above := { path with names := path.names.take count }
    if ← ((← IO.currentDir) / above.toText.toDisplay).isDir then
      tree := tree.put above .directory
  takePath tree path

/-- The tree of all files at paths. -/
def takePaths (paths : List Path) : IO Tree := do
  let directory := Text.ofString (← IO.currentDir).toString
  paths.foldlM takeWay (Tree.empty directory)

end KeyAudit

/-- Run the program on the files of the working directory. -/
def main (arguments : List String) : IO UInt32 := do
  let texts := arguments.map KeyAudit.Text.ofString
  let settingsTree ← KeyAudit.takePaths (KeyAudit.pathsRead (.empty []) texts)
  let tree ← KeyAudit.takePaths (KeyAudit.pathsRead settingsTree texts)
  let result := KeyAudit.RunResult.ofArguments tree texts
  (← IO.getStdout).putStr result.output.toDisplay
  for line in result.console do
    IO.eprintln line.toDisplay
  return UInt32.ofNat result.exitCode
