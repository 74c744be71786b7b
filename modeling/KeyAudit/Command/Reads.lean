import KeyAudit.Command.Run

namespace KeyAudit

/-!
# The paths that a run reads

The paths depend on the settings file, so they are asked for twice: first
without any file, which names the settings file, and then with it.
-/

/-- The settings file, and the paths that the settings name. -/
def ScanArguments.paths (arguments : ScanArguments) (tree : Tree) : List Path :=
  let named := match (arguments.settings tree).result.1 with
    | .ok settings => settings.messageFiles ++ settings.classesDirs
    | .error _ => []
  (arguments.settingsFile.toList ++ named).map Path.ofText

/-- The paths that a command reads, as far as the files of a tree tell. -/
def Command.paths (tree : Tree) : Command → List Path
  | .validate arguments => arguments.paths tree
  | .keys arguments => arguments.paths tree
  | .flatten files _ => files.map Path.ofText
  | .flow file _ _ => [Path.ofText file]

/-- The paths that a run with arguments reads, as far as the files of a tree tell. -/
def pathsRead (tree : Tree) (arguments : List Text) : List Path :=
  match CommandLine.read arguments with
  | .ok ⟨_, some command⟩ => command.paths tree
  | _ => []

end KeyAudit
