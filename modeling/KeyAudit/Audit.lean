import KeyAudit.Key.Document
import KeyAudit.Key.Verdict
import KeyAudit.Scan.Result

namespace KeyAudit

/-!
# Audits

An audit reads the key documents and the classes that the settings name and
compares the keys of both.
-/

namespace KeyDocument

/-- Read the document at a path. -/
def load (tree : Tree) (path : Path) : Except Trouble KeyDocument :=
  let unreadable : Trouble := .failure <|
    .document ("Failed to read YAML file: " ++ path.toText) (some path.toText)
  match tree.readBytes path with
  | .error _ => .error unreadable
  | .ok bytes =>
      match Tree.textOfBytes bytes with
      | .error _ => .error unreadable
      | .ok text => parse text (path.absoluteText tree.directory)

/-- The failure when no document is there. -/
def noneFound : Failure :=
  .settings "No message files found. Configure messages_file / additional_messages_files."

/-- Read the documents at paths; paths without a file are passed over, but not all. -/
def loadAll (tree : Tree) (paths : List Path) : Logged Trouble (List KeyDocument) := do
  for path in paths do
    if let some fault := tree.obstacle? path then
      throw (.path fault)
    if !tree.isFile path then
      Logged.log .debug .documents ("Skipping missing message file " ++ path.toText)
  let present := paths.filter tree.isFile
  if present.isEmpty then
    throw (.failure noneFound)
  let documents ← Logged.ofExcept (present.mapM (load tree))
  for document in documents do
    Logged.log .debug .documents
      ("Loaded " ++ Text.ofNat document.entries.length ++ " entries from " ++ document.path)
  return documents

end KeyDocument

namespace Settings

/-- The mapping of a settings file. -/
def mappingOf (path : Path) (text : Text) : Except Trouble (List (Scalar × Datum)) :=
  match Yaml.read text with
  | .ok root =>
      match root.entries?, root.isNull with
      | some entries, _ => .ok entries
      | none, true => .ok []
      | none, false =>
          .error <| .failure <|
            .settings ("configuration file " ++ path.toText ++ " must contain a mapping")
  | .error .malformed =>
      .error (.failure (.settings ("invalid YAML in configuration file " ++ path.toText)))
  | .error (.badValue fault) => .error (.badValue fault)

/-- Read the settings file at a path. -/
def load (tree : Tree) (path : Path) : Logged Trouble Settings := do
  if let some fault := path.nameless? then
    throw (.path fault)
  let bytes ← Logged.ofExcept <| (tree.readBytes path).mapError fun fault =>
    Trouble.failure <|
      .settings ("cannot read configuration file " ++ path.toText ++ ": " ++ fault.message)
  let text ← Logged.ofExcept ((Tree.textOfBytes bytes).mapError Trouble.badText)
  let mapping ← Logged.ofExcept (mappingOf path text)
  let settings ← Logged.ofExcept ((ofMapping mapping).mapError Trouble.ofSettings)
  Logged.log .debug .settings ("Loaded configuration from " ++ path.toText)
  return settings

/-- The classes that the settings name, and what went wrong. -/
def classInputs (settings : Settings) (tree : Tree) :
    Logged Trouble (List ClassInput × List Diagnostic) :=
  ExceptT.adapt Trouble.path (ClassInput.atPaths tree (settings.classesDirs.map Path.ofText))

end Settings

/-- Everything that an audit found. -/
structure AuditReport where
  verdict : Verdict
  /-- The declared keys in order. -/
  declared : List Text
  scan : ScanResult
  /-- The paths of the key documents. -/
  documents : List Text
  deriving Repr, DecidableEq

/-- Scan classes for keys; diagnostics on the way to the classes come first. -/
def scanFor (settings : Settings) (tree : Tree) (inputs : List ClassInput)
    (diagnostics : List Diagnostic) : Logged Trouble ScanResult := do
  let result ← ScanResult.ofInputs tree inputs settings.extractor
  return { result with diagnostics := diagnostics ++ result.diagnostics }

/-- Compare the declared with the used keys. -/
def audit (settings : Settings) (tree : Tree) : Logged Trouble AuditReport := do
  let documents ← KeyDocument.loadAll tree (settings.messageFiles.map Path.ofText)
  let declared := KeyDocument.declaredByAny documents
  Logged.log .info .settings
    ("Declared " ++ Text.ofNat declared.length ++ " keys in " ++ Text.ofNat documents.length ++
      " message files")
  let (inputs, diagnostics) ← settings.classInputs tree
  if inputs.isEmpty then
    Logged.log .info .settings "No class files to scan"
  let scan ← scanFor settings tree inputs diagnostics
  let verdict :=
    Verdict.compare declared scan.keys settings.alwaysUsedKeys settings.failOnUnusedKeys
  return ⟨verdict, declared, scan, documents.map KeyDocument.path⟩

end KeyAudit
