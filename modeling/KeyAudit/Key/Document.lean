import KeyAudit.Data.Entries
import KeyAudit.Report.Trouble
import KeyAudit.Yaml.Document

namespace KeyAudit

/-!
# Documents that declare keys

A key is declared by an entry whose data is text.  All other entries, such as
the mappings on the way, are kept and declare nothing.
-/

/-- A document with its entries by path. -/
structure KeyDocument where
  path : Text
  entries : Entries
  deriving Repr

namespace KeyDocument

/-- The declared keys in order. -/
def declared (document : KeyDocument) : List Text :=
  Text.sortedDistinct document.entries.textNames

/-- The document of data at a path; all its paths must be written. -/
def ofDatum (path : Text) (root : Datum) : Except Trouble KeyDocument :=
  match root.flattenFault? with
  | none => .ok ⟨path, root.flatten []⟩
  | some fault => .error (.badValue fault)

/-- Read a document from text. -/
def parse (text path : Text) : Except Trouble KeyDocument :=
  match Yaml.read text with
  | .ok root => ofDatum path root
  | .error .malformed =>
      .error (.failure (.document ("Failed to parse YAML file: " ++ path) (some path)))
  | .error (.badValue fault) => .error (.badValue fault)

/-- The keys that some document declares. -/
def declaredByAny (documents : List KeyDocument) : List Text :=
  Text.sortedDistinct (documents.flatMap declared)

end KeyDocument

end KeyAudit
