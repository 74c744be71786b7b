import KeyAudit.Report.Trouble
import KeyAudit.Scan.Input

namespace KeyAudit

/-!
# Scans

A scan reads classes one after the other and adds up what they use.  A class
that cannot be read is counted and reported, and the scan goes on; only a path
that names nothing and an archive with a fault that is not reported stop it.
-/

/-- What a scan found. -/
structure ScanResult where
  /-- The used keys in order. -/
  keys : List Text
  diagnostics : List Diagnostic
  scanned : Nat
  failed : Nat
  analysed : Nat
  deriving Repr, DecidableEq

/-- The part of a scan that one class is, and whether the class failed. -/
structure ScanPart where
  found : ClassKeys
  failed : Bool
  deriving Repr, DecidableEq

namespace ScanResult

/-- A scan of no class. -/
def empty : ScanResult :=
  ⟨[], [], 0, 0, 0⟩

/-- Add a class. -/
def add (result : ScanResult) (part : ScanPart) : ScanResult where
  keys := Text.sortedDistinct (result.keys ++ part.found.keys)
  diagnostics := result.diagnostics ++ part.found.diagnostics
  scanned := if part.failed then result.scanned else result.scanned + 1
  failed := if part.failed then result.failed + 1 else result.failed
  analysed := result.analysed + part.found.analysed

/-- The sum of classes in the order in which they are added. -/
def total (parts : List ScanPart) : ScanResult :=
  parts.foldl add empty

/-- The result of classes: their sum with sorted diagnostics. -/
def ofParts (parts : List ScanPart) : ScanResult :=
  { total parts with diagnostics := Diagnostic.sorted (total parts).diagnostics }

end ScanResult

namespace ClassInput

/-- The class file of an input. -/
def load (input : ClassInput) (tree : Tree) : Except Failure ClassFile := do
  let bytes ← input.read tree
  (ClassFile.parse bytes input.label).mapError ClassFault.toFailure

/-- The part of a scan that an input that cannot be read is. -/
def failedPart (input : ClassInput) (failure : Failure) : ScanPart :=
  ⟨⟨input.label, [], [.ofFailure failure input.label []], 0⟩, true⟩

/-- The part of a scan that an input is. -/
def part (input : ClassInput) (tree : Tree) (extractor : Extractor) :
    Except ExtractFault ScanPart :=
  match input.load tree with
  | .ok file => (extractor.keysOfClass file).map fun found => ⟨found, false⟩
  | .error failure => .ok (input.failedPart failure)

/-- What is logged about an input before its keys are looked for. -/
def logLine (input : ClassInput) (tree : Tree) : Text :=
  match input.load tree with
  | .ok file =>
      file.name ++ ": " ++ Text.ofNat file.pool.size ++ " constant pool slots, " ++
        Text.ofNat file.methods.length ++ " methods"
  | .error _ => "Failed to scan class file for message key usage: " ++ input.label

/-- Scan one class. -/
def scan (input : ClassInput) (tree : Tree) (extractor : Extractor) :
    Logged Trouble ScanPart := do
  if let some fault := input.obstacle? tree then
    throw (.path fault)
  Logged.log .debug .scan (input.logLine tree)
  Logged.ofExcept ((input.part tree extractor).mapError Trouble.ofExtraction)

end ClassInput

namespace ScanResult

/-- The number of classes and keys of a scan in words. -/
def summary (result : ScanResult) : Text :=
  "Scanned " ++ Text.ofNat result.scanned ++ " classes (" ++ Text.ofNat result.failed ++
    " failed), " ++ Text.ofNat result.analysed ++ " methods, " ++
    Text.ofNat result.keys.length ++ " keys"

/-- Scan classes; the diagnostics are sorted. -/
def ofInputs (tree : Tree) (inputs : List ClassInput) (extractor : Extractor) :
    Logged Trouble ScanResult := do
  Logged.log .debug .scan
    ("Scanning " ++ Text.ofNat inputs.length ++ " class files for " ++
      Text.ofNat extractor.sites.toList.length ++ " call-site patterns")
  let parts ← inputs.mapM fun input => input.scan tree extractor
  for diagnostic in (total parts).diagnostics do
    Logged.log .debug .scan diagnostic.line
  Logged.log .info .scan (ofParts parts).summary
  return ofParts parts

end ScanResult

end KeyAudit
