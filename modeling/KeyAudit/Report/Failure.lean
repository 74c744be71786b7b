import KeyAudit.Class.FieldType
import KeyAudit.Code.Decode
import KeyAudit.Frame.Analysis

namespace KeyAudit

/-!
# Failures as they are reported

Every failure has a kind with a stable code, a message and, depending on the
kind, the thing that it is about.
-/

/-- The kinds of failures with what they are about. -/
inductive FailureKind where
  /-- Bad settings, or nothing to work on. -/
  | settings
  /-- A key document that cannot be read. -/
  | document (path : Option Text)
  /-- Bytes that are not a class. -/
  | classFormat
  /-- A text that is not a descriptor. -/
  | descriptor (text : Text)
  /-- Code that cannot be decoded. -/
  | decode (offset : Option Int)
  /-- A method whose frames cannot be computed. -/
  | analysis
  /-- Declared and used keys that disagree. -/
  | disagreement (keys : List Text)
  | missingKeys (keys : List Text)
  | unusedKeys (keys : List Text)
  deriving Repr, DecidableEq

namespace FailureKind

/-- The stable code of a kind. -/
def code : FailureKind → String
  | .settings => "MK-1000"
  | .document _ => "MK-1001"
  | .classFormat => "MK-2000"
  | .descriptor _ => "MK-2001"
  | .decode _ => "MK-2002"
  | .analysis => "MK-3000"
  | .disagreement _ => "MK-4000"
  | .missingKeys _ => "MK-4001"
  | .unusedKeys _ => "MK-4002"

end FailureKind

/-- A failure with its message. -/
structure Failure where
  kind : FailureKind
  message : Text
  deriving Repr, DecidableEq

namespace Failure

/-- The stable code of a failure. -/
def code (failure : Failure) : Text :=
  failure.kind.code

/-- The code in brackets and the message. -/
def display (failure : Failure) : Text :=
  "[" ++ failure.code ++ "] " ++ failure.message

/-- Bad settings. -/
def settings (message : Text) : Failure :=
  ⟨.settings, message⟩

/-- A key document that cannot be read. -/
def document (message : Text) (path : Option Text) : Failure :=
  ⟨.document path, message⟩

/-- Bytes that are not a class. -/
def classFormat (message : Text) : Failure :=
  ⟨.classFormat, message⟩

/-- A text that is not a descriptor. -/
def descriptor (message text : Text) : Failure :=
  ⟨.descriptor text, message⟩

/-- Code that cannot be decoded; the message ends in the offset, if there is one. -/
def decode (message : Text) (offset : Option Int) : Failure :=
  let place : Text := match offset with
    | none => ""
    | some offset => " (at offset " ++ Text.ofInt offset ++ ")"
  ⟨.decode offset, message ++ place⟩

/-- A method whose frames cannot be computed. -/
def analysis (message : Text) : Failure :=
  ⟨.analysis, message⟩

/-- A headline with the keys that it is about, in order. -/
def keyMessage (headline : String) (keys : List Text) : Text :=
  headline ++ ": " ++ Text.joinWith ", " keys

/-- Keys that disagree. -/
def disagreement (keys : List Text) : Failure :=
  let keys := Text.sorted keys
  ⟨.disagreement keys, keyMessage "Message key validation failed" keys⟩

/-- Keys that are used and not declared. -/
def missingKeys (keys : List Text) : Failure :=
  let keys := Text.sorted keys
  ⟨.missingKeys keys, keyMessage "Missing message keys in YAML" keys⟩

/-- Keys that are declared and not used. -/
def unusedKeys (keys : List Text) : Failure :=
  let keys := Text.sorted keys
  ⟨.unusedKeys keys, keyMessage "Unused message keys in YAML" keys⟩

end Failure

/-- The report of a class fault. -/
def ClassFault.toFailure (fault : ClassFault) : Failure :=
  .classFormat fault.message

/-- The report of a descriptor fault. -/
def DescriptorFault.toFailure (fault : DescriptorFault) : Failure :=
  .descriptor fault.message fault.text

/-- The report of a decode fault. -/
def DecodeFault.toFailure (fault : DecodeFault) : Failure :=
  .decode fault.cause.message fault.offset

/-- The report of an analysis fault. -/
def AnalysisFault.toFailure (fault : AnalysisFault) : Failure :=
  .analysis fault.message

/-- The report of a step fault. -/
def StepFault.toFailure : StepFault → Failure
  | .descriptor fault => fault.toFailure
  | .analysis fault => fault.toFailure

/-- The report of a method fault. -/
def MethodFault.toFailure : MethodFault → Failure
  | .decode fault => fault.toFailure
  | .step fault => fault.toFailure

end KeyAudit
