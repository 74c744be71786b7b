import KeyAudit.Key.Extract
import KeyAudit.Settings
import KeyAudit.Tree.Basic

namespace KeyAudit

/-!
# What can stop a run

Most troubles are failures with a code.  The others come from input that no
failure describes: a value of a document that does not exist, settings that are
not text, a reserved name among the settings, a call site that names no argument,
a path that no file can have, an archive that cannot be unpacked.
-/

/-- What stopped a run. -/
inductive Trouble where
  | failure (failure : Failure)
  | badValue (fault : ValueFault)
  | badText (fault : Utf8Fault)
  | reservedSetting
  | extraction (fault : ExtractFault)
  | path (fault : PathFault)
  deriving Repr, DecidableEq

/-- The wording of a fault of extraction. -/
def ExtractFault.message : ExtractFault → Text
  | .method fault => fault.toFailure.display
  | .argumentPosition position => "argument index " ++ Text.ofInt position ++ " out of range"
  | .noArgument => "tuple index out of range"

namespace Trouble

/-- The wording of a trouble. -/
def message : Trouble → Text
  | .failure reported => reported.display
  | .badValue fault => fault.message
  | .badText fault => fault.message
  | .reservedSetting => SettingsFault.message .reserved
  | .extraction fault => fault.message
  | .path fault => fault.message

/-- The trouble of a settings fault; a complaint may be too long to be written. -/
def ofSettings (fault : SettingsFault) : Trouble :=
  match fault with
  | .reserved => .reservedSetting
  | .longName => .badValue .longInteger
  | fault =>
      if fault.value?.any Datum.holdsLongInteger then .badValue .longInteger
      else .failure (.settings fault.message)

/-- The trouble of a fault of extraction. -/
def ofExtraction : ExtractFault → Trouble
  | .method fault => .failure fault.toFailure
  | fault => .extraction fault

end Trouble

end KeyAudit
