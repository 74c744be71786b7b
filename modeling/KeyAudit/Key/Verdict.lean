import KeyAudit.Log
import KeyAudit.Report.Failure

namespace KeyAudit

/-!
# The verdict on declared and used keys

A used key that is not declared is missing, which is always a failure.  A
declared key that is neither used nor exempt is unused, which is a failure only
if the comparison is strict and a warning otherwise.
-/

/-- How declared and used keys disagree. -/
structure Verdict where
  missing : List Text
  unused : List Text
  strict : Bool
  deriving Repr, DecidableEq

namespace Verdict

/-- Compare declared with used keys; exempt keys are never unused. -/
def compare (declared used exempt : List Text) (strict : Bool) : Verdict where
  missing := Text.sortedDistinct (used.filter fun key => !declared.contains key)
  unused := Text.sortedDistinct <|
    declared.filter fun key => !used.contains key && !exempt.contains key
  strict := strict

/-- Whether the keys agree as far as they must. -/
def ok (verdict : Verdict) : Bool :=
  verdict.missing.isEmpty && !(verdict.strict && !verdict.unused.isEmpty)

/-- The failure of a verdict; missing keys come before unused ones. -/
def failure? (verdict : Verdict) : Option Failure :=
  if !verdict.missing.isEmpty then
    some (.missingKeys verdict.missing)
  else if verdict.strict && !verdict.unused.isEmpty then
    some (.unusedKeys verdict.unused)
  else
    none

/-- Fail as the verdict says; unused keys that are no failure are logged. -/
def require (verdict : Verdict) : Logged Failure Unit :=
  match verdict.failure? with
  | some failure => throw failure
  | none =>
      if verdict.unused.isEmpty then
        pure ()
      else
        Logged.log .warning .verdict (Failure.keyMessage "Unused message keys in YAML" verdict.unused)

end Verdict

end KeyAudit
