import KeyAudit.Report.Failure

namespace KeyAudit

/-!
# Diagnostics

A diagnostic records a failure that does not stop the work, with the class file
or archive and the method that it concerns.
-/

/-- How serious a diagnostic is. -/
inductive Severity where
  | error | warning | information
  deriving Repr, DecidableEq

namespace Severity

/-- The name of a severity. -/
def label : Severity → String
  | .error => "error"
  | .warning => "warning"
  | .information => "information"

/-- All severities. -/
def all : List Severity := [.error, .warning, .information]

end Severity

/-- A failure at a place. -/
structure Diagnostic where
  severity : Severity
  code : Text
  message : Text
  /-- The class file, archive or archive entry. -/
  unit : Text
  /-- Name and descriptor of the method, or nothing. -/
  method : Text
  deriving Repr, DecidableEq

namespace Diagnostic

/-- A warning about a failure. -/
def ofFailure (failure : Failure) (unit method : Text) : Diagnostic :=
  ⟨.warning, failure.code, failure.message, unit, method⟩

/-- The unit, and the method after a number sign. -/
def location (diagnostic : Diagnostic) : Text :=
  if diagnostic.method.isEmpty then
    diagnostic.unit
  else
    diagnostic.unit ++ "#" ++ diagnostic.method

/-- The line of a diagnostic. -/
def line (diagnostic : Diagnostic) : Text :=
  let location := diagnostic.location
  (if location.isEmpty then ("<input>" : Text) else location) ++ ": " ++
    diagnostic.severity.label ++ ": " ++ diagnostic.message ++ " [" ++ diagnostic.code ++ "]"

/-- The lines of diagnostics in order. -/
def listing (diagnostics : List Diagnostic) : Text :=
  Text.joinWith "\n" (diagnostics.map line)

/-- Order by unit, then by method, then by message. -/
def le (first second : Diagnostic) : Bool :=
  let keys (diagnostic : Diagnostic) : List Text :=
    [diagnostic.unit, diagnostic.method, diagnostic.message]
  Text.rowLe (keys first) (keys second)

/-- Sort by unit, method and message; diagnostics that agree in these keep their order. -/
def sorted (diagnostics : List Diagnostic) : List Diagnostic :=
  diagnostics.mergeSort le

end Diagnostic

end KeyAudit
