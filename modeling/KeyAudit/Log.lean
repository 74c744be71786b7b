import KeyAudit.Text.Basic

namespace KeyAudit

/-!
# Log records

Work that reports on its way leaves log records behind, also when it fails.
-/

/-- How important a log record is, from least to most. -/
inductive LogLevel where
  | debug
  | info
  | warning
  | error
  deriving Repr, DecidableEq

namespace LogLevel

/-- The name of a level. -/
def name : LogLevel → String
  | .debug => "DEBUG"
  | .info => "INFO"
  | .warning => "WARNING"
  | .error => "ERROR"

/-- The place of a level in the order of importance. -/
def rank : LogLevel → Nat
  | .debug => 10
  | .info => 20
  | .warning => 30
  | .error => 40

/-- The level with a name. -/
def ofName? (name : String) : Option LogLevel :=
  [debug, info, warning, error].find? fun level => level.name == name

end LogLevel

/-- The part of the program that writes a log record. -/
inductive LogSource where
  | program
  | settings
  | documents
  | scan
  | verdict
  deriving Repr, DecidableEq

/-- The name of a source. -/
def LogSource.name : LogSource → String
  | .program => "msgkeys"
  | .settings => "msgkeys.config"
  | .documents => "msgkeys.key_documents"
  | .scan => "msgkeys.scanner"
  | .verdict => "msgkeys.validator"

/-- One message of a log. -/
structure LogRecord where
  level : LogLevel
  source : LogSource
  message : Text
  deriving Repr, DecidableEq

namespace LogRecord

/-- Whether a record is at least as important as a level. -/
def isAtLeast (level : LogLevel) (record : LogRecord) : Bool :=
  level.rank ≤ record.level.rank

/-- The level in full, the source and the message. -/
def line (record : LogRecord) : Text :=
  record.level.name ++ " " ++ record.source.name ++ ": " ++ record.message

/-- The level in five letters between brackets, the source and the message. -/
def consoleLine (record : LogRecord) : Text :=
  let level := (Text.ofString record.level.name).take 5
  "[" ++ Text.padRight 5 level ++ "] " ++ record.source.name ++ ": " ++ record.message

end LogRecord

/-- Work that writes log records and may fail. -/
abbrev Logged (ε α : Type) := ExceptT ε (StateM (List LogRecord)) α

namespace Logged

/-- Write a log record. -/
def log (level : LogLevel) (source : LogSource) (message : Text) : Logged ε Unit :=
  modify fun records => records ++ [⟨level, source, message⟩]

/-- Work that writes nothing. -/
def ofExcept (result : Except ε α) : Logged ε α :=
  match result with
  | .ok value => pure value
  | .error fault => throw fault

/-- The result of work and all that it wrote. -/
def result (work : Logged ε α) : Except ε α × List LogRecord :=
  StateT.run (ExceptT.run work) []

end Logged

end KeyAudit
