import KeyAudit.Audit
import KeyAudit.Command.Line
import KeyAudit.Report.Json

namespace KeyAudit

/-!
# Runs of the program

A run writes to its output and to its console and ends with an exit code: 0 for
success, 1 if keys disagree or a method is not there, 2 if there is nothing to
work on or something cannot be read.
-/

/-- What a run leaves behind. -/
structure RunResult where
  exitCode : Nat
  output : Text
  /-- The lines on the console. -/
  console : List Text
  deriving Repr, DecidableEq

/-- A diagnostic in a report. -/
def Diagnostic.toJson (diagnostic : Diagnostic) : JsonValue :=
  .ofFields
    [("severity", .text diagnostic.severity.label),
      ("code", .text diagnostic.code),
      ("message", .text diagnostic.message),
      ("unit", .text diagnostic.unit),
      ("method", .text diagnostic.method)]

/-- An audit as a report. -/
def AuditReport.toJson (report : AuditReport) : JsonValue :=
  .ofFields
    [("ok", .bool report.verdict.ok),
      ("strict", .bool report.verdict.strict),
      ("missing", .texts report.verdict.missing),
      ("unused", .texts report.verdict.unused),
      ("declared", .number report.declared.length),
      ("extracted", .texts report.scan.keys),
      ("documents", .texts report.documents),
      ("classes_scanned", .number report.scan.scanned),
      ("classes_failed", .number report.scan.failed),
      ("methods_analyzed", .number report.scan.analysed),
      ("diagnostics", .list (report.scan.diagnostics.map Diagnostic.toJson))]

/-- Lines with a line feed after each. -/
def linesText (lines : List Text) : Text :=
  lines.flatMap fun line => line ++ "\n"

/-- The level of the least important records on the console. -/
def logLevelOf (verbosity : Nat) : LogLevel :=
  match verbosity with
  | 0 => .warning
  | 1 => .info
  | _ => .debug

/-- The console lines of records that are important enough. -/
def consoleLines (level : LogLevel) (records : List LogRecord) : List Text :=
  (records.filter (LogRecord.isAtLeast level)).flatMap fun record =>
    Text.splitAtEach '\n' record.consoleLine

/-- What an argument was given as data; without a value it is an empty list. -/
def Supplied.toDatum (datum : α → Datum) : Supplied α → Datum
  | nothing => .list []
  | value content => datum content

namespace ScanArguments

/-- Values that a set of texts takes; an empty list cannot be in a set. -/
def textsOf (values : List (Supplied Text)) : Except ValueFault (List Text) :=
  values.mapM fun
    | .nothing => .error .listAsKey
    | .value text => .ok text

/-- Entries for the settings that the arguments give; others are without a value. -/
def overrides (arguments : ScanArguments) (settings : Settings) : Except ValueFault Entries := do
  let entry (setting : Setting) (value : Datum) : Text × Datum :=
    (Text.ofString setting.name, value)
  let texts (values : List Text) : Datum := .list (values.map .text)
  let data (values : List (Supplied Text)) : Datum := .list (values.map (Supplied.toDatum .text))
  let added (setting : Setting) (present : List Text) (more : List (Supplied Text)) :
      Except ValueFault Entries := do
    let more ← textsOf more
    return if more.isEmpty then [] else [entry setting (texts (present ++ more))]
  let messages : Entries := match arguments.messages with
    | [] => []
    | first :: rest =>
        [entry .messagesFile (first.toDatum .text), entry .additionalMessagesFiles (data rest)]
  let number (value : Int) : Datum := .scalar (.int value)
  let single : Entries :=
    [entry .classesDirs (if arguments.classes.isEmpty then .null else texts arguments.classes),
      entry .messageKeyPrefix ((arguments.keyPrefix.map (Supplied.toDatum .text)).getD .null),
      entry .jobs ((arguments.jobs.map (Supplied.toDatum number)).getD .null),
      entry .failOnUnusedKeys ((arguments.strict.map fun flag => .scalar (.bool flag)).getD .null)]
  let alwaysUsed ← added .alwaysUsedKeys settings.alwaysUsedKeys arguments.alwaysUsed
  let owners ← added .messageKeyCallOwners settings.callOwners arguments.owners
  let methods ← added .messageKeyCallMethods settings.callMethods arguments.methods
  return single ++ messages ++ alwaysUsed ++ owners ++ methods

/-- The settings of a run: those of the settings file, then those of the arguments. -/
def settings (arguments : ScanArguments) (tree : Tree) : Logged Trouble Settings := do
  let settings ← match arguments.settingsFile with
    | none => pure Settings.initial
    | some file => Settings.load tree (Path.ofText file)
  let overrides ← Logged.ofExcept ((arguments.overrides settings).mapError Trouble.badValue)
  Logged.ofExcept ((settings.merge overrides).mapError Trouble.ofSettings)

end ScanArguments

namespace RunResult

/-- A record of the program itself. -/
def errorLine (message : Text) : List Text :=
  consoleLines .error [⟨.error, .program, message⟩]

/-- Whether settings or key documents are to blame for a trouble. -/
def isAboutInput : Trouble → Bool
  | .failure ⟨.settings, _⟩ => true
  | .failure ⟨.document _, _⟩ => true
  | _ => false

/-- A run that a trouble stopped. -/
def ofTrouble (console : List Text) (trouble : Trouble) : RunResult :=
  let message : Text :=
    if isAboutInput trouble then trouble.message
    else "Unhandled exception: " ++ trouble.message
  ⟨2, [], console ++ errorLine message⟩

/-- The line of a comparison without a failure. -/
def successLine (report : AuditReport) : Text :=
  let unused : Text :=
    if report.verdict.unused.isEmpty then ""
    else ", " ++ Text.ofNat report.verdict.unused.length ++ " unused"
  "OK: " ++ Text.ofNat report.scan.keys.length ++ " keys used, " ++
    Text.ofNat report.declared.length ++ " declared" ++ unused ++ "\n"

/-- The end of a comparison, whose report is written before its verdict. -/
def ofReport (level : LogLevel) (console : List Text) (form : ReportForm)
    (report : AuditReport) : RunResult :=
  let isText := form = .text
  let output := if isText then [] else report.toJson.sortFields.document
  let diagnostics := if isText then report.scan.diagnostics.map Diagnostic.line else []
  let (status, records) := report.verdict.require.result
  let console := console ++ diagnostics.flatMap (Text.splitAtEach '\n') ++
    consoleLines level records
  match status with
  | .error failure =>
      let message : Text := if isText then failure.message ++ "\n" else []
      ⟨1, output ++ message, console ++ errorLine failure.display⟩
  | .ok _ => ⟨0, output ++ (if isText then successLine report else []), console⟩

/-- Compare declared with used keys. -/
def validate (tree : Tree) (level : LogLevel) (arguments : ScanArguments) : RunResult :=
  let work : Logged Trouble AuditReport := do
    audit (← arguments.settings tree) tree
  let (result, records) := work.result
  let console := consoleLines level records
  match result with
  | .error trouble => ofTrouble console trouble
  | .ok report => ofReport level console arguments.form report

/-- List the used keys. -/
def keys (tree : Tree) (level : LogLevel) (arguments : ScanArguments) : RunResult :=
  let work : Logged Trouble ScanResult := do
    let settings ← arguments.settings tree
    let (inputs, diagnostics) ← settings.classInputs tree
    scanFor settings tree inputs diagnostics
  let (result, records) := work.result
  let console := consoleLines level records
  match result, arguments.form with
  | .error trouble, _ => ofTrouble console trouble
  | .ok scan, .text => ⟨0, linesText scan.keys, console⟩
  | .ok scan, .json =>
      let report : JsonValue := .ofFields
        [("keys", .texts scan.keys), ("diagnostics", .list (scan.diagnostics.map Diagnostic.toJson))]
      ⟨0, report.document, console⟩

/-- List the declared keys. -/
def flatten (tree : Tree) (level : LogLevel) (files : List Text) (form : ReportForm) : RunResult :=
  let (result, records) := (KeyDocument.loadAll tree (files.map Path.ofText)).result
  let console := consoleLines level records
  match result with
  | .error trouble => ofTrouble console trouble
  | .ok documents =>
      let keys := KeyDocument.declaredByAny documents
      let output := match form with
        | .text => linesText keys
        | .json => (JsonValue.ofFields [("keys", .texts keys)]).document
      ⟨0, output, console⟩

/-- The text of the flow through a method. -/
def flowText (pool : Pool) (form : GraphForm) (method : Method × Body) :
    Except DecodeFault Text := do
  let instructions ← Code.decode method.2.code pool
  let flow ← CodeFlow.build method.1.signature instructions method.2.handlers
  let lines := match form with
    | .text => flow.summary
    | .dot => flow.dot []
  return Text.joinWith "\n" lines

/-- Show the flow through the methods of a name. -/
def flow (tree : Tree) (file : Text) (method : Supplied Text) (form : GraphForm) : RunResult :=
  let path := Path.ofText file
  let unreadable (message : Text) : RunResult := ⟨2, [], errorLine message⟩
  match path.nameless?, tree.readBytes path with
  | some fault, _ => ofTrouble [] (.path fault)
  | none, .error fault => unreadable fault.message
  | none, .ok bytes =>
      match ClassFile.parse bytes path.toText with
      | .error fault => unreadable fault.toFailure.display
      | .ok parsed =>
          let methods := parsed.methodsWithCode.filter fun (candidate, _) =>
            method = .value candidate.name || method = .value candidate.signature
          if methods.isEmpty then
            ⟨1, [], errorLine
              ("No method " ++ (method.toDatum .text).label ++ " with code in " ++ parsed.name)⟩
          else
            match methods.mapM (flowText parsed.pool form) with
            | .error fault => unreadable fault.toFailure.display
            | .ok texts => ⟨0, linesText texts, []⟩

/-- Run a command. -/
def ofCommand (tree : Tree) (level : LogLevel) : Command → RunResult
  | .validate arguments => validate tree level arguments
  | .keys arguments => keys tree level arguments
  | .flatten files form => flatten tree level files form
  | .flow file method form => flow tree file method form

/-- Run the program with arguments; without a command nothing is done. -/
def ofArguments (tree : Tree) (arguments : List Text) : RunResult :=
  match CommandLine.read arguments with
  | .error (.misuse program message) =>
      ⟨2, [], Text.splitAtEach '\n' (program ++ ": error: " ++ message)⟩
  | .error (.stop .version) => ⟨0, linesText [CommandLine.version], []⟩
  | .error (.stop _) => ⟨0, [], []⟩
  | .ok ⟨_, none⟩ => ⟨2, [], []⟩
  | .ok ⟨verbosity, some command⟩ => ofCommand tree (logLevelOf verbosity) command

end RunResult

end KeyAudit
