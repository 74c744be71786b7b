import KeyAudit.Command.Grammar

namespace KeyAudit

/-!
# The command line

The program has four commands, each with its own options.  Options of the
program itself come before the command.
-/

/-- The options and places of the program and its commands. -/
inductive Argument where
  | help
  | version
  | verbose
  | command
  | classes
  | settingsFile
  | keyPrefix
  | owner
  | method
  | jobs
  | messages
  | alwaysUsed
  | strict
  | lenient
  | format
  | files
  | classFile
  | methodName
  deriving Repr, DecidableEq

/-- The form of a report. -/
inductive ReportForm where
  | text
  | json
  deriving Repr, DecidableEq

/-- The form of a graph. -/
inductive GraphForm where
  | text
  | dot
  deriving Repr, DecidableEq

/-- A value of an argument; an argument may be given without one. -/
inductive Supplied (α : Type) where
  | nothing
  | value (value : α)
  deriving Repr, DecidableEq

/-- The value, if there is one. -/
def Supplied.value? : Supplied α → Option α
  | nothing => none
  | value content => some content

/-- Read the value of an argument on. -/
def Supplied.bind (read : α → Option β) : Supplied α → Supplied β
  | nothing => nothing
  | value content => match read content with
    | some content => value content
    | none => nothing

/-- The arguments of the commands that scan classes. -/
structure ScanArguments where
  classes : List Text
  settingsFile : Option Text
  keyPrefix : Option (Supplied Text)
  owners : List (Supplied Text)
  methods : List (Supplied Text)
  jobs : Option (Supplied Int)
  messages : List (Supplied Text)
  alwaysUsed : List (Supplied Text)
  strict : Option Bool
  form : ReportForm
  deriving Repr, DecidableEq

/-- What the program is asked to do. -/
inductive Command where
  /-- Compare declared with used keys. -/
  | validate (arguments : ScanArguments)
  /-- List the used keys. -/
  | keys (arguments : ScanArguments)
  /-- List the declared keys. -/
  | flatten (files : List Text) (form : ReportForm)
  /-- Show the flow through the methods of a name. -/
  | flow (file : Text) (method : Supplied Text) (form : GraphForm)
  deriving Repr, DecidableEq

/-- A command, if there is one, and how much to log. -/
structure Invocation where
  verbosity : Nat
  command : Option Command
  deriving Repr, DecidableEq

namespace CommandLine

/-- The name of the program. -/
def program : Text := "msgkeys"

/-- The version of the program. -/
def version : Text := program ++ " 0.3.0"

/-- An option with names. -/
def named (id : Argument) (names : List String) (effect : OptionEffect) : OptionForm Argument :=
  ⟨id, names.map Text.ofString, effect, []⟩

/-- The option for help. -/
def helpOption : OptionForm Argument :=
  named .help ["-h", "--help"] .stop

/-- The option for the form of a report. -/
def formatOption (choices : List String) : OptionForm Argument :=
  named .format ["-f", "--format"] (.value (.choice (choices.map Text.ofString)))

/-- The names of the forms of reports. -/
def reportForms : List String := ["text", "json"]

/-- The names of the forms of graphs. -/
def graphForms : List String := ["text", "dot"]

/-- The options of the commands that scan classes. -/
def scanOptions : List (OptionForm Argument) :=
  [helpOption,
    named .settingsFile ["-c", "--config"] (.value .any),
    named .keyPrefix ["--prefix"] (.value .any),
    named .owner ["--owner"] (.value .any),
    named .method ["--method"] (.value .any),
    named .jobs ["-j", "--jobs"] (.value .integer)]

/-- The options of a comparison of keys. -/
def validateOptions : List (OptionForm Argument) :=
  scanOptions ++
    [named .messages ["-m", "--messages"] (.value .any),
      named .alwaysUsed ["--always-used"] (.value .any),
      { named .strict ["--strict"] .flag with excludes := [.lenient] },
      { named .lenient ["--lenient"] .flag with excludes := [.strict] },
      formatOption reportForms]

/-- The place for classes. -/
def classesPlace : PlaceForm Argument :=
  ⟨.classes, "CLASSES", .any⟩

/-- The grammar of a command. -/
def commandGrammar (name : String) (options : List (OptionForm Argument))
    (places : List (PlaceForm Argument)) : Grammar Argument :=
  ⟨program ++ " " ++ name, options, places⟩

/-- The grammars of the commands by name. -/
def commands : List (String × Grammar Argument) :=
  let grammar (name : String) (options : List (OptionForm Argument))
      (places : List (PlaceForm Argument)) : String × Grammar Argument :=
    (name, commandGrammar name options places)
  [grammar "validate" validateOptions [classesPlace],
    grammar "keys" (scanOptions ++ [formatOption reportForms]) [classesPlace],
    grammar "flatten" [helpOption, formatOption reportForms] [⟨.files, "FILE", .atLeastOne⟩],
    grammar "cfg" [helpOption, formatOption graphForms]
      [⟨.classFile, "CLASS", .one⟩, ⟨.methodName, "METHOD", .one⟩]]

/-- The grammar of the program. -/
def mainGrammar : Grammar Argument where
  program := program
  options :=
    [helpOption,
      named .version ["--version"] .stop,
      named .verbose ["-v", "--verbose"] .flag]
  places := [⟨.command, "<command>", .command (commands.map fun (name, _) => Text.ofString name)⟩]

/-- All values of an argument in order. -/
def valuesOf (given : List (Given Argument)) (id : Argument) : List Text :=
  (given.filter fun part => part.id = id).flatMap Given.values

/-- What an option was given each time. -/
def suppliedOf (given : List (Given Argument)) (id : Argument) : List (Supplied Text) :=
  (given.filter fun part => part.id = id).map fun part =>
    match part.values with
    | [] => .nothing
    | value :: _ => .value value

/-- What an option was given last. -/
def lastSupplied? (given : List (Given Argument)) (id : Argument) : Option (Supplied Text) :=
  (suppliedOf given id).getLast?

/-- The value that an option was given last. -/
def valueOf? (given : List (Given Argument)) (id : Argument) : Option Text :=
  (lastSupplied? given id).bind Supplied.value?

/-- The integer of a text that was checked to be one. -/
def integer? (text : Text) : Option Int :=
  (Integer.parse 10 text).toOption

/-- How often an argument is given. -/
def countOf (given : List (Given Argument)) (id : Argument) : Nat :=
  (given.filter fun part => part.id = id).length

/-- Whether comparison is strict, by the last option on it. -/
def strictness? (given : List (Given Argument)) : Option Bool :=
  if 0 < countOf given .strict then some true
  else if 0 < countOf given .lenient then some false
  else none

/-- The form of a report. -/
def reportForm (given : List (Given Argument)) : ReportForm :=
  if valueOf? given .format = some "json" then .json else .text

/-- The arguments of a command that scans classes. -/
def scanArguments (given : List (Given Argument)) : ScanArguments where
  classes := valuesOf given .classes
  settingsFile := (valueOf? given .settingsFile).filter fun path => !path.isEmpty
  keyPrefix := lastSupplied? given .keyPrefix
  owners := suppliedOf given .owner
  methods := suppliedOf given .method
  jobs := (lastSupplied? given .jobs).map (Supplied.bind integer?)
  messages := suppliedOf given .messages
  alwaysUsed := suppliedOf given .alwaysUsed
  strict := strictness? given
  form := reportForm given

/-- The command of a name with its arguments. -/
def commandOf (name : Text) (given : List (Given Argument)) : Command :=
  if name = Text.ofString "validate" then
    .validate (scanArguments given)
  else if name = Text.ofString "keys" then
    .keys (scanArguments given)
  else if name = Text.ofString "flatten" then
    .flatten (valuesOf given .files) (reportForm given)
  else
    let form := if valueOf? given .format = some "dot" then GraphForm.dot else .text
    let method := (lastSupplied? given .methodName).getD .nothing
    .flow ((valueOf? given .classFile).getD []) method form

/-- Read the words of a command, of which the first is its name. -/
def readCommand : List Text → Except (Halt Argument) (Option Command × List Text)
  | [] => .ok (none, [])
  | name :: arguments =>
      match commands.find? fun (other, _) => Text.ofString other = name with
      | none => .ok (none, [])
      | some (_, grammar) => do
          let (given, extras) ← grammar.read arguments
          return (some (commandOf name given), extras)

/-- Read the arguments of the program. -/
def read (arguments : List Text) : Except (Halt Argument) Invocation := do
  let (given, extras) ← mainGrammar.read arguments
  let (command, further) ← readCommand (valuesOf given .command)
  let extras := extras ++ further
  if extras.isEmpty then
    return ⟨countOf given .verbose, command⟩
  else
    mainGrammar.misuse ("unrecognized arguments: " ++ Text.joinWith " " extras)

end CommandLine

end KeyAudit
