import KeyAudit.Data.Entries
import KeyAudit.Key.Extract

namespace KeyAudit

/-!
# Settings

A run has nine settings.  Their names may be written with underscores, with
hyphens or with capitals, and they come from a mapping, either from the mapping
itself or from its own section in it.  Settings without a value are passed over.
-/

/-- The settings by name. -/
inductive Setting where
  | messagesFile
  | additionalMessagesFiles
  | classesDirs
  | failOnUnusedKeys
  | alwaysUsedKeys
  | messageKeyCallOwners
  | messageKeyCallMethods
  | messageKeyPrefix
  | jobs
  deriving Repr, DecidableEq

namespace Setting

/-- All settings in their order. -/
def all : List Setting :=
  [messagesFile, additionalMessagesFiles, classesDirs, failOnUnusedKeys, alwaysUsedKeys,
    messageKeyCallOwners, messageKeyCallMethods, messageKeyPrefix, jobs]

/-- The name of a setting with underscores. -/
def name : Setting → String
  | messagesFile => "messages_file"
  | additionalMessagesFiles => "additional_messages_files"
  | classesDirs => "classes_dirs"
  | failOnUnusedKeys => "fail_on_unused_keys"
  | alwaysUsedKeys => "always_used_keys"
  | messageKeyCallOwners => "message_key_call_owners"
  | messageKeyCallMethods => "message_key_call_methods"
  | messageKeyPrefix => "message_key_prefix"
  | jobs => "jobs"

/-- An underscore before each capital. -/
def splitCapitals : Text → Text
  | [] => []
  | point :: rest =>
      if point.isCapital then
        CodePoint.ofChar '_' :: point :: splitCapitals rest
      else
        point :: splitCapitals rest

/-- A spelling with underscores and small letters; a first capital gets no underscore. -/
def plainSpelling (spelling : Text) : Text :=
  match Text.substitute '-' '_' spelling with
  | [] => []
  | first :: rest => Text.lowerCase (first :: splitCapitals rest)

/-- The setting that a spelling names. -/
def ofSpelling? (spelling : Text) : Option Setting :=
  all.find? fun setting => Text.ofString setting.name == plainSpelling spelling

end Setting

/-- Why settings cannot be taken over. -/
inductive SettingsFault where
  | unknown (spelling : Text)
  | expectedTexts (setting : Setting) (item : Datum)
  | expectedList (setting : Setting) (value : Datum)
  | expectedFlag (setting : Setting) (value : Datum)
  | expectedCount (setting : Setting) (value : Datum)
  | expectedText (setting : Setting) (value : Datum)
  | sectionNotMapping
  /-- A name that stands for the settings themselves. -/
  | reserved
  /-- A name that is an integer with too many digits to be written. -/
  | longName
  deriving Repr

namespace SettingsFault

/-- A complaint about the value of a setting. -/
def complaint (setting : Setting) (expected : String) (value : Datum) : Text :=
  setting.name ++ ": expected " ++ expected ++ ", got " ++ value.label

/-- The wording of a settings fault. -/
def message : SettingsFault → Text
  | unknown spelling => "unknown configuration setting " ++ spelling.quoted
  | expectedTexts setting item => complaint setting "strings" item
  | expectedList setting value => complaint setting "a list of strings" value
  | expectedFlag setting value => complaint setting "true/false" value
  | expectedCount setting value => complaint setting "a positive integer" value
  | expectedText setting value => complaint setting "a string" value
  | sectionNotMapping => "'msgkeys' must be a mapping"
  | reserved => "ValidationConfig.merged() got multiple values for argument 'self'"
  | longName => ValueFault.longInteger.message

/-- The value that a fault complains about. -/
def value? : SettingsFault → Option Datum
  | expectedTexts _ value => some value
  | expectedList _ value => some value
  | expectedFlag _ value => some value
  | expectedCount _ value => some value
  | expectedText _ value => some value
  | _ => none

end SettingsFault

/-- The settings of a run.  Sets are sorted and have no duplicates. -/
structure Settings where
  /-- The first key document. -/
  messagesFile : Text
  /-- Further key documents. -/
  additionalMessagesFiles : List Text
  /-- Directories, class files and archives. -/
  classesDirs : List Text
  /-- Whether unused keys are a failure. -/
  failOnUnusedKeys : Bool
  /-- Keys that are never unused. -/
  alwaysUsedKeys : List Text
  /-- Owners of wrappers of the built-in call sites. -/
  callOwners : List Text
  /-- Names of wrappers of the built-in call sites. -/
  callMethods : List Text
  /-- What is put before used keys that do not begin with it. -/
  keyPrefix : Text
  /-- How many classes are read at once. -/
  jobs : Nat
  deriving Repr, DecidableEq

namespace Settings

/-- The settings before any is given. -/
def initial : Settings where
  messagesFile := "src/main/resources/messages.yml"
  additionalMessagesFiles := []
  classesDirs := []
  failOnUnusedKeys := true
  alwaysUsedKeys := [Text.ofString "prefix"]
  callOwners := []
  callMethods := [Text.ofString "getMessage", Text.ofString "getRaw"]
  keyPrefix := []
  jobs := 1

/-- All key documents. -/
def messageFiles (settings : Settings) : List Text :=
  settings.messagesFile :: settings.additionalMessagesFiles

/-- The extractor that the settings describe. -/
def extractor (settings : Settings) : Extractor :=
  .ofAllowLists settings.callOwners settings.callMethods settings.keyPrefix

/-- A text, or texts in a list or a set. -/
def textsOf (setting : Setting) (value : Datum) : Except SettingsFault (List Text) :=
  match value.text?, value.items? with
  | some text, _ => .ok [text]
  | none, some items => items.mapM fun item =>
      match item.text? with
      | some text => .ok text
      | none => .error (.expectedTexts setting item)
  | none, none => .error (.expectedList setting value)

/-- A set of texts. -/
def setOf (setting : Setting) (value : Datum) : Except SettingsFault (List Text) :=
  (textsOf setting value).map Text.sortedDistinct

/-- A truth value. -/
def flagOf (setting : Setting) : Datum → Except SettingsFault Bool
  | .scalar (.bool value) => .ok value
  | value => .error (.expectedFlag setting value)

/-- A positive integer. -/
def countOf (setting : Setting) : Datum → Except SettingsFault Nat
  | .scalar (.int number) =>
      if 1 ≤ number then .ok number.toNat else .error (.expectedCount setting (.scalar (.int number)))
  | value => .error (.expectedCount setting value)

/-- One text. -/
def textOf (setting : Setting) : Datum → Except SettingsFault Text
  | .scalar (.text value) => .ok value
  | value => .error (.expectedText setting value)

/-- Give a setting its value. -/
def assign (settings : Settings) (setting : Setting) (value : Datum) :
    Except SettingsFault Settings :=
  match setting with
  | .messagesFile =>
      (textOf setting value).map fun text => { settings with messagesFile := text }
  | .additionalMessagesFiles =>
      (textsOf setting value).map fun texts => { settings with additionalMessagesFiles := texts }
  | .classesDirs =>
      (textsOf setting value).map fun texts => { settings with classesDirs := texts }
  | .failOnUnusedKeys =>
      (flagOf setting value).map fun flag => { settings with failOnUnusedKeys := flag }
  | .alwaysUsedKeys =>
      (setOf setting value).map fun texts => { settings with alwaysUsedKeys := texts }
  | .messageKeyCallOwners =>
      (setOf setting value).map fun texts => { settings with callOwners := texts }
  | .messageKeyCallMethods =>
      (setOf setting value).map fun texts => { settings with callMethods := texts }
  | .messageKeyPrefix =>
      (textOf setting value).map fun text => { settings with keyPrefix := text }
  | .jobs =>
      (countOf setting value).map fun number => { settings with jobs := number }

/-- Take over one entry; an entry without a value is passed over. -/
def assignEntry (settings : Settings) (entry : Text × Datum) : Except SettingsFault Settings :=
  let (spelling, value) := entry
  if value.isNull then
    .ok settings
  else
    match Setting.ofSpelling? spelling with
    | none => .error (.unknown spelling)
    | some setting => settings.assign setting value

/-- The spelling that no entry may have. -/
def reservedSpelling : Text := "self"

/-- Take over entries in order. -/
def merge (settings : Settings) (entries : Entries) : Except SettingsFault Settings :=
  if entries.any fun (spelling, _) => spelling = reservedSpelling then
    .error .reserved
  else
    entries.foldlM assignEntry settings

/-- The name of the section for settings. -/
def sectionName : Text := "msgkeys"

/-- The mapping that holds the settings: the section, if there is one. -/
def settingsMapping (mapping : List (Scalar × Datum)) :
    Except SettingsFault (List (Scalar × Datum)) :=
  match mapping.find? fun (key, _) => key = .text sectionName with
  | none => .ok mapping
  | some (_, value) =>
      match value.entries?, value.isNull with
      | some entries, _ => .ok entries
      | none, true => .ok []
      | none, false => .error .sectionNotMapping

/-- The settings of a mapping. -/
def ofMapping (mapping : List (Scalar × Datum)) : Except SettingsFault Settings := do
  let mapping ← settingsMapping mapping
  if mapping.any fun (key, _) => key.isLongInteger then
    throw .longName
  initial.merge (Entries.ofPairs (mapping.map fun (key, value) => (key.toText, value)))

/-- The data of one setting. -/
def valueOf (settings : Settings) : Setting → Datum
  | .messagesFile => .text settings.messagesFile
  | .additionalMessagesFiles => .list (settings.additionalMessagesFiles.map .text)
  | .classesDirs => .list (settings.classesDirs.map .text)
  | .failOnUnusedKeys => .scalar (.bool settings.failOnUnusedKeys)
  | .alwaysUsedKeys => .list (settings.alwaysUsedKeys.map .text)
  | .messageKeyCallOwners => .list (settings.callOwners.map .text)
  | .messageKeyCallMethods => .list (settings.callMethods.map .text)
  | .messageKeyPrefix => .text settings.keyPrefix
  | .jobs => .scalar (.int settings.jobs)

/-- The settings as entries. -/
def toEntries (settings : Settings) : Entries :=
  Setting.all.map fun setting => (Text.ofString setting.name, settings.valueOf setting)

end Settings

end KeyAudit
