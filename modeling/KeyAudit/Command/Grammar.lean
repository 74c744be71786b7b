import KeyAudit.Number.Integer
import KeyAudit.Text.Quoted

namespace KeyAudit

/-!
# Command-line grammars

A grammar has options, which begin with a hyphen, and places for the other
arguments.  Long options may be cut short as long as they are told apart, and
one-letter options may be written together and with their value.  After the
argument `--` nothing is an option.  The same two hyphens in the place of a value
stand for no value at all.
-/

/-- What a value must look like. -/
inductive ValueForm where
  | any
  | integer
  | choice (choices : List Text)
  deriving Repr, DecidableEq

/-- What an option does. -/
inductive OptionEffect where
  | flag
  /-- The reading of arguments ends at once. -/
  | stop
  | value (form : ValueForm)
  deriving Repr, DecidableEq

/-- An option with all its names. -/
structure OptionForm (ι : Type) where
  id : ι
  names : List Text
  effect : OptionEffect
  /-- The options that may not be given as well. -/
  excludes : List ι
  deriving Repr, DecidableEq

/-- How many arguments belong to a place. -/
inductive Arity where
  | one
  | any
  | atLeastOne
  /-- A command and everything after it. -/
  | command (choices : List Text)
  deriving Repr, DecidableEq

/-- A place for arguments. -/
structure PlaceForm (ι : Type) where
  id : ι
  name : Text
  arity : Arity
  deriving Repr, DecidableEq

/-- The options and places of a program or command. -/
structure Grammar (ι : Type) where
  program : Text
  options : List (OptionForm ι)
  places : List (PlaceForm ι)
  deriving Repr, DecidableEq

/-- An option or place with its values. -/
structure Given (ι : Type) where
  id : ι
  values : List Text
  deriving Repr, DecidableEq

/-- Why the reading of arguments ended. -/
inductive Halt (ι : Type) where
  | misuse (program message : Text)
  | stop (id : ι)
  deriving Repr, DecidableEq

/-- An argument by its role. -/
inductive Word (ι : Type) where
  | plain (text : Text)
  | separator
  | option (text : Text) (form : Option (OptionForm ι)) (name : Text) (attached : Option Text)
  deriving Repr, DecidableEq

/-- The argument after which nothing is an option. -/
def separatorText : Text := "--"

namespace Word

/-- The argument itself. -/
def text : Word ι → Text
  | .plain argument => argument
  | .separator => separatorText
  | .option argument _ _ _ => argument

/-- Whether an argument is an option. -/
def isOption : Word ι → Bool
  | .option _ _ _ _ => true
  | _ => false

/-- Whether an argument is the separator. -/
def isSeparator : Word ι → Bool
  | .separator => true
  | _ => false

end Word

/-- What is read of the arguments so far. -/
structure Progress (ι : Type) where
  given : List (Given ι)
  /-- The places without arguments so far. -/
  places : List (PlaceForm ι)
  /-- The arguments that belong nowhere. -/
  extras : List Text
  deriving Repr, DecidableEq

/-- The hyphen that begins options. -/
def hyphen : CodePoint := '-'

/-- Digits of any script, at least one. -/
def areDigits (text : Text) : Bool :=
  !text.isEmpty && text.all CodePoint.isDecimal

/-- A text that reads as a negative number; a line feed may end it. -/
def isNegativeNumber : Text → Bool
  | [] => false
  | first :: body =>
      let body := if body.getLast? = some (CodePoint.ofChar '\n') then body.dropLast else body
      let whole := body.takeWhile CodePoint.isDecimal
      let rest := body.drop whole.length
      let isFraction := rest.head? == some (CodePoint.ofChar '.') && areDigits rest.tail
      first == hyphen && (areDigits body || isFraction)

namespace Grammar

variable {ι : Type} [DecidableEq ι]

/-- End with a message about the use of the program. -/
def misuse (grammar : Grammar ι) (message : Text) : Except (Halt ι) α :=
  .error (.misuse grammar.program message)

/-- End with a message about an option or place. -/
def misuseOf (grammar : Grammar ι) (label message : Text) : Except (Halt ι) α :=
  grammar.misuse ("argument " ++ label ++ ": " ++ message)

/-- All names of an option. -/
def labelOf (form : OptionForm ι) : Text :=
  Text.joinWith "/" form.names

/-- End with a message about a value that an option does not take. -/
def ignoredValue (grammar : Grammar ι) (form : OptionForm ι) (value : Text) :
    Except (Halt ι) α :=
  grammar.misuseOf (labelOf form) ("ignored explicit argument " ++ value.quoted)

/-- Each option by each of its names. -/
def byName (grammar : Grammar ι) : List (Text × OptionForm ι) :=
  grammar.options.flatMap fun form => form.names.map fun name => (name, form)

/-- The option with a name. -/
def option? (grammar : Grammar ι) (name : Text) : Option (OptionForm ι) :=
  grammar.byName.lookup name

/-- The part of a text before its first equals sign, and the part after it. -/
def splitAtSign (text : Text) : Text × Option Text :=
  let name := text.takeWhile (· != CodePoint.ofChar '=')
  match text.drop name.length with
  | [] => (name, none)
  | _ :: value => (name, some value)

/-- The options that an argument may mean, if it is not the name of one. -/
def matches? (grammar : Grammar ι) (text : Text) : List (Word ι) :=
  if text[1]? = some hyphen then
    let (start, attached) := splitAtSign text
    grammar.byName.filterMap fun (name, form) =>
      if name.startsWith start then some (.option text (some form) name attached) else none
  else
    grammar.byName.filterMap fun (name, form) =>
      if name = text.take 2 then
        some (.option text (some form) name (some (text.drop 2)))
      else if name.startsWith text then
        some (.option text (some form) name none)
      else
        none

/-- The name of the option that a word is. -/
def nameOf : Word ι → Text
  | .option _ _ name _ => name
  | word => word.text

/-- The role of an argument that begins with a hyphen and is not the name of an option. -/
def partialWord (grammar : Grammar ι) (text : Text) : Except (Halt ι) (Word ι) :=
  match grammar.matches? text with
  | [word] => .ok word
  | [] =>
      if isNegativeNumber text || text.contains (CodePoint.ofChar ' ') then
        .ok (.plain text)
      else
        .ok (.option text none text none)
  | words =>
      grammar.misuse <|
        "ambiguous option: " ++ text ++ " could match " ++ Text.joinWith ", " (words.map nameOf)

/-- The role of an argument. -/
def word (grammar : Grammar ι) (text : Text) : Except (Halt ι) (Word ι) :=
  if text.head? ≠ some hyphen then
    .ok (.plain text)
  else
    match grammar.option? text with
    | some form => .ok (.option text (some form) text none)
    | none =>
        if text.length = 1 then
          .ok (.plain text)
        else
          let (name, attached) := splitAtSign text
          match attached.isSome, grammar.option? name with
          | true, some form => .ok (.option text (some form) name attached)
          | _, _ => grammar.partialWord text

/-- The roles of arguments. -/
def words (grammar : Grammar ι) : List Text → Except (Halt ι) (List (Word ι))
  | [] => .ok []
  | text :: rest =>
      if text = separatorText then
        .ok (.separator :: rest.map .plain)
      else do
        let first ← grammar.word text
        return first :: (← grammar.words rest)

/-- Require a value to have a form. -/
def checkValue (grammar : Grammar ι) (label : Text) (form : ValueForm) (value : Text) :
    Except (Halt ι) Unit :=
  match form with
  | .any => .ok ()
  | .integer =>
      match Integer.parse 10 value with
      | .ok _ => .ok ()
      | .error _ => grammar.misuseOf label ("invalid int value: " ++ value.quoted)
  | .choice choices =>
      if choices.contains value then
        .ok ()
      else
        let names := Text.joinWith ", " (choices.map Text.quoted)
        grammar.misuseOf label
          ("invalid choice: " ++ value.quoted ++ " (choose from " ++ names ++ ")")

/-- Require that no option is given that excludes this one. -/
def checkExcluded (grammar : Grammar ι) (progress : Progress ι) (form : OptionForm ι) :
    Except (Halt ι) Unit :=
  let other := form.excludes.findSome? fun id =>
    if progress.given.any fun given => given.id = id then
      grammar.options.find? fun form => form.id = id
    else
      none
  match other with
  | none => .ok ()
  | some other =>
      grammar.misuseOf (labelOf form) ("not allowed with argument " ++ labelOf other)

/-- The values among arguments: the first two hyphens that stand alone are none. -/
def valuesAmong (arguments : List Text) : List Text :=
  arguments.erase separatorText

/-- Take an option with its value. -/
def takeOption (grammar : Grammar ι) (progress : Progress ι)
    (taken : OptionForm ι × Option Text) : Except (Halt ι) (Progress ι) := do
  let (form, value) := taken
  let values := valuesAmong value.toList
  match form.effect with
  | .value valueForm => values.forM (grammar.checkValue (labelOf form) valueForm)
  | _ => pure ()
  grammar.checkExcluded progress form
  if form.effect = .stop then
    throw (.stop form.id)
  return { progress with given := progress.given ++ [⟨form.id, values⟩] }

/-- The options in one argument. -/
structure Cluster (ι : Type) where
  taken : List (OptionForm ι × Option Text)
  /-- The last option, if its value would be the next argument. -/
  open? : Option (OptionForm ι)

/-- Put an option before others. -/
def Cluster.cons (form : OptionForm ι) (cluster : Cluster ι) : Cluster ι :=
  { cluster with taken := (form, none) :: cluster.taken }

/-- Whether an option takes a value. -/
def takesValue (form : OptionForm ι) : Bool :=
  match form.effect with
  | .value _ => true
  | _ => false

/-- The options of an argument with an attached value, which may hold more letters. -/
def cluster (grammar : Grammar ι) :
    OptionForm ι → (isShort : Bool) → Text → Except (Halt ι) (Cluster ι)
  | form, _, [] =>
      if takesValue form then
        .ok ⟨[(form, some [])], none⟩
      else
        grammar.ignoredValue form []
  | form, isShort, letter :: letters =>
      if takesValue form then
        .ok ⟨[(form, some (letter :: letters))], none⟩
      else
        match isShort, grammar.option? [hyphen, letter], letters with
        | true, some next, [] => .ok ⟨[(form, none)], some next⟩
        | true, some next, second :: rest =>
            (grammar.cluster next true (second :: rest)).map (.cons form)
        | _, _, _ => grammar.ignoredValue form (letter :: letters)

/-- The value of an option from the next argument, and the arguments after it. -/
def valueFrom (grammar : Grammar ι) (form : OptionForm ι) (rest : List (Word ι)) :
    Except (Halt ι) (Option Text × List (Word ι)) :=
  match form.effect, rest with
  | .value _, .plain value :: rest => .ok (some value, rest)
  | .value _, _ => grammar.misuseOf (labelOf form) "expected one argument"
  | _, rest => .ok (none, rest)

/-- Read an option and its value; the arguments after it are returned. -/
def readOption (grammar : Grammar ι) (progress : Progress ι) (text : Text)
    (form : Option (OptionForm ι)) (name : Text) (attached : Option Text)
    (rest : List (Word ι)) : Except (Halt ι) (Progress ι × List (Word ι)) := do
  match form with
  | none => return ({ progress with extras := progress.extras ++ [text] }, rest)
  | some form =>
      let cluster : Cluster ι ← match attached with
        | none => pure ⟨[], some form⟩
        | some attached => grammar.cluster form (name[1]? ≠ some hyphen) attached
      let (last, rest) ← match cluster.open? with
        | none => pure ([], rest)
        | some form => do
            let (value, rest) ← grammar.valueFrom form rest
            pure ([(form, value)], rest)
      return (← (cluster.taken ++ last).foldlM grammar.takeOption progress, rest)

/-- The arguments of a place and those after them, if the place can be filled. -/
def fill? (arity : Arity) (words : List (Word ι)) : Option (List (Word ι) × List (Word ι)) :=
  let leading := words.takeWhile Word.isSeparator
  match arity, words.drop leading.length with
  | .any, _ =>
      some (words.takeWhile (!·.isOption), words.dropWhile (!·.isOption))
  | .one, .plain text :: rest =>
      let trailing := rest.takeWhile Word.isSeparator
      some (leading ++ [.plain text] ++ trailing, rest.drop trailing.length)
  | .atLeastOne, .plain _ :: _ =>
      some (words.takeWhile (!·.isOption), words.dropWhile (!·.isOption))
  | .command _, .plain _ :: _ => some (words, [])
  | _, _ => none

/-- Give a place its arguments; the separator is not one of them, except after a command. -/
def takePlace (grammar : Grammar ι) (progress : Progress ι) (place : PlaceForm ι)
    (words : List (Word ι)) : Except (Halt ι) (Progress ι) := do
  let texts := words.map Word.text
  let values ← match place.arity, texts with
    | .command choices, first :: _ => do
        grammar.checkValue place.name (.choice choices) first
        pure texts
    | .command _, [] => pure []
    | _, _ => pure (valuesAmong texts)
  return { progress with given := progress.given ++ [⟨place.id, values⟩] }

/-- Fill as many places as possible from the arguments that are next. -/
def fillPlaces (grammar : Grammar ι) (progress : Progress ι) :
    List (PlaceForm ι) → List (Word ι) → Except (Halt ι) (Progress ι × List (Word ι))
  | [], words => .ok ({ progress with places := [] }, words)
  | place :: places, words =>
      match fill? place.arity words with
      | none => .ok ({ progress with places := place :: places }, words)
      | some (own, rest) => do
          let progress ← grammar.takePlace progress place own
          grammar.fillPlaces progress places rest

/-- Read arguments; the number bounds the steps. -/
def readWords (grammar : Grammar ι) :
    Nat → Progress ι → List (Word ι) → Except (Halt ι) (Progress ι)
  | 0, progress, _ => .ok progress
  | bound + 1, progress, words =>
      if words.any Word.isOption then
        match words with
        | .option text form name attached :: rest => do
            let (progress, rest) ← grammar.readOption progress text form name attached rest
            grammar.readWords bound progress rest
        | words => do
            let (progress, rest) ← grammar.fillPlaces progress progress.places words
            if rest.length < words.length then
              grammar.readWords bound progress rest
            else
              let skipped := words.takeWhile (!·.isOption)
              let progress :=
                { progress with extras := progress.extras ++ skipped.map Word.text }
              grammar.readWords bound progress (words.drop skipped.length)
      else do
        let (progress, rest) ← grammar.fillPlaces progress progress.places words
        return { progress with extras := progress.extras ++ rest.map Word.text }

/-- Whether a place must be filled before the arguments end. -/
def isRequired (place : PlaceForm ι) : Bool :=
  match place.arity with
  | .command _ => false
  | _ => true

/-- The names of the places that must be filled. -/
def requiredNames (places : List (PlaceForm ι)) : List Text :=
  (places.filter isRequired).map PlaceForm.name

/-- Read arguments: what is given, and the arguments that belong nowhere. -/
def read (grammar : Grammar ι) (arguments : List Text) :
    Except (Halt ι) (List (Given ι) × List Text) := do
  let words ← grammar.words arguments
  let progress ← grammar.readWords (2 * words.length + 1) ⟨[], grammar.places, []⟩ words
  let missing := requiredNames progress.places
  if missing.isEmpty then
    return (progress.given, progress.extras)
  else
    grammar.misuse ("the following arguments are required: " ++ Text.joinWith ", " missing)

end Grammar

end KeyAudit
