import KeyAudit.Yaml.Token.Block
import KeyAudit.Yaml.Token.Mark
import KeyAudit.Yaml.Token.Plain
import KeyAudit.Yaml.Token.Quoted

namespace KeyAudit.Yaml

/-!
# Tokens of a document

Indentation becomes tokens that open and close blocks.  A node may turn out to
be the key of a mapping only when the colon after it is read, so the places
where a key may have begun are kept until then, one for each level of brackets.

Where a text cannot be read on, the tokens end with the fault.  It comes right
after the tokens that are certain by then, so a reader of tokens meets other
faults before it exactly if it can find them without reading on.
-/

/-- A token. -/
inductive Token where
  | directive (directive : Directive)
  | documentStart
  | documentEnd
  | blockSequenceStart
  | blockMappingStart
  | blockEnd
  | flowSequenceStart
  | flowSequenceEnd
  | flowMappingStart
  | flowMappingEnd
  | flowEntry
  | blockEntry
  | key
  | value
  | reference (name : Text)
  | anchor (name : Text)
  | tag (tag : Tag)
  | scalar (plain : Bool) (text : Text)
  /-- What is here is no token. -/
  | invalid (fault : Fault)
  deriving Repr, DecidableEq

/-- A place where a key without an indicator may have begun. -/
structure PossibleKey where
  /-- The number of tokens before it. -/
  position : Nat
  /-- Whether nothing but a key can be there. -/
  required : Bool
  index : Nat
  line : Nat
  column : Nat
  deriving Repr, DecidableEq

/-- What is known after some tokens. -/
structure Layout where
  place : Place
  /-- The tokens so far, the latest first. -/
  tokens : List Token
  /-- The number of tokens so far. -/
  count : Nat
  /-- The indentations of the open blocks, the innermost first. -/
  indents : List Nat
  /-- Whether a key may begin here. -/
  keyAllowed : Bool
  /-- The possible key outside of brackets or in the innermost ones. -/
  possibleKey : Option PossibleKey
  /-- The possible keys of the levels outside, the nearest first. -/
  outerKeys : List (Option PossibleKey)
  deriving Repr, DecidableEq

namespace Layout

/-- The start of a text. -/
def start (text : Text) : Layout :=
  ⟨Place.start text, [], 0, [], true, none, []⟩

/-- Whether the place is inside brackets. -/
def inFlow (layout : Layout) : Bool :=
  !layout.outerKeys.isEmpty

/-- The indentation of the innermost open block, which is -1 outside of all. -/
def indent (layout : Layout) : Int :=
  match layout.indents with
  | [] => -1
  | indent :: _ => indent

/-- Add a token. -/
def emit (token : Token) (layout : Layout) : Layout :=
  { layout with tokens := token :: layout.tokens, count := layout.count + 1 }

/-- Go on at another place. -/
def moveTo (place : Place) (layout : Layout) : Layout :=
  { layout with place }

/-- Add a token of so many characters. -/
def emitOver (width : Nat) (token : Token) (layout : Layout) : Layout :=
  (layout.emit token).moveTo (layout.place.advance width)

/-- Say whether a key may begin here. -/
def allowKey (allowed : Bool) (layout : Layout) : Layout :=
  { layout with keyAllowed := allowed }

/-- Put a token after so many tokens. -/
def insertAt (position : Nat) (token : Token) (layout : Layout) : Layout :=
  { layout with
    tokens := layout.tokens.insertIdx (layout.count - position) token
    count := layout.count + 1 }

/-- Close the open blocks that are indented deeper than some. -/
def closeBlocks (isDeeper : Nat → Bool) (layout : Layout) : Layout :=
  if layout.inFlow then
    layout
  else
    let closed := layout.indents.takeWhile isDeeper
    { layout with
      tokens := List.replicate closed.length Token.blockEnd ++ layout.tokens
      count := closed.length + layout.count
      indents := layout.indents.drop closed.length }

/-- Close all open blocks. -/
def closeAllBlocks (layout : Layout) : Layout :=
  layout.closeBlocks fun _ => true

/-- Open a block at a column, unless one is open there. -/
def openBlock (column : Nat) (position : Nat) (token : Token) (layout : Layout) : Layout :=
  if layout.indent < column then
    { layout.insertAt position token with indents := column :: layout.indents }
  else
    layout

/-- Give up the possible key of this level, which must not be required. -/
def dropKey (layout : Layout) : Except Fault Layout :=
  if layout.possibleKey.any PossibleKey.required then
    malformed
  else
    .ok { layout with possibleKey := none }

/-- Keep this place as a possible key, if a key may begin here. -/
def saveKey (layout : Layout) : Except Fault Layout :=
  if layout.keyAllowed then do
    let layout ← layout.dropKey
    let key : PossibleKey :=
      { position := layout.count
        required := !layout.inFlow && layout.indent == layout.place.column
        index := layout.place.index
        line := layout.place.line
        column := layout.place.column }
    return { layout with possibleKey := some key }
  else
    .ok layout

/-- The longest distance between the start of a key and its colon. -/
def longestKey : Nat := 1024

/-- Keep a possible key if its colon can still follow, on the same line and not too far. -/
def stillPossible (place : Place) : Option PossibleKey → Except Fault (Option PossibleKey)
  | none => .ok none
  | some key =>
      if key.line ≠ place.line ∨ longestKey < place.index - key.index then
        if key.required then malformed else .ok none
      else
        .ok (some key)

/-- Give up the possible keys whose colon cannot follow any more. -/
def dropStaleKeys (layout : Layout) : Except Fault Layout := do
  let possibleKey ← stillPossible layout.place layout.possibleKey
  let outerKeys ← layout.outerKeys.mapM (stillPossible layout.place)
  return { layout with possibleKey, outerKeys }

/--
Skip spaces, comments and line breaks.  A key may begin on each new line outside
of brackets.  The first argument bounds the number of lines.
-/
def skipLines : Nat → Layout → Layout
  | 0, layout => layout
  | bound + 1, layout =>
      let place := layout.place.skipSpaces.skipComment
      match place.lineBreak? with
      | none => layout.moveTo place
      | some (_, after) =>
          let layout := layout.moveTo after
          skipLines bound (if layout.inFlow then layout else layout.allowKey true)

/-- Skip what is before the next token; a byte order mark may begin the text. -/
def skipToToken (layout : Layout) : Layout :=
  let place :=
    if layout.place.index = 0 ∧ layout.place.here = some byteOrderMark then
      layout.place.step
    else
      layout.place
  (layout.moveTo place).skipLines (place.left + 1)

/-- Begin or end a document, or read a directive: blocks end there. -/
def endBlocks (layout : Layout) : Except Fault Layout := do
  return (← layout.closeAllBlocks.dropKey).allowKey false

/-- Open brackets. -/
def openFlow (token : Token) (layout : Layout) : Except Fault Layout := do
  let layout ← layout.saveKey
  return { layout.emitOver 1 token with
    keyAllowed := true
    possibleKey := none
    outerKeys := layout.possibleKey :: layout.outerKeys }

/-- Close brackets. -/
def closeFlow (token : Token) (layout : Layout) : Except Fault Layout := do
  let layout ← layout.dropKey
  match layout.outerKeys with
  | [] => malformed
  | key :: keys =>
      return { layout.emitOver 1 token with
        keyAllowed := false
        possibleKey := key
        outerKeys := keys }

/-- An entry of a flow collection ends. -/
def flowEntry (layout : Layout) : Except Fault Layout := do
  return ((← layout.dropKey).allowKey true).emitOver 1 .flowEntry

/-- Outside of brackets, open a block for an indicator that is here. -/
def indicatorBlock (token : Token) (layout : Layout) : Except Fault Layout :=
  if layout.inFlow then
    .ok layout
  else if layout.keyAllowed then
    .ok (layout.openBlock layout.place.column layout.count token)
  else
    malformed

/-- An entry of a block sequence begins. -/
def blockEntry (layout : Layout) : Except Fault Layout := do
  let layout ← layout.indicatorBlock .blockSequenceStart
  return ((← layout.dropKey).allowKey true).emitOver 1 .blockEntry

/-- A key with its indicator begins. -/
def keyEntry (layout : Layout) : Except Fault Layout := do
  let layout ← layout.indicatorBlock .blockMappingStart
  return ((← layout.dropKey).allowKey !layout.inFlow).emitOver 1 .key

/-- A value begins; if a key was possible before it, that was a key. -/
def valueEntry (layout : Layout) : Except Fault Layout :=
  match layout.possibleKey with
  | some key =>
      let layout := { layout with possibleKey := none }.insertAt key.position .key
      let layout :=
        if layout.inFlow then layout
        else layout.openBlock key.column key.position .blockMappingStart
      .ok ((layout.allowKey false).emitOver 1 .value)
  | none => do
      let layout ← layout.indicatorBlock .blockMappingStart
      return (layout.allowKey !layout.inFlow).emitOver 1 .value

/-- A token that may begin a key, and the place after it. -/
def keyPart (token : Token) (place : Place) (layout : Layout) : Except Fault Layout := do
  return (((← layout.saveKey).allowKey false).emit token).moveTo place

/-- A block scalar. -/
def blockText (folded : Bool) (layout : Layout) : Except Fault Layout := do
  let layout ← layout.dropKey
  let (text, place) ← blockScalar folded layout.indent layout.place
  return ((layout.allowKey true).emit (.scalar false text)).moveTo place

/-- A plain scalar. -/
def plainPart (layout : Layout) : Except Fault Layout := do
  let layout ← layout.saveKey
  let (text, place, lineEnded) :=
    plainScalar layout.inFlow (layout.indent + 1) layout.place
  return ((layout.allowKey lineEnded).emit (.scalar true text)).moveTo place

/-- Read the token that begins at a code point. -/
def readToken (layout : Layout) : Except Fault Layout := do
  let place := layout.place
  let blankFollows := atBlankOrEnd (place.peek 1)
  if place.isAt '%' && place.column == 0 then
    let layout ← layout.endBlocks
    let (directive, place) ← directiveLine place
    return (layout.emit (.directive directive)).moveTo place
  else if place.column == 0 && place.isAtMark "---" then
    return (← layout.endBlocks).emitOver 3 .documentStart
  else if place.column == 0 && place.isAtMark "..." then
    return (← layout.endBlocks).emitOver 3 .documentEnd
  else if place.isAt '[' then
    layout.openFlow .flowSequenceStart
  else if place.isAt '\x7b' then
    layout.openFlow .flowMappingStart
  else if place.isAt ']' then
    layout.closeFlow .flowSequenceEnd
  else if place.isAt '\x7d' then
    layout.closeFlow .flowMappingEnd
  else if place.isAt ',' then
    layout.flowEntry
  else if place.isAt '-' && blankFollows then
    layout.blockEntry
  else if place.isAt '?' && (layout.inFlow || blankFollows) then
    layout.keyEntry
  else if place.isAt ':' && (layout.inFlow || blankFollows) then
    layout.valueEntry
  else if place.isAt '*' then
    let (name, place) ← anchorName place
    layout.keyPart (.reference name) place
  else if place.isAt '&' then
    let (name, place) ← anchorName place
    layout.keyPart (.anchor name) place
  else if place.isAt '!' then
    let (tag, place) ← tagMark place
    layout.keyPart (.tag tag) place
  else if place.isAt '|' && !layout.inFlow then
    layout.blockText false
  else if place.isAt '>' && !layout.inFlow then
    layout.blockText true
  else if place.here.any fun point => point.val = 0x27 then
    let (text, place) ← quotedScalar false place
    layout.keyPart (.scalar false text) place
  else if place.here.any fun point => point.val = 0x22 then
    let (text, place) ← quotedScalar true place
    layout.keyPart (.scalar false text) place
  else if isAtPlain layout.inFlow place then
    layout.plainPart
  else
    malformed

/-- Whether a colon at a place would make a key of what began at a possible key. -/
def isLive (place : Place) (key : PossibleKey) : Bool :=
  key.line == place.line && place.index - key.index ≤ longestKey

/-- The tokens before which nothing can be put any more. -/
def certainTokens (layout : Layout) : List Token :=
  let keys := (layout.possibleKey :: layout.outerKeys).filterMap id
  let positions := (keys.filter (isLive layout.place)).map PossibleKey.position
  layout.tokens.reverse.take (positions.foldl min layout.count)

/-- Read the next token, and say whether the text ends there. -/
def readNext (layout : Layout) : Except Fault (Layout × Bool) := do
  let layout ← layout.skipToToken.dropStaleKeys
  let layout := layout.closeBlocks fun indent => layout.place.column < indent
  if layout.place.rest.isEmpty then
    return (← layout.closeAllBlocks.dropKey, true)
  else
    return (← layout.readToken, false)

/-- All tokens from here on; the first argument bounds their number. -/
def readTokens : Nat → Layout → List Token
  | 0, layout => layout.certainTokens ++ [.invalid .malformed]
  | bound + 1, layout =>
      match layout.readNext with
      | .error fault => layout.certainTokens ++ [.invalid fault]
      | .ok (layout, true) => layout.tokens.reverse
      | .ok (layout, false) => readTokens bound layout

end Layout

/-- The tokens of a text, all of whose code points must be allowed. -/
def tokens (text : Text) : List Token :=
  if text.all isAllowed then
    (Layout.start text).readTokens (text.length + 1)
  else
    [.invalid .malformed]

end KeyAudit.Yaml
