import KeyAudit.Yaml.NodeType
import KeyAudit.Yaml.Token

namespace KeyAudit.Yaml

/-!
# Nodes of a document

The nodes of a document have numbers, and collections hold the numbers of their
parts.  An alias is the number of the node that it names, so a collection may
hold itself.  A node that is left out, such as the value after a colon at the end
of a line, is an empty plain scalar.
-/

/-- The content of a node; other nodes are named by their numbers. -/
inductive Shape where
  | scalar (text : Text)
  | list (items : List Nat)
  | map (pairs : List (Nat × Nat))
  deriving Repr, DecidableEq

/-- A node: what it holds and what it is meant to be. -/
structure Node where
  type : NodeType
  shape : Shape
  deriving Repr, DecidableEq

/-- A node that is left out. -/
def Node.empty : Node :=
  ⟨NodeType.ofPlain [], .scalar []⟩

instance : Inhabited Node := ⟨Node.empty⟩

/-- What the handles of tags stand for. -/
abbrev Handles := List (Text × Text)

/-- The handles that every document knows. -/
def Handles.basic : Handles :=
  [(Text.ofString "!", Text.ofString "!"), (Text.ofString "!!", NodeType.basicTags)]

/-- What is left of the tokens, and what they were read to. -/
structure Reading where
  tokens : List Token
  /-- The nodes by their numbers. -/
  nodes : Array Node
  /-- The numbers of the nodes that have names. -/
  anchors : List (Text × Nat)

/-- A step of reading. -/
abbrev Reader := StateT Reading (Except Fault)

namespace Reader

/-- Refuse the tokens. -/
def refuse : Reader α :=
  throw .malformed

/-- The next token, if there is one; where the text cannot be read on is its fault. -/
def peek : Reader (Option Token) := do
  match (← get).tokens with
  | [] => return none
  | .invalid fault :: _ => throw fault
  | token :: _ => return some token

/-- Go on after the next token. -/
def skip : Reader Unit :=
  modify fun reading => { reading with tokens := reading.tokens.tail }

/-- Whether the next token is one of some; the end of the text is none of them. -/
def isAt (tokens : List Token) : Reader Bool := do
  return (← peek).any fun token => tokens.contains token

/-- Go on after the next token if it is a given one. -/
def skipIf (token : Token) : Reader Bool := do
  let found ← isAt [token]
  if found then
    skip
  return found

/-- Add a node; its number is returned. -/
def add (node : Node) : Reader Nat := do
  let reading ← get
  set { reading with nodes := reading.nodes.push node }
  return reading.nodes.size

/-- Give the node of a number its content. -/
def complete (number : Nat) (shape : Shape) : Reader Unit :=
  modify fun reading =>
    { reading with nodes := reading.nodes.modify number fun node => { node with shape } }

/-- Give the node of a number a name. -/
def name (anchor : Option Text) (number : Nat) : Reader Unit :=
  match anchor with
  | none => pure ()
  | some name => modify fun reading =>
      { reading with anchors := (name, number) :: reading.anchors }

/-- The name of the next node, if it has one. -/
def anchor? : Reader (Option Text) := do
  match ← peek with
  | some (.anchor name) => do
      skip
      return some name
  | _ => return none

/-- The tag of the next node, if it has one. -/
def tag? : Reader (Option Tag) := do
  match ← peek with
  | some (.tag tag) => do
      skip
      return some tag
  | _ => return none

end Reader

/-- The name and the full tag of a node. -/
structure Properties where
  anchor : Option Text
  tag : Option Text
  deriving Repr, DecidableEq

namespace Properties

/-- The tag that leaves the type to the content. -/
def openTag : Text := "!"

/-- Whether there is a name or a tag. -/
def arePresent (properties : Properties) : Bool :=
  properties.anchor.isSome || properties.tag.isSome

/-- The type of a node whose content alone would make it another. -/
def typeOr (properties : Properties) (type : NodeType) : NodeType :=
  match properties.tag with
  | none => type
  | some tag => if tag = openTag then type else NodeType.ofTag tag

/-- The type of a scalar; under the open tag a quoted scalar counts as plain. -/
def scalarType (properties : Properties) (plain : Bool) (text : Text) : NodeType :=
  let plain := plain || properties.tag.isSome
  properties.typeOr (if plain then NodeType.ofPlain text else .text)

/-- The full text of a tag. -/
def fullTag (handles : Handles) (tag : Tag) : Reader Text :=
  match tag.handle with
  | none => pure tag.ending
  | some handle =>
      match handles.lookup handle with
      | some start => pure (start ++ tag.ending)
      | none => Reader.refuse

/-- Read a name and a tag, in either order. -/
def read (handles : Handles) : Reader Properties := do
  let first ← Reader.anchor?
  let tag ← Reader.tag?
  let second ← if first.isNone && tag.isSome then Reader.anchor? else pure none
  return ⟨first <|> second, ← tag.mapM (fullTag handles)⟩

/-- Refuse a name that another node has. -/
def checkName (properties : Properties) : Reader Unit := do
  let anchors := (← get).anchors
  if properties.anchor.any fun name => (anchors.lookup name).isSome then
    Reader.refuse

end Properties

namespace Reader

/-- A node that is left out. -/
def omitted : Reader Nat :=
  add Node.empty

/-- A scalar with its properties. -/
def scalar (properties : Properties) (plain : Bool) (text : Text) : Reader Nat := do
  properties.checkName
  let number ← add ⟨properties.scalarType plain text, .scalar text⟩
  name properties.anchor number
  return number

/-- A node of which only the properties are there. -/
def bare (properties : Properties) : Reader Nat :=
  if properties.arePresent then scalar properties true [] else refuse

/-- A collection with its properties; its name can be used inside of it. -/
def collection (properties : Properties) (type : NodeType) (content : Reader Shape) :
    Reader Nat := do
  properties.checkName
  let number ← add ⟨properties.typeOr type, .list []⟩
  name properties.anchor number
  complete number (← content)
  return number

/-- The node that a name is for. -/
def named (anchor : Text) : Reader Nat := do
  match (← get).anchors.lookup anchor with
  | some number => return number
  | none => refuse

mutual

/--
Read a node.  Block collections are read only where they may stand, and so are
sequences without an indentation of their own.  The number bounds the depth.
-/
def node (handles : Handles) (block indentless : Bool) : Nat → Reader Nat
  | 0 => refuse
  | bound + 1 => do
      match ← peek with
      | some (.reference anchor) => do
          skip
          named anchor
      | _ => do
          let properties ← Properties.read handles
          match ← peek with
          | some .blockEntry =>
              if indentless then
                collection properties .list (.list <$> indentlessItems handles bound)
              else
                bare properties
          | some (.scalar plain text) => do
              skip
              scalar properties plain text
          | some .flowSequenceStart => do
              skip
              collection properties .list (.list <$> flowItems handles true bound)
          | some .flowMappingStart => do
              skip
              collection properties .map (.map <$> flowPairs handles true bound)
          | some .blockSequenceStart =>
              if block then do
                skip
                collection properties .list (.list <$> blockItems handles bound)
              else
                bare properties
          | some .blockMappingStart =>
              if block then do
                skip
                collection properties .map (.map <$> blockPairs handles bound)
              else
                bare properties
          | _ => bare properties

/-- The entries of a block sequence up to its end. -/
def blockItems (handles : Handles) : Nat → Reader (List Nat)
  | 0 => refuse
  | bound + 1 => do
      if ← skipIf .blockEntry then
        let item ←
          if ← isAt [.blockEntry, .blockEnd] then omitted
          else node handles true false bound
        return item :: (← blockItems handles bound)
      else if ← skipIf .blockEnd then
        return []
      else
        refuse

/-- The entries of a sequence that is no deeper than the mapping around it. -/
def indentlessItems (handles : Handles) : Nat → Reader (List Nat)
  | 0 => refuse
  | bound + 1 => do
      if ← skipIf .blockEntry then
        let item ←
          if ← isAt [.blockEntry, .key, .value, .blockEnd] then omitted
          else node handles true false bound
        return item :: (← indentlessItems handles bound)
      else
        return []

/-- The pairs of a block mapping up to its end. -/
def blockPairs (handles : Handles) : Nat → Reader (List (Nat × Nat))
  | 0 => refuse
  | bound + 1 => do
      if ← skipIf .key then
        let key ← blockPart handles bound
        let value ← if ← skipIf .value then blockPart handles bound else omitted
        return (key, value) :: (← blockPairs handles bound)
      else if ← skipIf .blockEnd then
        return []
      else
        refuse

/-- A key or value of a block mapping, which may be left out. -/
def blockPart (handles : Handles) : Nat → Reader Nat
  | 0 => refuse
  | bound + 1 => do
      if ← isAt [.key, .value, .blockEnd] then omitted
      else node handles true true bound

/-- The entries of a flow sequence up to its end; a comma comes before all but the first. -/
def flowItems (handles : Handles) (first : Bool) : Nat → Reader (List Nat)
  | 0 => refuse
  | bound + 1 => do
      if ← skipIf .flowSequenceEnd then
        return []
      else
        if !first then
          if !(← skipIf .flowEntry) then
            refuse
        if ← skipIf .flowSequenceEnd then
          return []
        else
          let item ←
            if ← isAt [.key] then
              collection ⟨none, none⟩ .map (do
                skip
                return .map [← flowPair handles .flowSequenceEnd bound])
            else
              node handles false false bound
          return item :: (← flowItems handles false bound)

/-- A pair of a flow collection after the mark of its key; both parts may be left out. -/
def flowPair (handles : Handles) (close : Token) : Nat → Reader (Nat × Nat)
  | 0 => refuse
  | bound + 1 => do
      let key ←
        if ← isAt [.value, .flowEntry, close] then omitted
        else node handles false false bound
      let value ←
        if ← skipIf .value then
          if ← isAt [.flowEntry, close] then omitted
          else node handles false false bound
        else
          omitted
      return (key, value)

/-- The pairs of a flow mapping up to its end; a node without a colon has an empty value. -/
def flowPairs (handles : Handles) (first : Bool) : Nat → Reader (List (Nat × Nat))
  | 0 => refuse
  | bound + 1 => do
      if ← skipIf .flowMappingEnd then
        return []
      else
        if !first then
          if !(← skipIf .flowEntry) then
            refuse
        if ← skipIf .flowMappingEnd then
          return []
        else
          let pair ←
            if ← skipIf .key then
              flowPair handles .flowMappingEnd bound
            else do
              let key ← node handles false false bound
              pure (key, ← omitted)
          return pair :: (← flowPairs handles false bound)

end

/-- Read directives: the handles, and whether a version was given. -/
def directives (versioned : Bool) (handles : Handles) : Nat → Reader Handles
  | 0 => refuse
  | bound + 1 => do
      match ← peek with
      | some (.directive directive) => do
          skip
          match directive with
          | .version major _ =>
              if versioned || major != 1 then refuse
              else directives true handles bound
          | .handle name start =>
              if (handles.lookup name).isSome then refuse
              else directives versioned ((name, start) :: handles) bound
          | .other => directives versioned handles bound
      | _ => return handles

/-- Read directives and the mark after them that begins a document. -/
def documentStart (bound : Nat) : Reader Handles := do
  let handles ← directives false [] bound
  if ← skipIf .documentStart then
    return handles ++ Handles.basic
  else
    refuse

/-- Whether the document that begins here is empty. -/
def atDocumentEnd : Reader Bool := do
  match ← peek with
  | none | some (.directive _) | some .documentStart | some .documentEnd => return true
  | _ => return false

/-- Read all marks for the end of a document. -/
def documentEnds : Nat → Reader Unit
  | 0 => refuse
  | bound + 1 => do
      if ← skipIf .documentEnd then
        documentEnds bound

/-- Read the root node, if there is a document; a second document is refused. -/
def root (bound : Nat) : Reader (Option Nat) := do
  match ← peek with
  | none => return none
  | token => do
      let explicit := match token with
        | some (.directive _) | some .documentStart => true
        | _ => false
      let handles ← if explicit then documentStart bound else pure Handles.basic
      let number ←
        if explicit && (← atDocumentEnd) then omitted
        else node handles true false bound
      documentEnds bound
      if (← peek).isSome then do
        let _ ← documentStart bound
        refuse
      return some number

end Reader

/-- The nodes of a document, and which of them is the root. -/
structure NodeGraph where
  nodes : Array Node
  root : Nat

/-- The nodes of tokens, if there is a document. -/
def NodeGraph.ofTokens (tokens : List Token) : Except Fault (Option NodeGraph) := do
  let (root, reading) ← (Reader.root (2 * tokens.length + 2)).run ⟨tokens, #[], []⟩
  return root.map fun number => ⟨reading.nodes, number⟩

end KeyAudit.Yaml
