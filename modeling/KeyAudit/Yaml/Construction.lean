import KeyAudit.Yaml.Node
import KeyAudit.Yaml.ScalarValue

namespace KeyAudit.Yaml

/-!
# From nodes to data

Each node becomes one piece of data, and all aliases of the node are that piece.
Scalars are read at once.  Collections are filled in the order in which they were
found, so of two faults the one that is less deep is reported, and in one level
the earlier one.

The key `<<` merges mappings into its own: merged pairs come first, so a pair of
the mapping itself wins, and of several merged mappings the first wins.  A mapping
that is merged has its own merged pairs for good.
-/

/--
A scalar that may be a key.  The origin tells values apart that equal nothing,
not even themselves.
-/
structure Key where
  value : Scalar
  origin : Nat
  deriving Repr, DecidableEq

namespace Key

/-- Whether a key is not a number. -/
def isNan (key : Key) : Bool :=
  key.value == .double .nan

/-- Whether two keys are the same. -/
def same (first second : Key) : Bool :=
  first.value.sameKey second.value ||
    (first.isNan && second.isNan && first.origin == second.origin)

/-- Set a key of a mapping; a key that is there keeps its place. -/
def insert (key : Key) (number : Nat) : List (Key × Nat) → List (Key × Nat)
  | [] => [(key, number)]
  | (first, old) :: rest =>
      if first.same key then (first, number) :: rest else (first, old) :: insert key number rest

end Key

/-- The data of a node; the parts of collections are named by their numbers. -/
inductive Part where
  | scalar (key : Key)
  | list (items : List Nat)
  | map (entries : List (Key × Nat))
  | set (items : List Key)
  | pair (first second : Nat)
  deriving Repr, DecidableEq

/-- What nodes have become so far. -/
structure Construction where
  nodes : Array Node
  /-- The data of the nodes by their numbers, then pairs, which are no nodes. -/
  parts : Array (Option Part)
  /-- The collections that were found, in order. -/
  found : Array Nat

/-- A step of construction. -/
abbrev Builder := StateT Construction (Except Fault)

namespace Builder

/-- The node of a number. -/
def nodeAt (number : Nat) : Builder Node := do
  return (← get).nodes.getD number Node.empty

/-- Refuse the nodes. -/
def refuse : Builder α :=
  throw .malformed

/-- Say what a node has become. -/
def put (number : Nat) (part : Part) : Builder Unit :=
  modify fun construction =>
    { construction with parts := construction.parts.set! number (some part) }

/-- Add data that is no node; its number is returned. -/
def add (part : Part) : Builder Nat := do
  let construction ← get
  set { construction with parts := construction.parts.push (some part) }
  return construction.parts.size

/-- A collection that will be filled later. -/
def find (number : Nat) (part : Part) : Builder Part := do
  put number part
  modify fun construction => { construction with found := construction.found.push number }
  return part

/--
The text of a node that is read as a scalar.  A mapping stands for the value of
its default key.  The first number bounds the way to the text.
-/
def scalarText (nodes : Array Node) : Nat → Nat → Except Fault Text
  | 0, _ => .error (.badValue .endless)
  | bound + 1, number =>
      match (nodes.getD number Node.empty).shape with
      | .scalar text => .ok text
      | .list _ => malformed
      | .map pairs =>
          let isDefault (pair : Nat × Nat) : Bool :=
            (nodes.getD pair.1 Node.empty).type == .default
          match pairs.find? isDefault with
          | some (_, value) => scalarText nodes bound value
          | none => malformed

/-- The scalar of a node; the word for not-a-number is the same value everywhere. -/
def scalarKey (nodes : Array Node) (number : Nat) (node : Node) : Except Fault Key :=
  match node.type, node.shape with
  | .unknown, _ | .merge, _ | .default, _ => malformed
  | type, shape => do
      let text ← scalarText nodes (nodes.size + 1) number
      match type, shape with
      | .timestamp, .map _ => throw (.badValue .stampOfMapping)
      | _, _ => pure ()
      let value ← scalarOf type text
      let isWord := type = .float ∧ (doubleParts text).2 = nanWord
      return ⟨value, if isWord then 0 else number + 1⟩

/-- The data of a node; a collection is empty at first. -/
def construct (number : Nat) : Builder Part := do
  let construction ← get
  match construction.parts.getD number none with
  | some part => return part
  | none => do
      let node ← nodeAt number
      match node.type with
      | .list | .pairs => find number (.list [])
      | .map => find number (.map [])
      | .set => find number (.set [])
      | _ => do
          let part := Part.scalar (← scalarKey construction.nodes number node)
          put number part
          return part

/-- The pairs of a mapping as they are now. -/
def pairsOf (number : Nat) : Builder (List (Nat × Nat)) := do
  match (← nodeAt number).shape with
  | .map pairs => return pairs
  | _ => refuse

/-- Give a mapping other pairs. -/
def setPairs (number : Nat) (pairs : List (Nat × Nat)) : Builder Unit :=
  modify fun construction =>
    { construction with
      nodes := construction.nodes.modify number fun node => { node with shape := .map pairs } }

/-- The mark of a default value is plain text as a key. -/
def settleKeys (pairs : List (Nat × Nat)) : Builder Unit :=
  pairs.forM fun (key, _) => modify fun construction =>
    { construction with
      nodes := construction.nodes.modify key fun node =>
        if node.type = .default then { node with type := .text } else node }

/--
Merge into a mapping what its merge keys say, from the pair at an index on.  Some
pairs are merged already.  The first number bounds the merge keys that are left.
-/
def mergeFrom : Nat → Nat → List (Nat × Nat) → Nat → Builder Unit
  | 0, _, _, _ => refuse
  | bound + 1, index, merged, number => do
      let pairs ← pairsOf number
      let nodes := (← get).nodes
      let before := (pairs.drop index).takeWhile fun (key, _) =>
        (nodes.getD key Node.empty).type != .merge
      settleKeys before
      let index := index + before.length
      match pairs[index]? with
      | none => if !merged.isEmpty then setPairs number (merged ++ pairs)
      | some (_, value) => do
          setPairs number (pairs.eraseIdx index)
          let pairsIn (mapping : Nat) : Builder (List (Nat × Nat)) := do
            let _ ← pairsOf mapping
            mergeFrom bound 0 [] mapping
            pairsOf mapping
          let more ← match (← nodeAt value).shape with
            | .map _ => pairsIn value
            | .list items => do
                let lists ← items.mapM pairsIn
                pure lists.reverse.flatten
            | .scalar _ => refuse
          mergeFrom bound index (merged ++ more) number

/-- Merge into a mapping what its merge keys say; no more of them are there than pairs. -/
def merge (number : Nat) : Builder Unit := do
  let bound := (← get).nodes.foldl (fun count node =>
    match node.shape with
    | .map pairs => count + pairs.length
    | _ => count) 1
  mergeFrom bound 0 [] number

/-- The entries of a mapping after merging; collections are refused as keys. -/
def entriesOf (number : Nat) : Builder (List (Key × Nat)) := do
  merge number
  (← pairsOf number).foldlM (fun entries (key, value) => do
    match ← construct key with
    | .scalar key => do
        let _ ← construct value
        return key.insert value entries
    | _ => refuse) []

/-- Fill a collection. -/
def fill (number : Nat) : Builder Unit := do
  let node ← nodeAt number
  match node.type, node.shape with
  | .list, .list items => do
      items.forM fun item => discard (construct item)
      put number (.list items)
  | .pairs, .list items => do
      let pairs ← items.mapM fun item => do
        match ← pairsOf item with
        | [(key, value)] => do
            let _ ← construct key
            let _ ← construct value
            add (.pair key value)
        | _ => refuse
      put number (.list pairs)
  | .map, .map _ => do put number (.map (← entriesOf number))
  | .set, .map _ => do put number (.set ((← entriesOf number).map Prod.fst))
  | _, _ => refuse

/-- Fill the collections that were found from an index on; the first number bounds how many. -/
def fillFrom : Nat → Nat → Builder Unit
  | 0, _ => pure ()
  | bound + 1, index => do
      match (← get).found[index]? with
      | none => pure ()
      | some number => do
          fill number
          fillFrom bound (index + 1)

/-- Construct a node and all that it holds. -/
def constructAll (root : Nat) : Builder Unit := do
  let _ ← construct root
  fillFrom ((← get).nodes.size + 1) 0

end Builder

/-- The data of all nodes. -/
def NodeGraph.parts (graph : NodeGraph) : Except Fault (Array (Option Part)) := do
  let start : Construction :=
    ⟨graph.nodes, Array.replicate graph.nodes.size none, #[]⟩
  let (_, construction) ← (Builder.constructAll graph.root).run start
  return construction.parts

end KeyAudit.Yaml
