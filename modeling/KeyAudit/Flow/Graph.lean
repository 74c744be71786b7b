import KeyAudit.Position
import KeyAudit.Text.Basic

namespace KeyAudit

/-!
# Flow graphs

The nodes of a graph are the numbers below its size, and node 0 is the entry.
Edges keep the order in which they were added.
-/

/-- Why control can go along an edge. -/
inductive EdgeKind where
  | fallThrough
  | branchTaken
  | jump
  | switchCase (key : Int)
  | switchDefault
  | call
  | callReturn
  /-- An exception of the given class, or any exception. -/
  | exception (catchType : Option Text)
  deriving Repr, DecidableEq

namespace EdgeKind

/-- The name of a kind in listings. -/
def label : EdgeKind → String
  | .fallThrough => "fall-through"
  | .branchTaken => "branch-taken"
  | .jump => "goto"
  | .switchCase _ => "switch-case"
  | .switchDefault => "switch-default"
  | .call => "jsr"
  | .callReturn => "ret"
  | .exception _ => "exception"

/-- The kind of a name, without a key or a class. -/
def ofLabel? (label : String) : Option EdgeKind :=
  [fallThrough, branchTaken, jump, switchCase 0, switchDefault, call, callReturn,
    exception none].find? fun kind => kind.label == label

/-- The key of a switch case. -/
def key? : EdgeKind → Option Text
  | .switchCase key => some (Text.ofInt key)
  | _ => none

/-- The class of a caught exception. -/
def catchType? : EdgeKind → Option Text
  | .exception catchType => catchType
  | _ => none

/-- Whether control goes along an edge only when an exception is thrown. -/
def isException : EdgeKind → Bool
  | .exception _ => true
  | _ => false

/-- The name of a kind with its key or caught class. -/
def description (kind : EdgeKind) : Text :=
  match kind with
  | .switchCase key => kind.label ++ ": " ++ Text.ofInt key
  | .exception none | .exception (some []) => kind.label ++ (": any" : Text)
  | .exception (some catchType) => kind.label ++ ": " ++ catchType
  | _ => kind.label

end EdgeKind

/-- A directed edge between two nodes. -/
structure Edge where
  source : Nat
  target : Nat
  kind : EdgeKind
  deriving Repr, DecidableEq

/-- The listing line of an edge. -/
def Edge.label (edge : Edge) : Text :=
  Text.ofNat edge.source ++ " -> " ++ Text.ofNat edge.target ++ " (" ++
    edge.kind.description ++ ")"

/-- Nodes by number and edges in order. -/
structure Graph where
  size : Nat
  edges : List Edge
  deriving Repr, DecidableEq

namespace Graph

/--
A graph of so many nodes from the ends and kinds of its edges, unless an end is
no node.  A target that is counted from the end is a node of its own: it stands
behind the others, and the same edges leave it.
-/
def ofEnds? (size : Nat) (ends : List (Int × Int × EdgeKind)) : Option Graph := do
  let edges ← ends.mapM fun (source, target, kind) => do
    let node ← position? size target
    return Edge.mk (← position? size source) (if target < 0 then size + node else node) kind
  if edges.all fun edge => edge.target < size then
    return ⟨size, edges⟩
  else
    return ⟨2 * size, edges.flatMap fun edge => [edge, { edge with source := size + edge.source }]⟩

/-- The edges that leave a node, in order. -/
def outgoing (graph : Graph) (node : Nat) : List Edge :=
  graph.edges.filter fun edge => edge.source == node

/-- The edges that enter a node, in order. -/
def incoming (graph : Graph) (node : Nat) : List Edge :=
  graph.edges.filter fun edge => edge.target == node

/-- The nodes one edge further, each once, in order. -/
def next (graph : Graph) (node : Nat) : List Nat :=
  ((graph.outgoing node).map Edge.target).eraseDups

/--
Extend a set of nodes by everything that can be reached from a stack of nodes.
The first argument bounds the number of nodes taken from the stack.
-/
def sweep (graph : Graph) : Nat → (stack visited : List Nat) → List Nat
  | 0, _, visited => visited
  | _ + 1, [], visited => visited
  | bound + 1, node :: stack, visited =>
      if visited.contains node then
        sweep graph bound stack visited
      else
        sweep graph bound ((graph.outgoing node).map Edge.target ++ stack) (node :: visited)

/--
The nodes that can be reached from a node, in ascending order.  Each edge puts
at most one node on the stack, so their number bounds the search.
-/
def reachable (graph : Graph) (start : Nat) : List Nat :=
  (sweep graph (graph.edges.length + 1) [start] []).mergeSort

/--
The nodes that can be reached from a start.  A start that is counted from the
end is listed by its own number, and by its number as a node only if a way leads
back to it.
-/
def reachableFrom? (graph : Graph) (start : Int) : Option (List Int) :=
  (position? graph.size start).map fun node =>
    if 0 ≤ start then
      (graph.reachable node).map Int.ofNat
    else
      let behind := (graph.outgoing node).map Edge.target
      let bound := behind.length + graph.edges.length
      start :: ((sweep graph bound behind []).mergeSort).map Int.ofNat

/-- A depth-first search: the nodes seen, and the nodes left, the last one first. -/
structure Search where
  seen : List Nat
  left : List Nat
  deriving Repr, DecidableEq

/--
Visit a node and, in order, all nodes behind it that were not seen before.  The
first argument bounds the depth; as every level sees a new node, the number of
nodes is enough.
-/
def visit (graph : Graph) : Nat → Search → Nat → Search
  | 0, search, _ => search
  | bound + 1, search, node =>
      if search.seen.contains node then
        search
      else
        let after := (graph.next node).foldl (visit graph bound)
          { search with seen := node :: search.seen }
        { after with left := node :: after.left }

/-- The reachable nodes, each after the nodes that lead to it unless there is a cycle. -/
def reversePostorder (graph : Graph) : List Nat :=
  (visit graph graph.size ⟨[], []⟩ 0).left

/-- The reachable nodes with their positions in reverse post-order. -/
def ranking (graph : Graph) : List (Nat × Nat) :=
  graph.reversePostorder.zipIdx

end Graph

end KeyAudit
