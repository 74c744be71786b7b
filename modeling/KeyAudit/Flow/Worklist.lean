namespace KeyAudit

/-!
# Worklists

A worklist holds each pending node once.  Depending on the order it gives back
the node of least rank, the one that waits longest or the one that came last.
-/

/-- The order in which pending nodes are taken. -/
inductive VisitOrder where
  /-- By rank, and by number among nodes of one rank. -/
  | ranked
  | firstIn
  | lastIn
  deriving Repr, DecidableEq

namespace VisitOrder

/-- The name of an order. -/
def name : VisitOrder → String
  | ranked => "rpo"
  | firstIn => "fifo"
  | lastIn => "lifo"

/-- The order of a name. -/
def ofName? (name : String) : Option VisitOrder :=
  [ranked, firstIn, lastIn].find? fun order => order.name == name

end VisitOrder

/-- The ranks of nodes, each node once. -/
abbrev Ranking (Node : Type) := List (Node × Int)

namespace Ranking

variable {Node : Type} [DecidableEq Node]

/-- Give a node its rank; a node that has one gets the new one. -/
def put (node : Node) (rank : Int) : Ranking Node → Ranking Node
  | [] => [(node, rank)]
  | (first, old) :: rest =>
      if first = node then (first, rank) :: rest else (first, old) :: put node rank rest

/-- The ranks that pairs give, later ones after earlier ones. -/
def ofPairs (pairs : List (Node × Int)) : Ranking Node :=
  pairs.foldl (fun ranking (node, rank) => put node rank ranking) []

end Ranking

/-- Pending nodes with their ranks, the next one first. -/
structure Worklist (Node : Type) where
  order : VisitOrder
  ranking : Ranking Node
  pending : List (Int × Node)
  deriving Repr, DecidableEq

namespace Worklist

variable {Node : Type} [DecidableEq Node] [LT Node] [DecidableLT Node]

/-- A worklist without pending nodes. -/
def empty (order : VisitOrder) (ranking : Ranking Node) : Worklist Node :=
  ⟨order, ranking, []⟩

/-- The rank of a node; nodes without one have the number of ranked nodes as rank. -/
def rank (worklist : Worklist Node) (node : Node) : Int :=
  (worklist.ranking.lookup node).getD worklist.ranking.length

/-- The pending nodes, the next one first. -/
def nodes (worklist : Worklist Node) : List Node :=
  worklist.pending.map Prod.snd

/-- Whether an entry is taken before another one. -/
def precedes (first second : Int × Node) : Bool :=
  decide (first.1 < second.1) || (first.1 == second.1 && decide (first.2 < second.2))

/-- Insert an entry before the first one that it precedes. -/
def insertRanked (entry : Int × Node) : List (Int × Node) → List (Int × Node)
  | [] => [entry]
  | first :: rest =>
      if precedes entry first then
        entry :: first :: rest
      else
        first :: insertRanked entry rest

/-- Add a node; a pending node stays where it is. -/
def push (worklist : Worklist Node) (node : Node) : Worklist Node :=
  if worklist.nodes.contains node then
    worklist
  else
    let entry := (worklist.rank node, node)
    let pending :=
      match worklist.order with
      | .ranked => insertRanked entry worklist.pending
      | .firstIn => worklist.pending ++ [entry]
      | .lastIn => entry :: worklist.pending
    { worklist with pending }

/-- Take the next node, if one is pending. -/
def pop? (worklist : Worklist Node) : Option (Node × Worklist Node) :=
  match worklist.pending with
  | [] => none
  | (_, node) :: pending => some (node, { worklist with pending })

/-- Whether no node is pending. -/
def isEmpty (worklist : Worklist Node) : Bool :=
  worklist.pending.isEmpty

end Worklist

end KeyAudit
