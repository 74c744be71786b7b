import KeyAudit.Flow.Graph
import KeyAudit.Flow.Lattice
import KeyAudit.Flow.Worklist

namespace KeyAudit

/-!
# Forward dataflow analysis

Facts flow along the edges of a graph and are joined where edges meet.  A node
is visited again whenever the fact at its entry grows.  The number of visits is
limited; a run that stops at the limit with pending nodes has not converged.
-/

/-- A dataflow problem. -/
structure Problem (Fault Fact : Type) where
  graph : Graph
  lattice : Lattice Fault Fact
  /-- The fact after a node by the fact before it. -/
  transfer : Nat → Fact → Except Fault Fact
  /-- What an edge carries by the facts before and after its source. -/
  carry : Edge → Fact → Fact → Fact
  /-- The fact at the entry. -/
  initial : Fact

/-- A point in a run of the solver. -/
structure Run (Fact : Type) where
  /-- The fact before each node. -/
  facts : Array Fact
  worklist : Worklist Nat
  /-- The nodes visited so far, the last one first. -/
  visited : List Nat

namespace Run

variable {Fact : Type}

/-- The number of visits so far. -/
def visits (run : Run Fact) : Nat :=
  run.visited.length

/-- Whether no node is pending. -/
def converged (run : Run Fact) : Bool :=
  run.worklist.isEmpty

end Run

namespace Problem

variable {Fault Fact : Type}

/-- The fact before a node. -/
def factAt (problem : Problem Fault Fact) (run : Run Fact) (node : Nat) : Fact :=
  run.facts.getD node problem.lattice.bottom

/-- The ranks of nodes by which they wait. -/
def ranking (problem : Problem Fault Fact) : Ranking Nat :=
  problem.graph.ranking.map fun (node, rank) => (node, (rank : Int))

/-- The start of a run: only the entry has a fact, and only the entry is pending. -/
def start (problem : Problem Fault Fact) (order : VisitOrder) : Run Fact :=
  { facts := (Array.replicate problem.graph.size problem.lattice.bottom).setIfInBounds 0
      problem.initial
    worklist := (Worklist.empty order problem.ranking).push 0
    visited := [] }

/-- Join what an edge carries to the fact before its target. -/
def relax
    (problem : Problem Fault Fact)
    (before after : Fact)
    (run : Run Fact)
    (edge : Edge) :
    Except Fault (Run Fact) := do
  let old := problem.factAt run edge.target
  let new ← problem.lattice.join old (problem.carry edge before after)
  if problem.lattice.same new old then
    return run
  else
    return { run with
      facts := run.facts.setIfInBounds edge.target new
      worklist := run.worklist.push edge.target }

/-- Visit a node that was just taken off the worklist. -/
def visit
    (problem : Problem Fault Fact)
    (run : Run Fact)
    (node : Nat) :
    Except Fault (Run Fact) := do
  let before := problem.factAt run node
  let after ← problem.transfer node before
  (problem.graph.outgoing node).foldlM (problem.relax before after)
    { run with visited := node :: run.visited }

/-- Visit pending nodes as long as the limit allows. -/
def iterate (problem : Problem Fault Fact) :
    (limit : Nat) → Run Fact → Except Fault (Run Fact)
  | 0, run => .ok run
  | limit + 1, run =>
      match run.worklist.pop? with
      | none => .ok run
      | some (node, worklist) => do
          let run ← problem.visit { run with worklist } node
          problem.iterate limit run

/-- Solve a problem with a limit on the number of visits; no nodes need no visit. -/
def solve
    (problem : Problem Fault Fact)
    (order : VisitOrder)
    (limit : Nat) :
    Except Fault (Run Fact) :=
  if problem.graph.size = 0 then
    .ok { facts := #[], worklist := .empty order [], visited := [] }
  else
    problem.iterate limit (problem.start order)

end Problem

end KeyAudit
