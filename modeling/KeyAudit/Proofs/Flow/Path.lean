import KeyAudit.Flow.Graph
import Mathlib.Data.List.Basic

namespace KeyAudit

/-!
# Paths through a flow graph

A path is a list of edges of which each begins where the one before it ends.
-/

namespace Graph

/-- Every edge leads to a node. -/
def Closed (graph : Graph) : Prop :=
  ∀ edge ∈ graph.edges, edge.target < graph.size

instance (graph : Graph) : Decidable graph.Closed :=
  inferInstanceAs (Decidable (∀ edge ∈ graph.edges, edge.target < graph.size))

/-- An edge leaves a node when it is an edge of the graph with the node as source. -/
theorem mem_outgoing
    {graph : Graph}
    {node : Nat}
    {edge : Edge} :
    edge ∈ graph.outgoing node ↔
      edge ∈ graph.edges ∧ edge.source = node := by
  simp [outgoing]

/-- The edges of a closed graph that leave a node lead to nodes. -/
theorem Closed.target_lt
    {graph : Graph}
    (closed : graph.Closed)
    {node : Nat}
    {edge : Edge}
    (leaves : edge ∈ graph.outgoing node) :
    edge.target < graph.size :=
  closed edge (mem_outgoing.mp leaves).1

/-- A list of edges that leads from one node to another. -/
inductive Path (graph : Graph) : Nat → List Edge → Nat → Prop where
  | nil (node : Nat) :
      Path graph node [] node
  | cons
      {edge : Edge}
      {rest : List Edge}
      {stop : Nat}
      (member : edge ∈ graph.edges)
      (later : Path graph edge.target rest stop) :
      Path graph edge.source (edge :: rest) stop

namespace Path

/-- A path can be extended by an edge that leaves its end. -/
theorem snoc
    {graph : Graph}
    {start stop : Nat}
    {path : List Edge}
    {edge : Edge}
    (before : graph.Path start path stop)
    (leaves : edge ∈ graph.outgoing stop) :
    graph.Path start (path ++ [edge]) edge.target := by
  obtain ⟨member, fromStop⟩ := mem_outgoing.mp leaves
  induction before with
  | nil node =>
      rw [← fromStop]
      exact .cons member (.nil edge.target)
  | cons first later inductionHypothesis =>
      exact .cons first (inductionHypothesis leaves fromStop)

/-- A path can be followed by another one that begins at its end. -/
theorem append
    {graph : Graph}
    {start middle stop : Nat}
    {first second : List Edge}
    (before : graph.Path start first middle)
    (after : graph.Path middle second stop) :
    graph.Path start (first ++ second) stop := by
  induction before with
  | nil node =>
      exact after
  | cons member later inductionHypothesis =>
      exact .cons member (inductionHypothesis after)

end Path

/-- Some path leads from one node to another. -/
def LeadsTo (graph : Graph) (start stop : Nat) : Prop :=
  ∃ path, graph.Path start path stop

namespace LeadsTo

variable {graph : Graph}

/-- A node leads to itself. -/
theorem refl (node : Nat) : graph.LeadsTo node node :=
  ⟨[], .nil node⟩

/-- The source of an edge leads to its target. -/
theorem edge
    {edge : Edge}
    (member : edge ∈ graph.edges) :
    graph.LeadsTo edge.source edge.target :=
  ⟨[edge], .cons member (.nil edge.target)⟩

/-- A node leads wherever a node leads to which it leads. -/
theorem trans
    {start middle stop : Nat}
    (earlier : graph.LeadsTo start middle)
    (later : graph.LeadsTo middle stop) :
    graph.LeadsTo start stop := by
  obtain ⟨first, before⟩ := earlier
  obtain ⟨second, after⟩ := later
  exact ⟨first ++ second, before.append after⟩

/-- What holds of a node and goes on along every edge holds wherever the node leads. -/
theorem keeps
    (Holds : Nat → Prop)
    (along :
      ∀ edge ∈ graph.edges,
        Holds edge.source →
        Holds edge.target)
    {start stop : Nat}
    (leads : graph.LeadsTo start stop)
    (atStart : Holds start) :
    Holds stop := by
  obtain ⟨path, isPath⟩ := leads
  induction isPath with
  | nil node =>
      exact atStart
  | cons member later inductionHypothesis =>
      exact inductionHypothesis (along _ member atStart)

end LeadsTo

end Graph

end KeyAudit
