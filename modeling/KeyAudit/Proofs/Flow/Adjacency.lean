import KeyAudit.Flow.Graph
import Mathlib.Data.List.Basic

namespace KeyAudit

/-!
# Lists of neighbours

While edges are added one by one, two lists are kept for each node: the edges
that leave it and those that enter it.  They are the edges of the whole graph with
the node at one end, in the order in which they were added.
-/

/-- The edges of a graph under construction, and those that leave and enter each node. -/
structure Adjacency where
  edges : List Edge
  leaving : List (List Edge)
  entering : List (List Edge)
  deriving Repr, DecidableEq

namespace Adjacency

/-- So many nodes without edges. -/
def blank (size : Nat) : Adjacency :=
  ⟨[], List.replicate size [], List.replicate size []⟩

/-- Append an edge to the list of a node, if there is such a node. -/
def append? (lists : List (List Edge)) (node : Nat) (edge : Edge) :
    Option (List (List Edge)) :=
  lists[node]?.map fun present => lists.set node (present ++ [edge])

/-- Add an edge between two nodes, if both are there. -/
def addEdge? (adjacency : Adjacency) (edge : Edge) : Option Adjacency := do
  let leaving ← append? adjacency.leaving edge.source edge
  let entering ← append? adjacency.entering edge.target edge
  return ⟨adjacency.edges ++ [edge], leaving, entering⟩

/-- The neighbours in a graph whose edges are added one by one. -/
def ofGraph? (graph : Graph) : Option Adjacency :=
  graph.edges.foldlM addEdge? (blank graph.size)

/-- For each node the edges that have it at one of their ends. -/
def listsOf (size : Nat) (endOf : Edge → Nat) (edges : List Edge) : List (List Edge) :=
  (List.range size).map fun node => edges.filter fun edge => endOf edge == node

/-- The neighbours in a graph, told from all its edges. -/
def ofGraph (graph : Graph) : Adjacency :=
  ⟨graph.edges, (List.range graph.size).map graph.outgoing,
    (List.range graph.size).map graph.incoming⟩

/-- Both ends of an edge are nodes. -/
def Inside (size : Nat) (edge : Edge) : Prop :=
  edge.source < size ∧ edge.target < size

/-- An edge comes last in the list of its end, which is there if the end is a node. -/
theorem append?_listsOf
    {size : Nat}
    {endOf : Edge → Nat}
    {edges : List Edge}
    {edge : Edge}
    {lists : List (List Edge)} :
    append? (listsOf size endOf edges) (endOf edge) edge = some lists ↔
      endOf edge < size ∧ lists = listsOf size endOf (edges ++ [edge]) := by
  have grown
      (inside : endOf edge < size) :
      (listsOf size endOf edges).set (endOf edge)
          ((edges.filter fun other => endOf other == endOf edge) ++ [edge]) =
        listsOf size endOf (edges ++ [edge]) := by
    refine List.ext_getElem (by simp [listsOf]) fun node isNode _ => ?_
    by_cases isEnd : endOf edge = node
    · simp [listsOf, isEnd]
    · simp [listsOf, isEnd]
  unfold append?
  by_cases inside : endOf edge < size
  · have present :
        (listsOf size endOf edges)[endOf edge]? =
          some (edges.filter fun other => endOf other == endOf edge) := by
      simp [listsOf, inside]
    rw [present, Option.map_some, grown inside, Option.some_inj]
    exact ⟨fun same => ⟨inside, same.symm⟩, fun same => same.2.symm⟩
  · have absent : (listsOf size endOf edges)[endOf edge]? = none := by
      simpa [listsOf] using inside
    rw [absent]
    exact ⟨nofun, fun both => (inside both.1).elim⟩

/-- An edge is added to the lists of both its ends. -/
theorem addEdge?_ofGraph
    {size : Nat}
    {edges : List Edge}
    {edge : Edge}
    {adjacency : Adjacency} :
    addEdge? (ofGraph ⟨size, edges⟩) edge = some adjacency ↔
      Inside size edge ∧ adjacency = ofGraph ⟨size, edges ++ [edge]⟩ := by
  have leaves := @append?_listsOf size Edge.source edges edge
  have enters := @append?_listsOf size Edge.target edges edge
  unfold addEdge?
  simp only [Option.bind_eq_bind, Option.bind_eq_some_iff]
  constructor
  · rintro ⟨leaving, isLeaving, entering, isEntering, same⟩
    obtain ⟨fromNode, rfl⟩ := leaves.mp isLeaving
    obtain ⟨toNode, rfl⟩ := enters.mp isEntering
    cases same
    exact ⟨⟨fromNode, toNode⟩, rfl⟩
  · rintro ⟨⟨fromNode, toNode⟩, rfl⟩
    exact
      ⟨_, leaves.mpr ⟨fromNode, rfl⟩, _, enters.mpr ⟨toNode, rfl⟩, rfl⟩

/-- Edges are added one by one exactly if all their ends are nodes. -/
theorem foldlM_addEdge?
    {size : Nat}
    {earlier edges : List Edge}
    {adjacency : Adjacency} :
    edges.foldlM addEdge? (ofGraph ⟨size, earlier⟩) = some adjacency ↔
      (∀ edge ∈ edges, Inside size edge) ∧
        adjacency = ofGraph ⟨size, earlier ++ edges⟩ := by
  induction edges generalizing earlier with
  | nil =>
      simp [eq_comm]
  | cons edge edges inductionHypothesis =>
      rw [List.foldlM_cons, Option.bind_eq_bind, Option.bind_eq_some_iff]
      constructor
      · rintro ⟨next, isNext, rest⟩
        obtain ⟨inside, rfl⟩ := addEdge?_ofGraph.mp isNext
        obtain ⟨allInside, same⟩ := inductionHypothesis.mp rest
        refine ⟨List.forall_mem_cons.mpr ⟨inside, allInside⟩, ?_⟩
        rw [same, List.append_assoc, List.singleton_append]
      · rintro ⟨allInside, same⟩
        obtain ⟨inside, restInside⟩ := List.forall_mem_cons.mp allInside
        refine
          ⟨_, addEdge?_ofGraph.mpr ⟨inside, rfl⟩,
            inductionHypothesis.mpr ⟨restInside, ?_⟩⟩
        rw [same, List.append_assoc, List.singleton_append]

/--
The lists that are kept while edges are added hold for each node the edges that
leave it and those that enter it; adding fails only at an edge without a node at
one of its ends.
-/
theorem ofGraph?_eq_some
    {graph : Graph}
    {adjacency : Adjacency} :
    ofGraph? graph = some adjacency ↔
      (∀ edge ∈ graph.edges, Inside graph.size edge) ∧
        adjacency = ofGraph graph := by
  have nothingListed (endOf : Edge → Nat) :
      List.replicate graph.size [] = listsOf graph.size endOf [] := by
    simp [listsOf, List.map_const']
  have start : blank graph.size = ofGraph ⟨graph.size, []⟩ :=
    congrArg₂ (mk []) (nothingListed Edge.source) (nothingListed Edge.target)
  rw [ofGraph?, start]
  exact foldlM_addEdge?

end Adjacency

end KeyAudit
