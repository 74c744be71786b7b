import KeyAudit.Proofs.Flow.Postorder
import KeyAudit.Proofs.Flow.Steps

namespace KeyAudit

/-!
# Nodes that cannot be reached

A run only visits nodes that can be reached from the entry, and only those get
facts.  So the edges of all other nodes, and what these nodes do to facts, make
no difference to a run: neither to its ranks nor to its visits nor to its facts.
-/

namespace Graph

variable {first second : Graph}

/-- Two graphs have as many nodes, and the same edges leave the reachable ones. -/
structure SameReached (first second : Graph) : Prop where
  size_eq : second.size = first.size
  outgoing_eq :
    ∀ {node},
      first.LeadsTo 0 node →
      second.outgoing node = first.outgoing node

namespace SameReached

/-- Paths of the first graph are followed in the second one. -/
private theorem follows
    (same : first.SameReached second)
    {start stop : Nat}
    {path : List Edge}
    (isPath : first.Path start path stop)
    (leads : first.LeadsTo 0 start) :
    second.Path start path stop := by
  induction isPath with
  | nil node =>
      exact .nil node
  | cons member later inductionHypothesis =>
      have leaves := Graph.mem_outgoing.mpr ⟨member, rfl⟩
      rw [← same.outgoing_eq leads] at leaves
      exact .cons (Graph.mem_outgoing.mp leaves).1
        (inductionHypothesis (leads.trans (.edge member)))

/-- The same nodes can be reached. -/
theorem leadsTo
    (same : first.SameReached second)
    {node : Nat} :
    second.LeadsTo 0 node ↔ first.LeadsTo 0 node := by
  constructor
  · intro leads
    refine leads.keeps (first.LeadsTo 0) ?_ (.refl 0)
    intro edge member reached
    have leaves := Graph.mem_outgoing.mpr ⟨member, rfl⟩
    rw [same.outgoing_eq reached] at leaves
    exact reached.trans (.edge (Graph.mem_outgoing.mp leaves).1)
  · rintro ⟨path, isPath⟩
    exact ⟨path, same.follows isPath (.refl 0)⟩

/-- A search that visits a reachable node sees the same nodes behind it. -/
theorem visit_eq
    (same : first.SameReached second)
    (bound : Nat)
    (search : Search)
    {node : Nat}
    (leads : first.LeadsTo 0 node) :
    second.visit bound search node = first.visit bound search node := by
  induction bound generalizing search node with
  | zero =>
      rfl
  | succ bound inductionHypothesis =>
      have sameNext : second.next node = first.next node := by
        unfold next
        rw [same.outgoing_eq leads]
      have behind
          (search : Search) :
          (first.next node).foldl (second.visit bound) search =
            (first.next node).foldl (first.visit bound) search := by
        apply List.foldl_ext
        intro reached other isNext
        exact inductionHypothesis reached (leads.trans (.next isNext))
      unfold visit
      rw [sameNext, behind]

/-- The nodes have the same ranks. -/
theorem ranking_eq
    (same : first.SameReached second) :
    second.ranking = first.ranking := by
  unfold ranking reversePostorder
  rw [same.size_eq, same.visit_eq _ _ (.refl 0)]

end SameReached

end Graph

namespace Problem

variable {Fault Fact : Type}
variable {problem : Problem Fault Fact}

/-- A run has visited, keeps pending and knows facts about reachable nodes only. -/
structure Reaches
    (problem : Problem Fault Fact)
    (run : Run Fact) : Prop where
  visited_leads :
    ∀ {node}, node ∈ run.visited → problem.graph.LeadsTo 0 node
  pending_leads :
    ∀ {node}, node ∈ run.worklist.nodes → problem.graph.LeadsTo 0 node
  fact_leads :
    ∀ {node},
      problem.factAt run node ≠ problem.lattice.bottom →
      problem.graph.LeadsTo 0 node

section Runs

variable {limit : Nat}

/-- At the start the entry alone is pending and has a fact. -/
theorem start_reaches
    (problem : Problem Fault Fact)
    (nonempty : 0 < problem.graph.size)
    (order : VisitOrder) :
    problem.Reaches (problem.start order) where
  visited_leads member := (List.not_mem_nil member).elim
  pending_leads := by
    intro node member
    rcases (Worklist.mem_nodes_push ..).mp member with rfl | older
    · exact .refl 0
    · cases older
  fact_leads := by
    intro node aboveBottom
    rw [factAt_start problem nonempty] at aboveBottom
    by_cases isEntry : node = 0
    · rw [isEntry]
      exact .refl 0
    · rw [if_neg isEntry] at aboveBottom
      exact (aboveBottom rfl).elim

/-- Following an edge of a reachable node reaches at most its target. -/
theorem Reaches.relax
    {run next : Run Fact}
    (reaches : problem.Reaches run)
    {edge : Edge}
    (leads : problem.graph.LeadsTo 0 edge.target)
    {before after : Fact}
    (relaxed : problem.relax before after run edge = .ok next) :
    problem.Reaches next := by
  obtain ⟨joined, _, ⟨_, rfl⟩ | ⟨_, rfl⟩⟩ := relax_eq_ok relaxed
  · exact reaches
  · refine
      { visited_leads := reaches.visited_leads
        pending_leads := ?_
        fact_leads := ?_ }
    · intro node isPending
      rcases (Worklist.mem_nodes_push ..).mp isPending with rfl | older
      · exact leads
      · exact reaches.pending_leads older
    · intro node aboveBottom
      by_cases isTarget : node = edge.target
      · rw [isTarget]
        exact leads
      · apply reaches.fact_leads
        rw [factAt, Array.getD_eq_getD_getElem?,
          Array.getElem?_setIfInBounds_ne (Ne.symm isTarget)] at aboveBottom
        rwa [factAt, Array.getD_eq_getD_getElem?]

/-- A step goes on to reachable nodes only. -/
theorem Step.reaches
    {earlier later : Moment Fact}
    (step : problem.Step limit earlier later)
    (onTrack : problem.OnTrack earlier)
    (reaches : problem.Reaches earlier.run) :
    problem.Reaches later.run := by
  cases step with
  | take allowed popped =>
      have pendingBefore := Worklist.nodes_of_pop? popped
      refine
        { visited_leads := ?_
          pending_leads := ?_
          fact_leads := reaches.fact_leads }
      · intro node isVisited
        rcases List.mem_cons.mp isVisited with rfl | older
        · apply reaches.pending_leads
          rw [pendingBefore]
          exact List.mem_cons_self
        · exact reaches.visited_leads older
      · intro node isPending
        apply reaches.pending_leads
        rw [pendingBefore]
        exact List.mem_cons_of_mem _ isPending
  | enter transferred =>
      exact reaches
  | follow relaxed =>
      obtain ⟨⟨visited, isLast⟩, leave⟩ := onTrack
      obtain ⟨member, fromNode⟩ :=
        Graph.mem_outgoing.mp (leave _ List.mem_cons_self)
      apply reaches.relax _ relaxed
      refine .trans (reaches.visited_leads ?_) (.edge member)
      rw [fromNode, isLast]
      exact List.mem_cons_self
  | finish =>
      exact reaches

/-- Steps stay on track among the nodes that can be reached. -/
theorem reaches_of_steps
    {earlier later : Moment Fact}
    (steps : problem.Steps limit earlier later)
    (onTrack : problem.OnTrack earlier)
    (reaches : problem.Reaches earlier.run) :
    problem.OnTrack later ∧ problem.Reaches later.run := by
  induction steps with
  | refl =>
      exact ⟨onTrack, reaches⟩
  | tail _ step inductionHypothesis =>
      obtain ⟨onTrackBefore, reachesBefore⟩ := inductionHypothesis
      exact
        ⟨step.onTrack onTrackBefore, step.reaches onTrackBefore reachesBefore⟩

/-- A run never leaves the nodes that can be reached. -/
theorem ComesTo.reaches
    {order : VisitOrder}
    {moment : Moment Fact}
    (comes : problem.ComesTo order limit moment) :
    problem.Reaches moment.run :=
  (reaches_of_steps comes.steps trivial
    (start_reaches problem comes.nonempty order)).2

/-- A visit of a pending node reaches reachable nodes only. -/
theorem Reaches.visit
    {run next : Run Fact}
    (reaches : problem.Reaches run)
    {node : Nat}
    {worklist : Worklist Nat}
    (popped : run.worklist.pop? = some (node, worklist))
    (visited : problem.visit { run with worklist } node = .ok next) :
    problem.Reaches next :=
  (reaches_of_steps
    (steps_of_visit (Nat.lt_succ_self run.visits) popped visited)
    trivial reaches).2

variable {graph : Graph}
variable {transfer : Nat → Fact → Except Fault Fact}

/-- A visit of a reachable node depends on nothing at nodes that cannot be reached. -/
theorem visit_eq_of_sameReached
    (same : problem.graph.SameReached graph)
    (transfer_eq :
      ∀ {node},
        problem.graph.LeadsTo 0 node →
        transfer node = problem.transfer node)
    (run : Run Fact)
    {node : Nat}
    (leads : problem.graph.LeadsTo 0 node) :
    visit { problem with graph, transfer } run node =
      problem.visit run node := by
  unfold visit
  simp only [transfer_eq leads, same.outgoing_eq leads]
  rfl

/-- Visits of pending nodes depend on nothing at nodes that cannot be reached. -/
theorem iterate_eq_of_sameReached
    (same : problem.graph.SameReached graph)
    (transfer_eq :
      ∀ {node},
        problem.graph.LeadsTo 0 node →
        transfer node = problem.transfer node)
    {run : Run Fact}
    (reaches : problem.Reaches run) :
    iterate { problem with graph, transfer } limit run =
      problem.iterate limit run := by
  induction limit generalizing run with
  | zero =>
      rfl
  | succ limit inductionHypothesis =>
      unfold iterate
      cases popped : run.worklist.pop? with
      | none =>
          rfl
      | some taken =>
          obtain ⟨node, worklist⟩ := taken
          have leads : problem.graph.LeadsTo 0 node := by
            apply reaches.pending_leads
            rw [Worklist.nodes_of_pop? popped]
            exact List.mem_cons_self
          simp only [visit_eq_of_sameReached same transfer_eq _ leads]
          cases visited : problem.visit { run with worklist } node with
          | error fault =>
              rfl
          | ok next =>
              exact inductionHypothesis (reaches.visit popped visited)

/-- A run depends on nothing at nodes that cannot be reached. -/
theorem solve_eq_of_sameReached
    (problem : Problem Fault Fact)
    (same : problem.graph.SameReached graph)
    (transfer_eq :
      ∀ {node},
        problem.graph.LeadsTo 0 node →
        transfer node = problem.transfer node)
    (order : VisitOrder)
    (limit : Nat) :
    solve { problem with graph, transfer } order limit =
      problem.solve order limit := by
  by_cases empty : problem.graph.size = 0
  · rw [problem.solve_of_empty empty,
      solve_of_empty _ (same.size_eq.trans empty)]
  · have nonempty : 0 < problem.graph.size := Nat.pos_of_ne_zero empty
    have start_eq :
        start { problem with graph, transfer } order =
          problem.start order := by
      unfold start ranking
      rw [same.ranking_eq, same.size_eq]
    unfold solve
    rw [if_neg empty, if_neg (same.size_eq ▸ empty), start_eq]
    exact iterate_eq_of_sameReached same transfer_eq
      (start_reaches problem nonempty order)

end Runs

end Problem

end KeyAudit
