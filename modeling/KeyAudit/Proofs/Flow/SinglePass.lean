import KeyAudit.Proofs.Flow.Unreached
import Mathlib.Data.Set.Card

namespace KeyAudit

/-!
# A single pass over a graph without cycles

Without cycles every edge goes to a node of higher rank.  A run that takes nodes
by rank therefore pushes only nodes behind all those that it has visited, and it
visits each node at most once.  So the reachable nodes bound the number of
visits, whatever the facts are.
-/

namespace Graph

variable {graph : Graph}

/-- The nodes of a graph that can be reached from its entry. -/
def reached (graph : Graph) : Set Nat :=
  {node | node < graph.size ∧ graph.LeadsTo 0 node}

theorem reached_finite (graph : Graph) : graph.reached.Finite :=
  (Set.finite_lt_nat graph.size).subset fun _ isReached => isReached.1

/-- Only nodes can be reached in a closed graph. -/
theorem mem_reached
    (closed : graph.Closed)
    (nonempty : 0 < graph.size)
    {node : Nat} :
    node ∈ graph.reached ↔ graph.LeadsTo 0 node := by
  constructor
  · exact fun isReached => isReached.2
  · intro leads
    have isNode : node < graph.size :=
      leads.keeps (· < graph.size) (fun edge member _ => closed edge member)
        nonempty
    exact ⟨isNode, leads⟩

/-- No node can be reached in a graph without nodes. -/
theorem reached_of_empty
    (empty : graph.size = 0) :
    graph.reached = ∅ := by
  apply Set.eq_empty_of_forall_notMem
  rintro node ⟨isNode, _⟩
  rw [empty] at isNode
  exact Nat.not_lt_zero node isNode

/-- Every node that can be reached has a rank. -/
theorem exists_rank?
    (closed : graph.Closed)
    (nonempty : 0 < graph.size)
    {node : Nat}
    (leads : graph.LeadsTo 0 node) :
    ∃ rank, graph.rank? node = some rank := by
  obtain ⟨rank, present⟩ :=
    List.mem_iff_getElem?.mp ((mem_reversePostorder closed nonempty).mpr leads)
  exact ⟨rank, (rank?_eq_some closed nonempty).mpr present⟩

/-- Without cycles an edge goes to a node of higher rank. -/
theorem Acyclic.ranksBefore
    (acyclic : graph.Acyclic)
    (closed : graph.Closed)
    (nonempty : 0 < graph.size)
    {edge : Edge}
    (member : edge ∈ graph.edges)
    (leads : graph.LeadsTo 0 edge.source) :
    graph.RanksBefore edge.source edge.target := by
  rcases ranksBefore_or_back closed nonempty member leads with
    isBefore | ⟨back, isBack⟩
  · exact isBefore
  · cases acyclic leads (.cons member isBack)

namespace RanksBefore

theorem irrefl
    {node : Nat} :
    ¬graph.RanksBefore node node := by
  rintro ⟨first, second, isFirst, isSecond, lower⟩
  cases isFirst.symm.trans isSecond
  exact Nat.lt_irrefl first lower

theorem trans
    {first second third : Nat}
    (earlier : graph.RanksBefore first second)
    (later : graph.RanksBefore second third) :
    graph.RanksBefore first third := by
  obtain ⟨lowest, middle, isLowest, isMiddle, lower⟩ := earlier
  obtain ⟨same, highest, isSame, isHighest, higher⟩ := later
  cases isMiddle.symm.trans isSame
  exact ⟨lowest, highest, isLowest, isHighest, lower.trans higher⟩

end RanksBefore

/-- Nodes of ascending ranks are all different. -/
theorem nodup_of_ascending
    {nodes : List Nat}
    (ascending : nodes.Pairwise graph.RanksBefore) :
    nodes.Nodup := by
  apply ascending.imp
  rintro first second isBefore rfl
  exact RanksBefore.irrefl isBefore

/-- A graph in which every edge between reachable nodes goes upwards has no cycle. -/
theorem acyclic_of_rising
    (height : Nat → Nat)
    (rises :
      ∀ edge ∈ graph.edges,
        graph.LeadsTo 0 edge.source →
        height edge.source < height edge.target) :
    graph.Acyclic := by
  have climbs
      {start stop : Nat}
      {path : List Edge}
      (isPath : graph.Path start path stop)
      (leads : graph.LeadsTo 0 start) :
      height start ≤ height stop := by
    induction isPath with
    | nil node =>
        exact Nat.le_refl _
    | cons member later inductionHypothesis =>
        exact (rises _ member leads).le.trans
          (inductionHypothesis (leads.trans (.edge member)))
  intro node path leads isPath
  cases isPath with
  | nil =>
      rfl
  | cons member later =>
      -- Behind the first edge the path cannot come back down.
      have upwards := rises _ member leads
      have notDown := climbs later (leads.trans (.edge member))
      exact (Nat.not_le_of_lt upwards notDown).elim

end Graph

namespace Problem

variable {Fault Fact : Type}
variable {problem : Problem Fault Fact}

private theorem lookup_cast
    (ranks : List (Nat × Nat))
    (node : Nat) :
    (ranks.map fun (node, rank) => (node, (rank : Int))).lookup node =
      (ranks.lookup node).map fun rank => (rank : Int) := by
  induction ranks with
  | nil =>
      rfl
  | cons first rest inductionHypothesis =>
      obtain ⟨other, rank⟩ := first
      rw [List.map_cons, List.lookup_cons, List.lookup_cons]
      cases node == other with
      | true =>
          rfl
      | false =>
          exact inductionHypothesis

/-- A worklist with the ranks of a problem waits by the ranks of its graph. -/
theorem rank_eq_of_rank?
    {worklist : Worklist Nat}
    (ranking_eq : worklist.ranking = problem.ranking)
    {node rank : Nat}
    (isRank : problem.graph.rank? node = some rank) :
    worklist.rank node = rank := by
  rw [Worklist.rank, ranking_eq, ranking, lookup_cast]
  rw [Graph.rank?] at isRank
  rw [isRank]
  rfl

/-- A worklist by rank gives back a node of lower rank than the other pending ones. -/
theorem ranksBefore_of_pop?
    (closed : problem.graph.Closed)
    (nonempty : 0 < problem.graph.size)
    {worklist rest : Worklist Nat}
    (sorted : worklist.Sorted)
    (ranking_eq : worklist.ranking = problem.ranking)
    {node : Nat}
    (popped : worklist.pop? = some (node, rest))
    (nodeLeads : problem.graph.LeadsTo 0 node)
    {other : Nat}
    (isPending : other ∈ rest.nodes)
    (otherLeads : problem.graph.LeadsTo 0 other) :
    problem.graph.RanksBefore node other := by
  obtain ⟨nodeRank, isNodeRank⟩ :=
    Graph.exists_rank? closed nonempty nodeLeads
  obtain ⟨otherRank, isOtherRank⟩ :=
    Graph.exists_rank? closed nonempty otherLeads
  have least := (sorted.pop? popped).2 other isPending
  rw [rank_eq_of_rank? ranking_eq isNodeRank,
    rank_eq_of_rank? ranking_eq isOtherRank] at least
  refine ⟨nodeRank, otherRank, isNodeRank, isOtherRank, ?_⟩
  rcases least with lower | ⟨sameRank, smaller⟩
  · exact Int.ofNat_lt.mp lower
  · -- Nodes of one rank are one node, and no node is smaller than itself.
    have same : nodeRank = otherRank := Int.ofNat_inj.mp sameRank
    subst same
    rw [Graph.rank?_eq_some closed nonempty] at isNodeRank isOtherRank
    cases isNodeRank.symm.trans isOtherRank
    exact (Nat.lt_irrefl node smaller).elim

/-- Visited nodes come in the order of their ranks, and pending ones come after them. -/
structure Ascends
    (problem : Problem Fault Fact)
    (run : Run Fact) : Prop where
  sorted : run.worklist.Sorted
  ranking_eq : run.worklist.ranking = problem.ranking
  ascending :
    run.visited.Pairwise fun later earlier =>
      problem.graph.RanksBefore earlier later
  ahead :
    ∀ {node other},
      node ∈ run.visited →
      other ∈ run.worklist.nodes →
      problem.graph.RanksBefore node other

namespace Ascends

variable {run : Run Fact}

/-- At the start the entry is pending, and no node is visited. -/
theorem start
    (problem : Problem Fault Fact) :
    problem.Ascends (problem.start .ranked) where
  sorted := (Worklist.Sorted.empty problem.ranking).push 0
  ranking_eq := (Worklist.push_setup ..).2
  ascending := .nil
  ahead := fun member => by cases member

/-- The node that is taken has a higher rank than all nodes visited before. -/
theorem take
    (closed : problem.graph.Closed)
    (nonempty : 0 < problem.graph.size)
    (ascends : problem.Ascends run)
    (reaches : problem.Reaches run)
    {node : Nat}
    {worklist : Worklist Nat}
    (popped : run.worklist.pop? = some (node, worklist)) :
    problem.Ascends
      { run with worklist, visited := node :: run.visited } := by
  have pendingBefore := Worklist.nodes_of_pop? popped
  have isPending : node ∈ run.worklist.nodes := by
    rw [pendingBefore]
    exact List.mem_cons_self
  have stillPending
      {other : Nat}
      (member : other ∈ worklist.nodes) :
      other ∈ run.worklist.nodes := by
    rw [pendingBefore]
    exact List.mem_cons_of_mem node member
  refine
    { sorted := (ascends.sorted.pop? popped).1
      ranking_eq := (Worklist.pop?_setup popped).2.trans ascends.ranking_eq
      ascending := ?_
      ahead := ?_ }
  · refine List.pairwise_cons.mpr ⟨?_, ascends.ascending⟩
    intro earlier member
    exact ascends.ahead member isPending
  · intro first other isVisited member
    rcases List.mem_cons.mp isVisited with rfl | older
    · exact ranksBefore_of_pop? closed nonempty ascends.sorted
        ascends.ranking_eq popped (reaches.pending_leads isPending) member
        (reaches.pending_leads (stillPending member))
    · exact ascends.ahead older (stillPending member)

/-- Following an edge of the last node visited pushes at most a node of higher rank. -/
theorem follow
    (closed : problem.graph.Closed)
    (nonempty : 0 < problem.graph.size)
    (acyclic : problem.graph.Acyclic)
    (ascends : problem.Ascends run)
    (reaches : problem.Reaches run)
    {node : Nat}
    {earlier : List Nat}
    (isLast : run.visited = node :: earlier)
    {edge : Edge}
    (leaves : edge ∈ problem.graph.outgoing node)
    {before after : Fact}
    {next : Run Fact}
    (relaxed : problem.relax before after run edge = .ok next) :
    problem.Ascends next := by
  obtain ⟨joined, _, ⟨_, rfl⟩ | ⟨_, rfl⟩⟩ := relax_eq_ok relaxed
  · exact ascends
  · obtain ⟨member, rfl⟩ := Graph.mem_outgoing.mp leaves
    have ascending := ascends.ascending
    rw [isLast] at ascending
    have nodeLeads : problem.graph.LeadsTo 0 edge.source := by
      apply reaches.visited_leads
      rw [isLast]
      exact List.mem_cons_self
    have toTarget :=
      acyclic.ranksBefore closed nonempty member nodeLeads
    refine
      { sorted := ascends.sorted.push edge.target
        ranking_eq :=
          (Worklist.push_setup ..).2.trans ascends.ranking_eq
        ascending := ascends.ascending
        ahead := ?_ }
    intro first other isVisited isPending
    rcases (Worklist.mem_nodes_push ..).mp isPending with rfl | older
    · -- The first node is the source of the edge or ranks before it.
      have inOrder : first ∈ edge.source :: earlier := isLast ▸ isVisited
      rcases List.mem_cons.mp inOrder with rfl | isEarlier
      · exact toTarget
      · exact ((List.pairwise_cons.mp ascending).1 first isEarlier).trans
          toTarget
    · exact ascends.ahead isVisited older

end Ascends

section Runs

variable {limit : Nat}

/-- A run by rank on a graph without cycles visits nodes of ascending ranks at every moment. -/
theorem ComesTo.ascends
    (closed : problem.graph.Closed)
    (acyclic : problem.graph.Acyclic)
    {moment : Moment Fact}
    (comes : problem.ComesTo .ranked limit moment) :
    problem.Ascends moment.run := by
  apply comes.invariant fun moment => problem.Ascends moment.run
  · intro _
    exact .start problem
  · intro earlier later comesEarlier ascends step
    have onTrack := comesEarlier.onTrack
    have reaches := comesEarlier.reaches
    cases step with
    | take allowed popped =>
        exact ascends.take closed comesEarlier.nonempty reaches popped
    | enter transferred =>
        exact ascends
    | follow relaxed =>
        obtain ⟨⟨visited, isLast⟩, leave⟩ := onTrack
        exact ascends.follow closed comesEarlier.nonempty acyclic reaches isLast
          (leave _ List.mem_cons_self) relaxed
    | finish =>
        exact ascends

/-- Nodes that were visited or are pending, each once, are some of the reachable ones. -/
theorem Reaches.visits_le
    (closed : problem.graph.Closed)
    (nonempty : 0 < problem.graph.size)
    {run : Run Fact}
    (reaches : problem.Reaches run)
    (nodes : List Nat)
    (once : (nodes ++ run.visited).Nodup)
    (pending : ∀ {node}, node ∈ nodes → node ∈ run.worklist.nodes) :
    nodes.length + run.visits ≤ problem.graph.reached.ncard := by
  have inside :
      ((nodes ++ run.visited).toFinset : Set Nat) ⊆ problem.graph.reached := by
    intro node member
    rw [Graph.mem_reached closed nonempty]
    rcases List.mem_append.mp (List.mem_toFinset.mp member) with
      isPending | isVisited
    · exact reaches.pending_leads (pending isPending)
    · exact reaches.visited_leads isVisited
  have counted :=
    Set.ncard_le_ncard inside problem.graph.reached_finite
  rw [Set.ncard_coe_finset, List.toFinset_card_of_nodup once,
    List.length_append] at counted
  exact counted

theorem Ascends.visited_once
    {run : Run Fact}
    (ascends : problem.Ascends run) :
    run.visited.Nodup :=
  List.nodup_reverse.mp
    (Graph.nodup_of_ascending (List.pairwise_reverse.mpr ascends.ascending))

/-- A run by rank with a visit for each reachable node converges unless it fails. -/
theorem converged_of_acyclic
    (closed : problem.graph.Closed)
    (acyclic : problem.graph.Acyclic)
    (enough : problem.graph.reached.ncard ≤ limit)
    {run : Run Fact}
    (solved : problem.solve .ranked limit = .ok run) :
    run.converged = true := by
  by_cases empty : problem.graph.size = 0
  · rw [problem.solve_of_empty empty] at solved
    cases solved
    rfl
  · have nonempty : 0 < problem.graph.size := Nat.pos_of_ne_zero empty
    have comes := comesTo_of_solve nonempty solved
    have ascends := comes.ascends closed acyclic
    by_contra notConverged
    have stopped : run.converged = false := Bool.eq_false_iff.mpr notConverged
    -- A node that is still pending was never visited, so one visit was to spare.
    obtain ⟨node, isPending⟩ :=
      List.exists_mem_of_ne_nil _ (Worklist.nodes_ne_nil_of_not_isEmpty stopped)
    have isNew : node ∉ run.visited := fun isVisited =>
      Graph.RanksBefore.irrefl (ascends.ahead isVisited isPending)
    have bounded :=
      comes.reaches.visits_le closed nonempty [node]
        (List.nodup_cons.mpr ⟨isNew, ascends.visited_once⟩)
        (fun member => List.mem_singleton.mp member ▸ isPending)
    rw [solve_visits solved stopped, List.length_singleton] at bounded
    omega

/-- Every live node was visited or is pending. -/
def Accounted
    (problem : Problem Fault Fact)
    (run : Run Fact) : Prop :=
  ∀ {node},
    problem.Live node (problem.factAt run node) →
    node ∈ run.visited ∨ node ∈ run.worklist.nodes

/-- No live node is forgotten, in any order and at any moment. -/
theorem ComesTo.accounted
    (closed : problem.graph.Closed)
    {order : VisitOrder}
    {moment : Moment Fact}
    (comes : problem.ComesTo order limit moment) :
    problem.Accounted moment.run := by
  refine comes.invariant (fun moment => problem.Accounted moment.run) ?_ ?_
  · intro nonempty node live
    right
    rw [start, Worklist.mem_nodes_push]
    rcases live with isEntry | aboveBottom
    · exact Or.inl isEntry
    · by_contra notPending
      rw [factAt_start problem nonempty,
        if_neg fun isEntry => notPending (Or.inl isEntry)] at aboveBottom
      exact aboveBottom rfl
  · intro earlier later comesEarlier accounted step node live
    have onTrack := comesEarlier.onTrack
    cases step with
    | take allowed popped =>
        rcases accounted live with isVisited | isPending
        · exact Or.inl (List.mem_cons_of_mem _ isVisited)
        · rw [Worklist.nodes_of_pop? popped] at isPending
          rcases List.mem_cons.mp isPending with rfl | inRest
          · exact Or.inl List.mem_cons_self
          · exact Or.inr inRest
    | enter transferred =>
        exact accounted live
    | follow relaxed =>
        rename_i run next current before after edge edges
        have inside : edge.target < run.facts.size := by
          rw [comesEarlier.size_eq]
          exact closed.target_lt (onTrack.2 edge List.mem_cons_self)
        obtain ⟨joined, _, ⟨_, rfl⟩ | ⟨_, rfl⟩⟩ := relax_eq_ok relaxed
        · exact accounted live
        · rw [Worklist.mem_nodes_push]
          by_cases isTarget : node = edge.target
          · exact Or.inr (Or.inl isTarget)
          · rw [factAt_update problem run _ inside, if_neg isTarget] at live
            rcases accounted live with isVisited | isPending
            · exact Or.inl isVisited
            · exact Or.inr (Or.inr isPending)
    | finish =>
        exact accounted live

end Runs

end Problem

end KeyAudit
