import KeyAudit.Proofs.Flow.Solution
import Mathlib.Algebra.Order.BigOperators.Group.Finset

namespace KeyAudit

/-!
# How many visits a run needs

A node becomes pending again only when its fact grows.  So a bound on how often
a fact can grow is a bound on the visits of a node, and a run that may make as
many visits as all nodes need together leaves no node pending.  A larger limit
changes nothing for a run that has converged or failed.

Facts may grow with the distance from the entry.  A node has a fact only after
another node had one, so the number of nodes reached so far bounds the distance.
-/

namespace Run

variable {Fact : Type}

/-- How often a node has become pending so far. -/
def requests (run : Run Fact) (node : Nat) : Nat :=
  run.visited.count node + run.worklist.nodes.count node

/-- Visits and pending nodes together are as many as the requests allow. -/
theorem visits_add_pending_le
    (run : Run Fact)
    {size bound : Nat}
    (inside : ∀ node, run.requests node ≠ 0 → node < size)
    (each : ∀ node, run.requests node ≤ bound) :
    run.visits + run.worklist.nodes.length ≤ size * bound := by
  let made : Multiset Nat := ↑(run.visited ++ run.worklist.nodes)
  have counted (node : Nat) : made.count node = run.requests node := by
    rw [Multiset.coe_count, List.count_append]
    rfl
  have members : ∀ node ∈ made, node ∈ Finset.range size := by
    intro node member
    apply Finset.mem_range.mpr
    apply inside
    rw [← counted]
    exact Multiset.count_ne_zero.mpr member
  calc
    run.visits + run.worklist.nodes.length = made.card := by
      rw [Multiset.coe_card, List.length_append]
      rfl
    _ = ∑ node ∈ Finset.range size, made.count node :=
      (Multiset.sum_count_eq_card members).symm
    _ ≤ ∑ _ ∈ Finset.range size, bound :=
      Finset.sum_le_sum fun node _ => counted node ▸ each node
    _ = size * bound := by
      rw [Finset.sum_const_nat fun _ _ => rfl, Finset.card_range]

end Run

namespace Problem

variable {Fault Fact : Type}

/-- How often a node may have become pending by the time that it has a fact. -/
structure Affords
    (problem : Problem Fault Fact)
    (Pays : Fact → Nat → Prop) : Prop where
  bottom : Pays problem.lattice.bottom 0
  initial : Pays problem.initial 1
  fewer :
    ∀ {fact count fewer},
      Pays fact count →
      fewer ≤ count →
      Pays fact fewer
  grown :
    ∀ {first second joined count},
      Pays first count →
      problem.lattice.join first second = .ok joined →
      joined ≠ first →
      Pays joined (count + 1)

/-- What lies within a distance from the entry, where each edge adds one. -/
structure Spreads
    (problem : Problem Fault Fact)
    (Within : Nat → Fact → Prop) : Prop where
  bottom : ∀ distance, Within distance problem.lattice.bottom
  initial : Within 1 problem.initial
  farther :
    ∀ {distance farther fact},
      Within distance fact →
      distance ≤ farther →
      Within farther fact
  carried :
    ∀ {distance node before after edge},
      node < problem.graph.size →
      Within distance before →
      problem.transfer node before = .ok after →
      edge ∈ problem.graph.outgoing node →
      Within (distance + 1) (problem.carry edge before after)
  joined :
    ∀ {distance first second joined},
      first ≠ problem.lattice.bottom →
      Within distance first →
      problem.lattice.join first second = .ok joined →
      Within distance joined

section Runs

variable {problem : Problem Fault Fact}
variable {Pays : Fact → Nat → Prop}

/-- Every node has become pending no more often than its fact pays for. -/
def Paid
    (problem : Problem Fault Fact)
    (Pays : Fact → Nat → Prop)
    (run : Run Fact) : Prop :=
  run.facts.size = problem.graph.size ∧
    ∀ node, Pays (problem.factAt run node) (run.requests node)

theorem Affords.relax
    (affords : problem.Affords Pays)
    (lawful : problem.lattice.Lawful)
    {before after : Fact}
    {run next : Run Fact}
    {edge : Edge}
    (inside : edge.target < problem.graph.size)
    (paid : problem.Paid Pays run)
    (relaxed : problem.relax before after run edge = .ok next) :
    problem.Paid Pays next := by
  obtain ⟨sized, pays⟩ := paid
  obtain ⟨joined, joins, ⟨_, rfl⟩ | ⟨grown, rfl⟩⟩ :=
    relax_cases lawful relaxed
  · exact ⟨sized, pays⟩
  · refine ⟨by simpa using sized, fun node => ?_⟩
    have pushed := run.worklist.count_nodes_push edge.target node
    rw [factAt_update problem run _ (sized ▸ inside)]
    split
    · rename_i isTarget
      subst node
      apply affords.fewer (affords.grown (pays edge.target) joins grown)
      simpa [Run.requests, Nat.add_assoc] using pushed
    · rename_i otherNode
      apply affords.fewer (pays node)
      simpa [Run.requests, Ne.symm otherNode] using pushed

/-- A visit turns a pending node into a visited one and pays for what becomes pending. -/
theorem Affords.visit
    (affords : problem.Affords Pays)
    (lawful : problem.lattice.Lawful)
    (closed : problem.graph.Closed)
    {run next : Run Fact}
    {node : Nat}
    {worklist : Worklist Nat}
    (paid : problem.Paid Pays run)
    (popped : run.worklist.pop? = some (node, worklist))
    (visited : problem.visit { run with worklist } node = .ok next) :
    problem.Paid Pays next := by
  obtain ⟨after, _, visited⟩ := Outcome.bind_eq_ok.mp visited
  have atStart :
      problem.Paid Pays
        { run with worklist, visited := node :: run.visited } := by
    refine ⟨paid.1, fun other => ?_⟩
    have requested :
        Run.requests
            { run with worklist, visited := node :: run.visited } other =
          run.requests other := by
      unfold Run.requests
      dsimp only
      rw [Worklist.nodes_of_pop? popped, List.count_cons, List.count_cons]
      omega
    rw [requested]
    exact paid.2 other
  refine Outcome.foldlM_invariant
    (fun _ reached => problem.Paid Pays reached)
    ?_ atStart visited
  intro done edge rest reached further shape holds relaxed
  have leaves : edge ∈ problem.graph.outgoing node := by
    rw [shape]
    simp
  exact affords.relax lawful (closed.target_lt leaves) holds relaxed

/-- At the end of a run every node has been visited as often as its fact pays for. -/
theorem Affords.requests
    (affords : problem.Affords Pays)
    (lawful : problem.lattice.Lawful)
    (closed : problem.graph.Closed)
    {order : VisitOrder}
    {limit : Nat}
    {run : Run Fact}
    (solved : problem.solve order limit = .ok run)
    (node : Nat) :
    Pays (problem.factAt run node) (run.requests node) := by
  unfold solve at solved
  split at solved
  · cases solved
    simpa [Problem.factAt, Run.requests, Worklist.nodes, Worklist.empty]
      using affords.bottom
  · rename_i hasNodes
    have paid : problem.Paid Pays (problem.start order) := by
      refine ⟨by simp [start], fun other => ?_⟩
      rw [factAt_start problem (Nat.pos_of_ne_zero hasNodes)]
      have pushed :=
        (Worklist.empty order problem.ranking).count_nodes_push 0 other
      split
      · apply affords.fewer affords.initial
        subst other
        simpa [Run.requests, start, Worklist.nodes, Worklist.empty] using pushed
      · rename_i notEntry
        apply affords.fewer affords.bottom
        simpa [Run.requests, start, Worklist.nodes, Worklist.empty,
          Ne.symm notEntry] using pushed
    exact (iterate_invariant (problem.Paid Pays)
      (affords.visit lawful closed) paid solved).2 node

variable {Within : Nat → Fact → Prop}

/-- The nodes with a fact, and how far from the entry all facts are. -/
structure Reached
    (problem : Problem Fault Fact)
    (Within : Nat → Fact → Prop)
    (run : Run Fact)
    (nodes : Finset Nat) : Prop where
  size_eq : run.facts.size = problem.graph.size
  mem_iff :
    ∀ node, node ∈ nodes ↔ problem.factAt run node ≠ problem.lattice.bottom
  within : ∀ node, Within nodes.card (problem.factAt run node)

/-- Following an edge reaches at most its target, one edge farther than its source. -/
theorem Spreads.relax
    (spreads : problem.Spreads Within)
    (lawful : problem.lattice.Lawful)
    {before after : Fact}
    {run next : Run Fact}
    {edge : Edge}
    (inside : edge.target < problem.graph.size)
    {distance : Nat}
    (carried : Within (distance + 1) (problem.carry edge before after))
    {nodes : Finset Nat}
    (reached : problem.Reached Within run nodes)
    (farEnough : distance ≤ nodes.card)
    (relaxed : problem.relax before after run edge = .ok next) :
    ∃ more, problem.Reached Within next more ∧ nodes.card ≤ more.card := by
  obtain ⟨sized, members, within⟩ := reached
  obtain ⟨joined, joins, ⟨_, rfl⟩ | ⟨grown, rfl⟩⟩ :=
    relax_cases lawful relaxed
  · exact ⟨nodes, ⟨sized, members, within⟩, Nat.le_refl _⟩
  · have updated :=
      factAt_update problem run (run.worklist.push edge.target)
        (sized ▸ inside) joined
    by_cases isNew : problem.factAt run edge.target = problem.lattice.bottom
    · -- The first fact of a node is what the edge carries.
      have notReached : edge.target ∉ nodes := by
        intro member
        exact (members _).mp member isNew
      rw [isNew] at joins grown
      obtain rfl := lawful.eq_of_join_bottom joins
      have counted := Finset.card_insert_of_notMem notReached
      refine ⟨insert edge.target nodes, ⟨by simpa using sized, ?_, ?_⟩, by omega⟩
      · intro node
        rw [updated, Finset.mem_insert]
        split
        · rename_i isTarget
          exact ⟨fun _ => grown, fun _ => Or.inl isTarget⟩
        · rename_i otherNode
          rw [← members]
          exact or_iff_right otherNode
      · intro node
        rw [updated, counted]
        split
        · exact spreads.farther carried (by omega)
        · exact spreads.farther (within node) (by omega)
    · refine ⟨nodes, ⟨by simpa using sized, ?_, ?_⟩, Nat.le_refl _⟩
      · intro node
        rw [updated, members]
        split
        · rename_i isTarget
          subst node
          have notBottom :=
            lawful.ne_bottom_of_below (lawful.below_join_left joins) isNew
          exact ⟨fun _ => notBottom, fun _ => isNew⟩
        · exact Iff.rfl
      · intro node
        rw [updated]
        split
        · exact spreads.joined isNew (within edge.target) joins
        · exact within node

theorem Spreads.visit
    (spreads : problem.Spreads Within)
    (lawful : problem.lattice.Lawful)
    (closed : problem.graph.Closed)
    {run next : Run Fact}
    {node : Nat}
    (inside : node < problem.graph.size)
    {nodes : Finset Nat}
    (reached : problem.Reached Within run nodes)
    (visited : problem.visit run node = .ok next) :
    ∃ more, problem.Reached Within next more := by
  obtain ⟨after, transferred, visited⟩ := Outcome.bind_eq_ok.mp visited
  have atStart :
      problem.Reached Within { run with visited := node :: run.visited } nodes :=
    ⟨reached.size_eq, reached.mem_iff, reached.within⟩
  have ends :
      ∃ more, problem.Reached Within next more ∧ nodes.card ≤ more.card := by
    refine Outcome.foldlM_invariant
      (fun _ current =>
        ∃ more, problem.Reached Within current more ∧ nodes.card ≤ more.card)
      ?_ ⟨nodes, atStart, Nat.le_refl _⟩ visited
    intro done edge rest current further shape holds relaxed
    obtain ⟨more, currentReached, grows⟩ := holds
    have leaves : edge ∈ problem.graph.outgoing node := by
      rw [shape]
      simp
    obtain ⟨most, furtherReached, growsFurther⟩ :=
      spreads.relax lawful (closed.target_lt leaves)
        (spreads.carried inside (reached.within node) transferred leaves)
        currentReached grows relaxed
    exact ⟨most, furtherReached, Nat.le_trans grows growsFurther⟩
  obtain ⟨more, nextReached, _⟩ := ends
  exact ⟨more, nextReached⟩

theorem Spreads.start
    (spreads : problem.Spreads Within)
    (nonempty : 0 < problem.graph.size)
    (known : problem.initial ≠ problem.lattice.bottom)
    (order : VisitOrder) :
    problem.Reached Within (problem.start order) {0} := by
  refine ⟨by simp [Problem.start], ?_, ?_⟩
  · intro node
    rw [factAt_start problem nonempty, Finset.mem_singleton]
    split
    · rename_i isEntry
      exact ⟨fun _ => known, fun _ => isEntry⟩
    · rename_i notEntry
      exact ⟨fun isEntry => (notEntry isEntry).elim, fun other => (other rfl).elim⟩
  · intro node
    rw [factAt_start problem nonempty, Finset.card_singleton]
    split
    · exact spreads.initial
    · exact spreads.bottom 1

/-- No fact of a run is farther from the entry than there are nodes. -/
theorem Spreads.factAt
    (spreads : problem.Spreads Within)
    (lawful : problem.lattice.Lawful)
    (closed : problem.graph.Closed)
    (known : problem.initial ≠ problem.lattice.bottom)
    {order : VisitOrder}
    {limit : Nat}
    {run : Run Fact}
    (solved : problem.solve order limit = .ok run)
    (node : Nat) :
    Within problem.graph.size (problem.factAt run node) := by
  unfold solve at solved
  split at solved
  · cases solved
    simpa [Problem.factAt] using spreads.bottom _
  · rename_i hasNodes
    have nonempty : 0 < problem.graph.size :=
      Nat.pos_of_ne_zero hasNodes
    obtain ⟨_, nodes, reached⟩ :=
      iterate_invariant
        (fun reached =>
          problem.Consistent reached ∧
            ∃ nodes, problem.Reached Within reached nodes)
        (by
          rintro current visitedNode worklist next ⟨consistent, nodes, reached⟩
            popped visited
          have isPending : visitedNode ∈ current.worklist.nodes := by
            rw [Worklist.nodes_of_pop? popped]
            simp
          have atVisit :
              problem.Reached Within { current with worklist } nodes :=
            ⟨reached.size_eq, reached.mem_iff, reached.within⟩
          exact
            ⟨visit_consistent lawful closed consistent popped visited,
              spreads.visit lawful closed (consistent.live isPending).1 atVisit
                visited⟩)
        ⟨start_consistent lawful nonempty order, _,
          spreads.start nonempty known order⟩
        solved
    have inside : nodes ⊆ Finset.range problem.graph.size := by
      intro member isMember
      by_contra outside
      rw [Finset.mem_range] at outside
      exact (reached.mem_iff member).mp isMember
        (factAt_outside reached.size_eq outside)
    have counted := Finset.card_le_card inside
    rw [Finset.card_range] at counted
    exact spreads.farther (reached.within node) counted

/-- A run has ended when it failed or has no pending node left. -/
def Ended (result : Except Fault (Run Fact)) : Prop :=
  ∀ {run}, result = .ok run → run.converged = true

/-- A larger limit does not change a run that has ended. -/
theorem iterate_of_ended
    {limit larger : Nat}
    (more : limit ≤ larger)
    {run : Run Fact}
    (ended : Ended (problem.iterate limit run)) :
    problem.iterate larger run = problem.iterate limit run := by
  induction limit generalizing larger run with
  | zero =>
      have nothingPending := Worklist.pop?_of_isEmpty (ended rfl)
      cases larger with
      | zero =>
          rfl
      | succ larger =>
          simp only [iterate, nothingPending]
  | succ limit inductionHypothesis =>
      obtain ⟨larger, rfl⟩ := Nat.exists_eq_add_of_lt more
      unfold iterate at ended ⊢
      split
      · rfl
      · rename_i node worklist popped
        simp only [popped] at ended
        cases visited : problem.visit { run with worklist } node with
        | error fault =>
            rfl
        | ok next =>
            rw [visited] at ended
            exact inductionHypothesis (by omega) ended

theorem solve_of_ended
    {order : VisitOrder}
    {limit larger : Nat}
    (more : limit ≤ larger)
    (ended : Ended (problem.solve order limit)) :
    problem.solve order larger = problem.solve order limit := by
  unfold solve at ended ⊢
  split
  · rfl
  · rename_i hasNodes
    rw [if_neg hasNodes] at ended
    exact iterate_of_ended more ended

/-- A run fails only as a node or a join fails. -/
theorem solve_fails
    {Holds : Fault → Prop}
    (transfers :
      ∀ node fact, Outcome.FailsOnly Holds (problem.transfer node fact))
    (joins :
      ∀ first second,
        Outcome.FailsOnly Holds (problem.lattice.join first second))
    (order : VisitOrder)
    (limit : Nat) :
    Outcome.FailsOnly Holds (problem.solve order limit) := by
  have relaxes
      (before after : Fact)
      (run : Run Fact)
      (edge : Edge) :
      Outcome.FailsOnly Holds (problem.relax before after run edge) := by
    refine (joins _ _).bind fun _ => ?_
    split <;> exact .value _
  have visits
      (run : Run Fact)
      (node : Nat) :
      Outcome.FailsOnly Holds (problem.visit run node) :=
    (transfers _ _).bind fun _ => .foldlM (fun run edge _ => relaxes _ _ run edge) _
  have iterates
      (run : Run Fact) :
      Outcome.FailsOnly Holds (problem.iterate limit run) := by
    induction limit generalizing run with
    | zero =>
        exact .value run
    | succ limit inductionHypothesis =>
        unfold iterate
        split
        · exact .value run
        · exact (visits _ _).bind fun _ => inductionHypothesis _
  unfold solve
  split
  · exact .value _
  · exact iterates _

end Runs

end Problem

end KeyAudit
