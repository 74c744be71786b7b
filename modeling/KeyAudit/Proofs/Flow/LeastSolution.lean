import KeyAudit.Proofs.Flow.Solution

namespace KeyAudit

/-!
# The least solution of a dataflow problem

A property of facts that holds at the start and that edges and joins keep holds
of every fact that a run computes.  Being below a given solution is such a
property of monotone problems, so a converged run computes the least solution.
Where facts below a solution can always be transferred and joined, no run fails.
-/

namespace Problem

variable {Fault Fact : Type}

/-- A property of the facts at nodes that the steps of a run keep. -/
structure Keeps
    (problem : Problem Fault Fact)
    (Holds : Nat → Fact → Prop) : Prop where
  bottom : ∀ node, Holds node problem.lattice.bottom
  initial : Holds 0 problem.initial
  carried :
    ∀ {node before after edge},
      node < problem.graph.size →
      problem.Live node before →
      Holds node before →
      problem.transfer node before = .ok after →
      edge ∈ problem.graph.outgoing node →
      Holds edge.target (problem.carry edge before after)
  joined :
    ∀ {node first second joined},
      Holds node first →
      Holds node second →
      problem.lattice.join first second = .ok joined →
      Holds node joined

/-- A kept property under which no step of a run can fail. -/
structure Secures
    (problem : Problem Fault Fact)
    (Holds : Nat → Fact → Prop) : Prop extends problem.Keeps Holds where
  transfers :
    ∀ {node before},
      node < problem.graph.size →
      problem.Live node before →
      Holds node before →
      ∃ after, problem.transfer node before = .ok after
  joins :
    ∀ {node first second},
      Holds node first →
      Holds node second →
      ∃ joined, problem.lattice.join first second = .ok joined

section Runs

variable {problem : Problem Fault Fact}
variable {Holds : Nat → Fact → Prop}

/-- The facts of a run have a property, each at its node. -/
def Everywhere
    (problem : Problem Fault Fact)
    (Holds : Nat → Fact → Prop)
    (run : Run Fact) : Prop :=
  run.facts.size = problem.graph.size ∧
    ∀ node, Holds node (problem.factAt run node)

/-- Following an edge that carries a fact with a kept property keeps it everywhere. -/
theorem Keeps.relax
    (keeps : problem.Keeps Holds)
    (lawful : problem.lattice.Lawful)
    {before after : Fact}
    {run next : Run Fact}
    {edge : Edge}
    (inside : edge.target < problem.graph.size)
    (carried : Holds edge.target (problem.carry edge before after))
    (everywhere : problem.Everywhere Holds run)
    (relaxed : problem.relax before after run edge = .ok next) :
    problem.Everywhere Holds next := by
  obtain ⟨sized, holds⟩ := everywhere
  obtain ⟨joined, joins, unchanged | changed⟩ :=
    relax_cases lawful relaxed
  · obtain ⟨_, rfl⟩ := unchanged
    exact ⟨sized, holds⟩
  · obtain ⟨_, rfl⟩ := changed
    refine ⟨by simpa using sized, ?_⟩
    intro node
    rw [factAt_update problem run _ (sized ▸ inside)]
    split
    · rename_i isTarget
      subst node
      exact keeps.joined (holds edge.target) carried joins
    · exact holds node

/-- A visit of a live node keeps a property everywhere. -/
theorem Keeps.visit
    (keeps : problem.Keeps Holds)
    (lawful : problem.lattice.Lawful)
    (closed : problem.graph.Closed)
    {run next : Run Fact}
    {node : Nat}
    (visited : problem.visit run node = .ok next)
    (inside : node < problem.graph.size)
    (live : problem.Live node (problem.factAt run node))
    (everywhere : problem.Everywhere Holds run) :
    problem.Everywhere Holds next := by
  unfold Problem.visit at visited
  rw [Outcome.bind_eq_ok] at visited
  obtain ⟨after, transferred, visited⟩ := visited
  have atStart :
      problem.Everywhere Holds
        { run with visited := node :: run.visited } :=
    everywhere
  refine Outcome.foldlM_invariant
    (fun _ reached => problem.Everywhere Holds reached)
    ?_ atStart visited
  intro done edge rest reached further shape holds relaxed
  have leaves : edge ∈ problem.graph.outgoing node := by
    rw [shape]
    simp
  exact keeps.relax lawful (closed.target_lt leaves)
    (keeps.carried inside live (everywhere.2 node) transferred leaves)
    holds relaxed

/-- The facts at the start of a run have every kept property. -/
theorem Keeps.start
    (keeps : problem.Keeps Holds)
    (nonempty : 0 < problem.graph.size)
    (order : VisitOrder) :
    problem.Everywhere Holds (problem.start order) := by
  refine ⟨by simp [Problem.start], ?_⟩
  intro node
  rw [factAt_start problem nonempty]
  split
  · rename_i isEntry
    subst node
    exact keeps.initial
  · exact keeps.bottom node

/-- Every fact that a run computes has every kept property. -/
theorem Keeps.factAt
    (keeps : problem.Keeps Holds)
    (lawful : problem.lattice.Lawful)
    (closed : problem.graph.Closed)
    {order : VisitOrder}
    {limit : Nat}
    {run : Run Fact}
    (solved : problem.solve order limit = .ok run)
    (node : Nat) :
    Holds node (problem.factAt run node) := by
  unfold solve at solved
  split at solved
  · cases solved
    simpa [Problem.factAt] using keeps.bottom node
  · rename_i hasNodes
    have nonempty : 0 < problem.graph.size :=
      Nat.pos_of_ne_zero hasNodes
    -- Only consistent runs are sure to visit live nodes.
    obtain ⟨_, everywhere⟩ :=
      iterate_invariant
        (fun reached =>
          problem.Consistent reached ∧ problem.Everywhere Holds reached)
        (by
          rintro reached visitedNode worklist next ⟨consistent, everywhere⟩
            popped visited
          have isPending : visitedNode ∈ reached.worklist.nodes := by
            rw [Worklist.nodes_of_pop? popped]
            simp
          obtain ⟨inside, live⟩ := consistent.live isPending
          exact
            ⟨visit_consistent lawful closed consistent popped visited,
              keeps.visit lawful closed visited inside live everywhere⟩)
        ⟨start_consistent lawful nonempty order,
          keeps.start nonempty order⟩
        solved
    exact everywhere.2 node

/-- A visit of a live node gives a run where no step can fail. -/
theorem Secures.visit_ok
    (secures : problem.Secures Holds)
    (lawful : problem.lattice.Lawful)
    (closed : problem.graph.Closed)
    {run : Run Fact}
    {node : Nat}
    (everywhere : problem.Everywhere Holds run)
    (inside : node < problem.graph.size)
    (live : problem.Live node (problem.factAt run node)) :
    ∃ next, problem.visit run node = .ok next := by
  obtain ⟨after, transferred⟩ :=
    secures.transfers inside live (everywhere.2 node)
  have atStart :
      problem.Everywhere Holds
        { run with visited := node :: run.visited } :=
    everywhere
  have follows :
      ∃ next,
        (problem.graph.outgoing node).foldlM
            (problem.relax (problem.factAt run node) after)
            { run with visited := node :: run.visited } = .ok next ∧
          problem.Everywhere Holds next := by
    refine Outcome.foldlM_ok (problem.Everywhere Holds) ?_ atStart
    intro edge reached leaves holds
    have carried :
        Holds edge.target
          (problem.carry edge (problem.factAt run node) after) :=
      secures.carried inside live (everywhere.2 node) transferred leaves
    obtain ⟨joined, joins⟩ :=
      secures.joins (holds.2 edge.target) carried
    obtain ⟨further, relaxed⟩ := relax_ok joins
    exact
      ⟨further, relaxed,
        secures.relax lawful (closed.target_lt leaves)
          carried holds relaxed⟩
  obtain ⟨next, followed, _⟩ := follows
  refine ⟨next, ?_⟩
  unfold Problem.visit
  rw [Outcome.bind_eq_ok]
  exact ⟨after, transferred, followed⟩

/-- No run fails where no step can fail. -/
theorem Secures.solve_ok
    (secures : problem.Secures Holds)
    (lawful : problem.lattice.Lawful)
    (closed : problem.graph.Closed)
    (order : VisitOrder)
    (limit : Nat) :
    ∃ run, problem.solve order limit = .ok run := by
  unfold solve
  split
  · exact ⟨_, rfl⟩
  · rename_i hasNodes
    have nonempty : 0 < problem.graph.size :=
      Nat.pos_of_ne_zero hasNodes
    suffices iterates :
        ∀ {run : Run Fact},
          problem.Consistent run →
          problem.Everywhere Holds run →
          ∃ final, problem.iterate limit run = .ok final from
      iterates (start_consistent lawful nonempty order)
        (secures.start nonempty order)
    induction limit with
    | zero =>
        intro run _ _
        exact ⟨run, rfl⟩
    | succ limit inductionHypothesis =>
        intro run consistent everywhere
        unfold iterate
        split
        · exact ⟨run, rfl⟩
        · rename_i node worklist popped
          have isPending : node ∈ run.worklist.nodes := by
            rw [Worklist.nodes_of_pop? popped]
            simp
          obtain ⟨inside, live⟩ := consistent.live isPending
          have atVisit :
              problem.Everywhere Holds { run with worklist } :=
            everywhere
          obtain ⟨next, visited⟩ :=
            secures.visit_ok lawful closed atVisit inside live
          obtain ⟨final, iterated⟩ :=
            inductionHypothesis
              (visit_consistent lawful closed consistent popped visited)
              (secures.visit lawful closed visited inside live atVisit)
          refine ⟨final, ?_⟩
          rw [Outcome.bind_eq_ok]
          exact ⟨next, visited, iterated⟩

end Runs

section Solutions

variable {problem : Problem Fault Fact}

/-- A monotone problem keeps facts below every solution. -/
theorem Solution.keeps
    (lawful : problem.lattice.Lawful)
    (monotone : problem.Monotone)
    {facts : Nat → Fact}
    (solution : problem.Solution facts) :
    problem.Keeps
      (fun node fact => problem.lattice.Below fact (facts node)) where
  bottom node := lawful.bottom_below (facts node)
  initial := solution.initial_below
  carried := by
    intro node before after edge inside live below transferred leaves
    have solutionLive : problem.Live node (facts node) := by
      rcases live with isEntry | aboveBottom
      · exact Or.inl isEntry
      · exact Or.inr (lawful.ne_bottom_of_below below aboveBottom)
    obtain ⟨solutionAfter, solutionTransferred, carried⟩ :=
      solution.settled inside solutionLive
    have afterBelow :=
      monotone.transfer_below below transferred solutionTransferred
    exact lawful.trans (monotone.carry_below below afterBelow)
      (carried edge leaves)
  joined firstBelow secondBelow joins :=
    lawful.join_below joins firstBelow secondBelow

/-- Two solutions that lie below each other at all nodes have the same facts. -/
theorem facts_eq_of_below
    (lawful : problem.lattice.Lawful)
    {first second : Run Fact}
    (firstSized : first.facts.size = problem.graph.size)
    (secondSized : second.facts.size = problem.graph.size)
    (upwards :
      ∀ node,
        problem.lattice.Below
          (problem.factAt first node)
          (problem.factAt second node))
    (downwards :
      ∀ node,
        problem.lattice.Below
          (problem.factAt second node)
          (problem.factAt first node)) :
    first.facts = second.facts := by
  apply Array.ext (firstSized.trans secondSized.symm)
  intro node insideFirst insideSecond
  have same :=
    lawful.antisymm (upwards node) (downwards node)
  simpa [factAt, Array.getD_eq_getD_getElem?, insideFirst, insideSecond]
    using same

/--
A converged run ends in a solution.  If the problem is monotone, this solution
is below every other one, and converged runs in all orders end in the same facts.
-/
theorem solve_least_solution
    (lawful : problem.lattice.Lawful)
    (closed : problem.graph.Closed)
    (nonempty : 0 < problem.graph.size)
    {order : VisitOrder}
    {limit : Nat}
    {run : Run Fact}
    (solved : problem.solve order limit = .ok run)
    (converged : run.converged = true) :
    run.facts.size = problem.graph.size ∧
      problem.Solution (problem.factAt run) ∧
        (problem.Monotone →
          (∀ facts,
            problem.Solution facts →
            ∀ node < problem.graph.size,
              problem.lattice.Below
                (problem.factAt run node)
                (facts node)) ∧
            ∀ otherOrder otherLimit other,
              problem.solve otherOrder otherLimit = .ok other →
              other.converged = true →
              other.facts = run.facts) := by
  have consistent :=
    solve_consistent lawful closed nonempty solved
  have solution := consistent.solution converged
  refine ⟨consistent.size_eq, solution, ?_⟩
  intro monotone
  constructor
  · intro facts otherSolution node _
    exact (otherSolution.keeps lawful monotone).factAt
      lawful closed solved node
  · intro otherOrder otherLimit other otherSolved otherConverged
    have otherConsistent :=
      solve_consistent lawful closed nonempty otherSolved
    have otherSolution :=
      otherConsistent.solution otherConverged
    exact facts_eq_of_below lawful
      otherConsistent.size_eq consistent.size_eq
      ((solution.keeps lawful monotone).factAt
        lawful closed otherSolved)
      ((otherSolution.keeps lawful monotone).factAt
        lawful closed solved)

/-- Facts that go round a loop and a self-loop, beside a node that nothing reaches. -/
def loop : Problem Unit (Flat Nat) where
  graph :=
    ⟨4, [⟨0, 1, .fallThrough⟩, ⟨1, 1, .branchTaken⟩, ⟨1, 2, .fallThrough⟩,
      ⟨2, 1, .jump⟩, ⟨2, 1, .exception none⟩, ⟨3, 0, .jump⟩]⟩
  lattice := Flat.lattice Unit Nat
  transfer node fact := .ok (if node < 2 then fact else .value node)
  carry edge before after := if edge.kind.isException then before else after
  initial := .value 0

/-- A node passes its fact on or forgets it, and an edge picks one of two facts. -/
theorem loop_monotone : loop.Monotone where
  transfer_below := by
    intro node lower upper lowerAfter upperAfter below lowerStep upperStep
    simp only [loop, Except.ok.injEq] at lowerStep upperStep
    subst lowerStep upperStep
    split
    · exact below
    · exact (Flat.lattice_lawful Unit).refl _
  carry_below := by
    intro edge lower upper lowerAfter upperAfter below afterBelow
    simp only [loop]
    split
    · exact below
    · exact afterBelow

/-- The loop makes its fact unknown, and the unreached node keeps bottom. -/
theorem solve_least_solution_loop :
    ∃ run,
      loop.solve .firstIn 10 = .ok run ∧
        run.converged = true ∧
          run.facts = #[.value 0, .top, .top, .bottom] ∧
            loop.Solution (loop.factAt run) ∧
              ∀ facts,
                loop.Solution facts →
                ∀ node < 4,
                  loop.lattice.Below
                    (loop.factAt run node)
                    (facts node) := by
  obtain ⟨run, solved, converged, facts⟩ :
      ∃ run,
        loop.solve .firstIn 10 = .ok run ∧
          run.converged = true ∧
            run.facts = #[.value 0, .top, .top, .bottom] :=
    ⟨_, rfl, rfl, rfl⟩
  obtain ⟨_, solution, least⟩ :=
    solve_least_solution (Flat.lattice_lawful Unit)
      (by decide) (by decide) solved converged
  exact
    ⟨run, solved, converged, facts, solution, (least loop_monotone).1⟩

end Solutions

end Problem

end KeyAudit
