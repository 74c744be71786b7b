import KeyAudit.Proofs.Flow.Steps

namespace KeyAudit

/-!
# What holds at every moment of a run

From one moment of a run to a later one facts only grow.  A property of facts
that edges and joins keep holds of every fact at every moment, and of the facts
in hand while the edges of a node are followed.
-/

namespace Problem

variable {Fault Fact : Type}
variable {problem : Problem Fault Fact}
variable {order : VisitOrder}
variable {limit : Nat}

/-- The edges left to follow lead to nodes with facts. -/
theorem ComesTo.target_lt
    (closed : problem.graph.Closed)
    {run : Run Fact}
    {node : Nat}
    {before after : Fact}
    {edge : Edge}
    {edges : List Edge}
    (comes :
      problem.ComesTo order limit
        ⟨run, .leaving node before after (edge :: edges)⟩) :
    edge.target < run.facts.size := by
  have sized : run.facts.size = problem.graph.size := comes.size_eq
  rw [sized]
  exact closed.target_lt (comes.onTrack.2 edge List.mem_cons_self)

/-- A step changes facts only to greater ones. -/
theorem ComesTo.step_below
    (lawful : problem.lattice.Lawful)
    (closed : problem.graph.Closed)
    {earlier later : Moment Fact}
    (comes : problem.ComesTo order limit earlier)
    (step : problem.Step limit earlier later)
    (node : Nat) :
    problem.lattice.Below
      (problem.factAt earlier.run node)
      (problem.factAt later.run node) := by
  cases step with
  | take allowed popped =>
      exact lawful.refl _
  | enter transferred =>
      exact lawful.refl _
  | follow relaxed =>
      exact (relax_grows lawful (comes.target_lt closed) relaxed).1.below node
  | finish =>
      exact lawful.refl _

/-- Facts only grow from one moment of a run to a later one. -/
theorem ComesTo.steps_below
    (lawful : problem.lattice.Lawful)
    (closed : problem.graph.Closed)
    {earlier later : Moment Fact}
    (comes : problem.ComesTo order limit earlier)
    (steps : problem.Steps limit earlier later)
    (node : Nat) :
    problem.lattice.Below
      (problem.factAt earlier.run node)
      (problem.factAt later.run node) := by
  induction steps with
  | refl =>
      exact lawful.refl _
  | tail before step inductionHypothesis =>
      exact lawful.trans inductionHypothesis
        ((comes.trans before).step_below lawful closed step node)

/-- The node of a visit is live, and the fact before it has a property. -/
def InHand
    (problem : Problem Fault Fact)
    (Holds : Nat → Fact → Prop) : Moment Fact → Prop
  | ⟨_, .between⟩ => True
  | ⟨run, .entering node⟩ =>
      node < problem.graph.size ∧
        problem.Live node (problem.factAt run node)
  | ⟨_, .leaving node before after _⟩ =>
      node < problem.graph.size ∧
        problem.Live node before ∧
          Holds node before ∧
            problem.transfer node before = .ok after

/-- All facts have a property, pending nodes are live, and so is the node of a visit. -/
structure Steady
    (problem : Problem Fault Fact)
    (Holds : Nat → Fact → Prop)
    (moment : Moment Fact) : Prop where
  everywhere : problem.Everywhere Holds moment.run
  live :
    ∀ {node},
      node ∈ moment.run.worklist.nodes →
      node < problem.graph.size ∧
        problem.Live node (problem.factAt moment.run node)
  inHand : problem.InHand Holds moment

variable {Holds : Nat → Fact → Prop}

/-- Following an edge keeps a property of all facts and keeps pending nodes live. -/
theorem Steady.follow
    (keeps : problem.Keeps Holds)
    (lawful : problem.lattice.Lawful)
    (closed : problem.graph.Closed)
    {run next : Run Fact}
    {node : Nat}
    {before after : Fact}
    {edge : Edge}
    {edges : List Edge}
    (comes :
      problem.ComesTo order limit
        ⟨run, .leaving node before after (edge :: edges)⟩)
    (steady :
      problem.Steady Holds ⟨run, .leaving node before after (edge :: edges)⟩)
    (relaxed : problem.relax before after run edge = .ok next) :
    problem.Steady Holds ⟨next, .leaving node before after edges⟩ := by
  obtain ⟨inside, live, holds, transferred⟩ := steady.inHand
  have leaves : edge ∈ problem.graph.outgoing node :=
    comes.onTrack.2 edge List.mem_cons_self
  obtain ⟨grows, _⟩ := relax_grows lawful (comes.target_lt closed) relaxed
  refine
    { everywhere :=
        keeps.relax lawful (closed.target_lt leaves)
          (keeps.carried inside live holds transferred leaves)
          steady.everywhere relaxed
      live := ?_
      inHand := ⟨inside, live, holds, transferred⟩ }
  intro other isPending
  rcases grows.fresh isPending with older | ⟨otherInside, aboveBottom⟩
  · obtain ⟨otherInside, otherLive⟩ := steady.live older
    refine ⟨otherInside, ?_⟩
    rcases otherLive with isEntry | aboveBottom
    · exact Or.inl isEntry
    · exact Or.inr
        (lawful.ne_bottom_of_below (grows.below other) aboveBottom)
  · have sized : run.facts.size = problem.graph.size := comes.size_eq
    rw [grows.size_eq, sized] at otherInside
    exact ⟨otherInside, Or.inr aboveBottom⟩

/-- A kept property holds of every fact at every moment. -/
theorem ComesTo.steady
    (keeps : problem.Keeps Holds)
    (lawful : problem.lattice.Lawful)
    (closed : problem.graph.Closed)
    {moment : Moment Fact}
    (comes : problem.ComesTo order limit moment) :
    problem.Steady Holds moment := by
  apply comes.invariant (problem.Steady Holds)
  · intro nonempty
    exact
      { everywhere := keeps.start nonempty order
        live := (start_consistent lawful nonempty order).live
        inHand := trivial }
  · intro earlier later comesEarlier steady step
    cases step with
    | take allowed popped =>
        have pendingBefore := Worklist.nodes_of_pop? popped
        refine
          { everywhere := steady.everywhere
            live := ?_
            inHand := ?_ }
        · intro node isPending
          apply steady.live
          rw [pendingBefore]
          exact List.mem_cons_of_mem _ isPending
        · apply steady.live
          rw [pendingBefore]
          exact List.mem_cons_self
    | enter transferred =>
        obtain ⟨inside, live⟩ := steady.inHand
        exact
          { everywhere := steady.everywhere
            live := steady.live
            inHand :=
              ⟨inside, live, steady.everywhere.2 _, transferred⟩ }
    | follow relaxed =>
        exact steady.follow keeps lawful closed comesEarlier relaxed
    | finish =>
        exact
          { everywhere := steady.everywhere
            live := steady.live
            inHand := trivial }

end Problem

end KeyAudit
