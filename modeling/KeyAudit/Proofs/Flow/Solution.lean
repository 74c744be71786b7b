import KeyAudit.Flow.Solver
import KeyAudit.Proofs.Flow.Lattice
import KeyAudit.Proofs.Flow.Path
import KeyAudit.Proofs.Flow.Worklist
import KeyAudit.Proofs.Outcome

namespace KeyAudit

/-!
# Solutions of dataflow problems

A solution has a fact for each node, at least the initial one at the entry, and
each edge that leaves the entry or a node above bottom carries no more than the
fact of its target.  A converged run ends in a solution, whatever the order of
the visits.  If the problem is monotone, the facts of a run never pass those of
any solution, so the solution of a converged run is the least one.
-/

namespace Problem

variable {Fault Fact : Type}

/-- A node that a run has to visit with a fact: the entry, and any node above bottom. -/
def Live
    (problem : Problem Fault Fact)
    (node : Nat)
    (fact : Fact) : Prop :=
  node = 0 ∨ fact ≠ problem.lattice.bottom

/-- What the edges of a node carry is below the facts of their targets. -/
def Settled
    (problem : Problem Fault Fact)
    (facts : Nat → Fact)
    (node : Nat) : Prop :=
  ∃ after,
    problem.transfer node (facts node) = .ok after ∧
      ∀ edge ∈ problem.graph.outgoing node,
        problem.lattice.Below
          (problem.carry edge (facts node) after)
          (facts edge.target)

/-- Facts that account for the initial one and for everything that live nodes carry. -/
structure Solution
    (problem : Problem Fault Fact)
    (facts : Nat → Fact) : Prop where
  initial_below : problem.lattice.Below problem.initial (facts 0)
  settled :
    ∀ {node},
      node < problem.graph.size →
      problem.Live node (facts node) →
      problem.Settled facts node

/-- Greater facts before a node give greater facts after it and along its edges. -/
structure Monotone (problem : Problem Fault Fact) : Prop where
  transfer_below :
    ∀ {node lower upper lowerAfter upperAfter},
      problem.lattice.Below lower upper →
      problem.transfer node lower = .ok lowerAfter →
      problem.transfer node upper = .ok upperAfter →
      problem.lattice.Below lowerAfter upperAfter
  carry_below :
    ∀ {edge lower upper lowerAfter upperAfter},
      problem.lattice.Below lower upper →
      problem.lattice.Below lowerAfter upperAfter →
      problem.lattice.Below
        (problem.carry edge lower lowerAfter)
        (problem.carry edge upper upperAfter)

section Runs

variable {problem : Problem Fault Fact}

/-- The fact before a node after one fact has been replaced. -/
theorem factAt_update
    (problem : Problem Fault Fact)
    (run : Run Fact)
    (worklist : Worklist Nat)
    {target : Nat}
    (inside : target < run.facts.size)
    (new : Fact)
    (node : Nat) :
    problem.factAt
        { run with
          facts := run.facts.setIfInBounds target new
          worklist }
        node =
      if node = target then new else problem.factAt run node := by
  unfold factAt
  by_cases same : node = target
  · subst node
    simp [Array.getD_eq_getD_getElem?, inside]
  · simp [Array.getD_eq_getD_getElem?,
      Array.getElem?_setIfInBounds_ne (Ne.symm same), same]

/-- A node outside the graph has no fact. -/
theorem factAt_outside
    {run : Run Fact}
    (sized : run.facts.size = problem.graph.size)
    {node : Nat}
    (outside : ¬ node < problem.graph.size) :
    problem.factAt run node = problem.lattice.bottom := by
  have missing : run.facts[node]? = none := by
    rw [Array.getElem?_eq_none_iff]
    omega
  rw [Problem.factAt, Array.getD_eq_getD_getElem?, missing]
  rfl

/--
How a run can change while the edges of a node are followed: facts only grow,
pending nodes stay pending, and every changed node becomes pending.
-/
structure Grows
    (problem : Problem Fault Fact)
    (earlier later : Run Fact) : Prop where
  size_eq : later.facts.size = earlier.facts.size
  below :
    ∀ node,
      problem.lattice.Below
        (problem.factAt earlier node)
        (problem.factAt later node)
  pending :
    ∀ {node},
      node ∈ earlier.worklist.nodes →
      node ∈ later.worklist.nodes
  unchanged :
    ∀ {node},
      node ∉ later.worklist.nodes →
      problem.factAt later node = problem.factAt earlier node
  fresh :
    ∀ {node},
      node ∈ later.worklist.nodes →
      node ∈ earlier.worklist.nodes ∨
        node < later.facts.size ∧
          problem.factAt later node ≠ problem.lattice.bottom

namespace Grows

/-- A run that does not change grows. -/
theorem refl
    (lawful : problem.lattice.Lawful)
    (run : Run Fact) :
    problem.Grows run run where
  size_eq := rfl
  below node := lawful.refl (problem.factAt run node)
  pending member := member
  unchanged _ := rfl
  fresh member := Or.inl member

/-- Growing twice is growing. -/
theorem trans
    (lawful : problem.lattice.Lawful)
    {first second third : Run Fact}
    (earlier : problem.Grows first second)
    (later : problem.Grows second third) :
    problem.Grows first third where
  size_eq := later.size_eq.trans earlier.size_eq
  below node := lawful.trans (earlier.below node) (later.below node)
  pending member := later.pending (earlier.pending member)
  unchanged notPending := by
    rw [later.unchanged notPending]
    exact earlier.unchanged
      (fun member => notPending (later.pending member))
  fresh := by
    intro node member
    rcases later.fresh member with inSecond | isFresh
    · rcases earlier.fresh inSecond with inFirst | ⟨inside, aboveBottom⟩
      · exact Or.inl inFirst
      · refine Or.inr ⟨later.size_eq ▸ inside, ?_⟩
        exact lawful.ne_bottom_of_below (later.below node) aboveBottom
    · exact Or.inr isFresh

end Grows

/-- What following one edge does: nothing, or one fact changes and its node becomes pending. -/
theorem relax_eq_ok
    {before after : Fact}
    {run next : Run Fact}
    {edge : Edge}
    (relaxed : problem.relax before after run edge = .ok next) :
    ∃ joined,
      problem.lattice.join (problem.factAt run edge.target)
          (problem.carry edge before after) = .ok joined ∧
        ((problem.lattice.same joined (problem.factAt run edge.target) = true ∧
            next = run) ∨
          (problem.lattice.same joined (problem.factAt run edge.target) = false ∧
            next = { run with
              facts := run.facts.setIfInBounds edge.target joined
              worklist := run.worklist.push edge.target })) := by
  unfold relax at relaxed
  rw [Outcome.bind_eq_ok] at relaxed
  obtain ⟨joined, joins, relaxed⟩ := relaxed
  refine ⟨joined, joins, ?_⟩
  split at relaxed
  · rename_i same
    cases relaxed
    exact Or.inl ⟨same, rfl⟩
  · rename_i different
    cases relaxed
    exact Or.inr ⟨Bool.eq_false_iff.mpr different, rfl⟩

/-- An edge cannot be followed only because what it carries cannot be joined. -/
theorem relax_eq_error
    {before after : Fact}
    {run : Run Fact}
    {edge : Edge}
    {fault : Fault}
    (failed : problem.relax before after run edge = .error fault) :
    problem.lattice.join (problem.factAt run edge.target)
      (problem.carry edge before after) = .error fault := by
  unfold relax at failed
  rw [Outcome.bind_eq_error] at failed
  rcases failed with failed | ⟨joined, _, failed⟩
  · exact failed
  · split at failed
    · cases failed
    · cases failed

/-- In a lawful lattice a fact that changes when an edge is followed becomes another one. -/
theorem relax_cases
    (lawful : problem.lattice.Lawful)
    {before after : Fact}
    {run next : Run Fact}
    {edge : Edge}
    (relaxed : problem.relax before after run edge = .ok next) :
    ∃ joined,
      problem.lattice.join (problem.factAt run edge.target)
          (problem.carry edge before after) = .ok joined ∧
        ((joined = problem.factAt run edge.target ∧ next = run) ∨
          (joined ≠ problem.factAt run edge.target ∧
            next = { run with
              facts := run.facts.setIfInBounds edge.target joined
              worklist := run.worklist.push edge.target })) := by
  obtain ⟨joined, joins, ⟨same, unchanged⟩ | ⟨different, changed⟩⟩ :=
    relax_eq_ok relaxed
  · exact ⟨joined, joins, Or.inl ⟨lawful.same_iff.mp same, unchanged⟩⟩
  · refine ⟨joined, joins, Or.inr ⟨?_, changed⟩⟩
    intro same
    rw [lawful.same_iff.mpr same] at different
    cases different

/-- An edge can be followed when what it carries can be joined to its target. -/
theorem relax_ok
    {before after joined : Fact}
    {run : Run Fact}
    {edge : Edge}
    (joins :
      problem.lattice.join (problem.factAt run edge.target)
          (problem.carry edge before after) = .ok joined) :
    ∃ next, problem.relax before after run edge = .ok next := by
  unfold relax
  simp only [joins, bind, Except.bind]
  split
  · exact ⟨run, rfl⟩
  · exact ⟨_, rfl⟩

/-- Following an edge grows the run until the target has what the edge carries. -/
theorem relax_grows
    (lawful : problem.lattice.Lawful)
    {before after : Fact}
    {run next : Run Fact}
    {edge : Edge}
    (inside : edge.target < run.facts.size)
    (relaxed : problem.relax before after run edge = .ok next) :
    problem.Grows run next ∧
      problem.lattice.Below
        (problem.carry edge before after)
        (problem.factAt next edge.target) := by
  obtain ⟨joined, joins, unchanged | changed⟩ :=
    relax_cases lawful relaxed
  · obtain ⟨same, rfl⟩ := unchanged
    refine ⟨Grows.refl lawful next, ?_⟩
    rw [← same]
    exact lawful.below_join_right joins
  · obtain ⟨different, rfl⟩ := changed
    have atTarget :=
      factAt_update problem run
        (run.worklist.push edge.target) inside joined
    have oldBelow :=
      lawful.below_join_left joins
    refine ⟨?_, ?_⟩
    · refine
        { size_eq := by simp
          below := ?_
          pending := ?_
          unchanged := ?_
          fresh := ?_ }
      · intro node
        rw [atTarget]
        split
        · rename_i same
          subst node
          exact oldBelow
        · exact lawful.refl _
      · intro node member
        exact (Worklist.mem_nodes_push ..).mpr (Or.inr member)
      · intro node notPending
        rw [atTarget, if_neg]
        intro same
        exact notPending
          ((Worklist.mem_nodes_push ..).mpr (Or.inl same))
      · intro node member
        rcases (Worklist.mem_nodes_push ..).mp member with same | older
        · subst node
          refine Or.inr ⟨by simpa using inside, ?_⟩
          rw [atTarget, if_pos rfl]
          -- A join that differs from the old fact lies above it, so above bottom.
          intro isBottom
          rw [isBottom] at oldBelow different
          exact different (lawful.eq_bottom oldBelow).symm
        · exact Or.inl older
    · rw [atTarget, if_pos rfl]
      exact lawful.below_join_right joins

/-- A visit grows the run until all targets have what the edges carry. -/
theorem visit_grows
    (lawful : problem.lattice.Lawful)
    (closed : problem.graph.Closed)
    {run next : Run Fact}
    {node : Nat}
    (visited : problem.visit run node = .ok next)
    (sized : run.facts.size = problem.graph.size) :
    ∃ after,
      problem.transfer node (problem.factAt run node) = .ok after ∧
        problem.Grows run next ∧
          ∀ edge ∈ problem.graph.outgoing node,
            problem.lattice.Below
              (problem.carry edge (problem.factAt run node) after)
              (problem.factAt next edge.target) := by
  unfold visit at visited
  rw [Outcome.bind_eq_ok] at visited
  obtain ⟨after, transferred, visited⟩ := visited
  refine ⟨after, transferred, ?_⟩
  let before := problem.factAt run node
  refine Outcome.foldlM_invariant
    (fun done reached =>
      problem.Grows run reached ∧
        ∀ edge ∈ done,
          problem.lattice.Below
            (problem.carry edge before after)
            (problem.factAt reached edge.target))
    ?_ ⟨?_, by simp⟩ visited
  · intro done edge rest reached further shape holds relaxed
    obtain ⟨grown, carried⟩ := holds
    have leaves : edge ∈ problem.graph.outgoing node := by
      rw [shape]
      simp
    have inside : edge.target < reached.facts.size := by
      rw [grown.size_eq, sized]
      exact closed.target_lt leaves
    obtain ⟨growsFurther, carriedHere⟩ :=
      relax_grows lawful inside relaxed
    refine ⟨grown.trans lawful growsFurther, ?_⟩
    intro other member
    rcases List.mem_append.mp member with older | isEdge
    · exact lawful.trans (carried other older)
        (growsFurther.below other.target)
    · obtain rfl : other = edge := by
        simpa using isEdge
      exact carriedHere
  · exact
      { size_eq := rfl
        below := fun node => lawful.refl (problem.factAt run node)
        pending := fun member => member
        unchanged := fun _ => rfl
        fresh := fun member => Or.inl member }

/-- What every visit keeps holds at the end of a run. -/
theorem iterate_invariant
    (Holds : Run Fact → Prop)
    (keeps :
      ∀ {run node worklist next},
        Holds run →
        run.worklist.pop? = some (node, worklist) →
        problem.visit { run with worklist } node = .ok next →
        Holds next)
    {limit : Nat}
    {run final : Run Fact}
    (atStart : Holds run)
    (iterated : problem.iterate limit run = .ok final) :
    Holds final := by
  induction limit generalizing run with
  | zero =>
      cases iterated
      exact atStart
  | succ limit inductionHypothesis =>
      unfold iterate at iterated
      split at iterated
      · cases iterated
        exact atStart
      · rename_i node worklist popped
        rw [Outcome.bind_eq_ok] at iterated
        obtain ⟨next, visited, iterated⟩ := iterated
        exact inductionHypothesis
          (keeps atStart popped visited) iterated

/-- A visit is counted once. -/
theorem visit_visits
    {run next : Run Fact}
    {node : Nat}
    (visited : problem.visit run node = .ok next) :
    next.visits = run.visits + 1 := by
  unfold visit at visited
  rw [Outcome.bind_eq_ok] at visited
  obtain ⟨after, _, visited⟩ := visited
  refine Outcome.foldlM_invariant
    (fun _ reached => reached.visits = run.visits + 1)
    ?_ ?_ visited
  · intro done edge rest reached further _ counted relaxed
    obtain ⟨_, _, ⟨_, rfl⟩ | ⟨_, rfl⟩⟩ := relax_eq_ok relaxed
    · exact counted
    · exact counted
  · rfl

/-- A run that stops with pending nodes has made all the visits that it may make. -/
theorem iterate_visits
    {limit : Nat}
    {run final : Run Fact}
    (iterated : problem.iterate limit run = .ok final)
    (pending : final.converged = false) :
    final.visits = run.visits + limit := by
  induction limit generalizing run with
  | zero =>
      cases iterated
      rfl
  | succ limit inductionHypothesis =>
      unfold iterate at iterated
      split at iterated
      · rename_i nothingPending
        cases iterated
        rw [Run.converged, Worklist.isEmpty_of_pop?_eq_none nothingPending]
          at pending
        cases pending
      · rename_i node worklist popped
        rw [Outcome.bind_eq_ok] at iterated
        obtain ⟨next, visited, iterated⟩ := iterated
        have counted := visit_visits visited
        change next.visits = run.visits + 1 at counted
        rw [inductionHypothesis iterated, counted]
        omega

/-- A run on no nodes makes no visit. -/
theorem solve_of_empty
    (problem : Problem Fault Fact)
    (empty : problem.graph.size = 0)
    (order : VisitOrder)
    (limit : Nat) :
    problem.solve order limit =
      .ok { facts := #[], worklist := .empty order [], visited := [] } := by
  unfold solve
  rw [if_pos empty]

/-- A run that has not converged has made all the visits that it may make. -/
theorem solve_visits
    {order : VisitOrder}
    {limit : Nat}
    {run : Run Fact}
    (solved : problem.solve order limit = .ok run)
    (pending : run.converged = false) :
    run.visits = limit := by
  unfold solve at solved
  split at solved
  · cases solved
    cases pending
  · have counted := iterate_visits solved pending
    simpa [start, Run.visits] using counted

/-- The facts at the start of a run. -/
theorem factAt_start
    (problem : Problem Fault Fact)
    (nonempty : 0 < problem.graph.size)
    (order : VisitOrder)
    (node : Nat) :
    problem.factAt (problem.start order) node =
      if node = 0 then problem.initial else problem.lattice.bottom := by
  unfold factAt start
  by_cases isEntry : node = 0
  · subst node
    simp [Array.getD_eq_getD_getElem?, nonempty]
  · have bottomElsewhere :
        ((Array.replicate problem.graph.size
          problem.lattice.bottom)[node]?).getD problem.lattice.bottom =
          problem.lattice.bottom := by
      rw [Array.getElem?_replicate]
      split <;> rfl
    simp [Array.getD_eq_getD_getElem?,
      Array.getElem?_setIfInBounds_ne (Ne.symm isEntry), isEntry,
      bottomElsewhere]

/--
What holds between two visits: pending nodes are live, and live nodes that are
not pending are settled.
-/
structure Consistent
    (problem : Problem Fault Fact)
    (run : Run Fact) : Prop where
  size_eq : run.facts.size = problem.graph.size
  initial_below :
    problem.lattice.Below problem.initial (problem.factAt run 0)
  live :
    ∀ {node},
      node ∈ run.worklist.nodes →
      node < problem.graph.size ∧
        problem.Live node (problem.factAt run node)
  settled :
    ∀ {node},
      node < problem.graph.size →
      node ∉ run.worklist.nodes →
      problem.Live node (problem.factAt run node) →
      problem.Settled (problem.factAt run) node

/-- At the start only the entry is live, and it is pending. -/
theorem start_consistent
    (lawful : problem.lattice.Lawful)
    (nonempty : 0 < problem.graph.size)
    (order : VisitOrder) :
    problem.Consistent (problem.start order) := by
  have pendingNodes
      (node : Nat) :
      node ∈ (problem.start order).worklist.nodes ↔ node = 0 := by
    unfold start
    rw [Worklist.mem_nodes_push]
    simp [Worklist.empty, Worklist.nodes]
  refine
    { size_eq := by simp [start]
      initial_below := ?_
      live := ?_
      settled := ?_ }
  · rw [factAt_start problem nonempty, if_pos rfl]
    exact lawful.refl problem.initial
  · intro node member
    have isEntry := (pendingNodes node).mp member
    exact ⟨isEntry ▸ nonempty, Or.inl isEntry⟩
  · intro node _ notPending live
    have notEntry : node ≠ 0 := by
      intro isEntry
      exact notPending ((pendingNodes node).mpr isEntry)
    rcases live with isEntry | aboveBottom
    · exact (notEntry isEntry).elim
    · rw [factAt_start problem nonempty, if_neg notEntry] at aboveBottom
      exact (aboveBottom rfl).elim

/-- A visit of a pending node keeps a run consistent. -/
theorem visit_consistent
    (lawful : problem.lattice.Lawful)
    (closed : problem.graph.Closed)
    {run next : Run Fact}
    {node : Nat}
    {worklist : Worklist Nat}
    (consistent : problem.Consistent run)
    (popped : run.worklist.pop? = some (node, worklist))
    (visited : problem.visit { run with worklist } node = .ok next) :
    problem.Consistent next := by
  have pendingBefore := Worklist.nodes_of_pop? popped
  obtain ⟨after, transferred, grows, carried⟩ :=
    visit_grows lawful closed visited consistent.size_eq
  have belowNext
      (other : Nat) :
      problem.lattice.Below
        (problem.factAt run other)
        (problem.factAt next other) :=
    grows.below other
  refine
    { size_eq := grows.size_eq.trans consistent.size_eq
      initial_below := ?_
      live := ?_
      settled := ?_ }
  · exact lawful.trans consistent.initial_below (belowNext 0)
  · intro other member
    rcases grows.fresh member with older | ⟨inside, aboveBottom⟩
    · have inRun : other ∈ run.worklist.nodes := by
        rw [pendingBefore]
        exact List.mem_cons_of_mem node older
      obtain ⟨inside, live⟩ := consistent.live inRun
      refine ⟨inside, ?_⟩
      rcases live with isEntry | aboveBottom
      · exact Or.inl isEntry
      · exact Or.inr
          (lawful.ne_bottom_of_below (belowNext other) aboveBottom)
    · rw [grows.size_eq] at inside
      exact ⟨consistent.size_eq ▸ inside, Or.inr aboveBottom⟩
  · intro other inside notPending live
    have sameFact :
        problem.factAt next other = problem.factAt run other :=
      grows.unchanged notPending
    by_cases isVisited : other = node
    · -- A self-loop that changes the node makes it pending again.
      subst other
      refine ⟨after, ?_, ?_⟩
      · rw [sameFact]
        exact transferred
      · intro edge leaves
        rw [sameFact]
        exact carried edge leaves
    · have notInRun : other ∉ run.worklist.nodes := by
        rw [pendingBefore]
        intro member
        rcases List.mem_cons.mp member with isNode | inRest
        · exact isVisited isNode
        · exact notPending (grows.pending inRest)
      rw [sameFact] at live
      obtain ⟨otherAfter, otherTransferred, otherCarried⟩ :=
        consistent.settled inside notInRun live
      refine ⟨otherAfter, by rw [sameFact]; exact otherTransferred, ?_⟩
      intro edge leaves
      rw [sameFact]
      exact lawful.trans (otherCarried edge leaves)
        (belowNext edge.target)

/-- Every run on a graph with nodes ends consistent. -/
theorem solve_consistent
    (lawful : problem.lattice.Lawful)
    (closed : problem.graph.Closed)
    (nonempty : 0 < problem.graph.size)
    {order : VisitOrder}
    {limit : Nat}
    {run : Run Fact}
    (solved : problem.solve order limit = .ok run) :
    problem.Consistent run := by
  unfold solve at solved
  rw [if_neg (Nat.ne_of_gt nonempty)] at solved
  exact iterate_invariant problem.Consistent
    (visit_consistent lawful closed)
    (start_consistent lawful nonempty order)
    solved

/-- A converged run has no pending node left, so its facts are a solution. -/
theorem Consistent.solution
    {run : Run Fact}
    (consistent : problem.Consistent run)
    (converged : run.converged = true) :
    problem.Solution (problem.factAt run) where
  initial_below := consistent.initial_below
  settled := by
    intro node inside live
    have noPending : run.worklist.nodes = [] :=
      Worklist.nodes_eq_nil_of_isEmpty converged
    exact consistent.settled inside (by simp [noPending]) live

end Runs

end Problem

end KeyAudit
