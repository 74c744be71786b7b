import KeyAudit.Proofs.Flow.LeastSolution
import Mathlib.Logic.Relation

namespace KeyAudit

/-!
# The steps of a run

A run takes a node off the worklist, finds the fact after it, follows its edges
one by one and turns to the next node.  A moment is a point of a run between two
such steps.  A run that gives a result comes to it step by step, and a run that
fails comes to a moment at which the next step fails.  So what every step keeps
holds at every point of a run, whether or not the run fails later.
-/

/-- What a run is about to do. -/
inductive Phase (Fact : Type) where
  /-- Take the next node. -/
  | between
  /-- Find the fact after the node that was taken. -/
  | entering (node : Nat)
  /-- Follow the edges that are left, by the facts before and after the node. -/
  | leaving (node : Nat) (before after : Fact) (edges : List Edge)

/-- A point of a run. -/
structure Moment (Fact : Type) where
  run : Run Fact
  phase : Phase Fact

namespace Problem

variable {Fault Fact : Type}

/-- How a run with a limit goes on from one moment to the next. -/
inductive Step (problem : Problem Fault Fact) (limit : Nat) :
    Moment Fact → Moment Fact → Prop where
  | take
      {run : Run Fact}
      {node : Nat}
      {worklist : Worklist Nat}
      (allowed : run.visits < limit)
      (popped : run.worklist.pop? = some (node, worklist)) :
      Step problem limit ⟨run, .between⟩
        ⟨{ run with worklist, visited := node :: run.visited }, .entering node⟩
  | enter
      {run : Run Fact}
      {node : Nat}
      {after : Fact}
      (transferred :
        problem.transfer node (problem.factAt run node) = .ok after) :
      Step problem limit ⟨run, .entering node⟩
        ⟨run, .leaving node (problem.factAt run node) after
          (problem.graph.outgoing node)⟩
  | follow
      {run next : Run Fact}
      {node : Nat}
      {before after : Fact}
      {edge : Edge}
      {edges : List Edge}
      (relaxed : problem.relax before after run edge = .ok next) :
      Step problem limit ⟨run, .leaving node before after (edge :: edges)⟩
        ⟨next, .leaving node before after edges⟩
  | finish
      {run : Run Fact}
      {node : Nat}
      {before after : Fact} :
      Step problem limit ⟨run, .leaving node before after []⟩ ⟨run, .between⟩

/-- A run goes on from one moment to another in any number of steps. -/
abbrev Steps (problem : Problem Fault Fact) (limit : Nat) :
    Moment Fact → Moment Fact → Prop :=
  Relation.ReflTransGen (problem.Step limit)

/-- A run on a graph with nodes comes from its start to a moment. -/
structure ComesTo
    (problem : Problem Fault Fact)
    (order : VisitOrder)
    (limit : Nat)
    (moment : Moment Fact) : Prop where
  nonempty : 0 < problem.graph.size
  steps : problem.Steps limit ⟨problem.start order, .between⟩ moment

/-- At a moment the next step fails. -/
inductive Fails (problem : Problem Fault Fact) :
    Moment Fact → Fault → Prop where
  | transfer
      {run : Run Fact}
      {node : Nat}
      {fault : Fault}
      (failed : problem.transfer node (problem.factAt run node) = .error fault) :
      Fails problem ⟨run, .entering node⟩ fault
  | join
      {run : Run Fact}
      {node : Nat}
      {before after : Fact}
      {edge : Edge}
      {edges : List Edge}
      {fault : Fault}
      (failed :
        problem.lattice.join (problem.factAt run edge.target)
          (problem.carry edge before after) = .error fault) :
      Fails problem ⟨run, .leaving node before after (edge :: edges)⟩ fault

section Runs

variable {problem : Problem Fault Fact}
variable {limit : Nat}

theorem ComesTo.trans
    {order : VisitOrder}
    {earlier later : Moment Fact}
    (comes : problem.ComesTo order limit earlier)
    (steps : problem.Steps limit earlier later) :
    problem.ComesTo order limit later :=
  ⟨comes.nonempty, Relation.ReflTransGen.trans comes.steps steps⟩

/-- What holds at the start and what every step keeps holds at every moment. -/
theorem ComesTo.invariant
    {order : VisitOrder}
    (Holds : Moment Fact → Prop)
    (atStart :
      0 < problem.graph.size → Holds ⟨problem.start order, .between⟩)
    (keeps :
      ∀ {earlier later},
        problem.ComesTo order limit earlier →
        Holds earlier →
        problem.Step limit earlier later →
        Holds later)
    {moment : Moment Fact}
    (comes : problem.ComesTo order limit moment) :
    Holds moment := by
  obtain ⟨nonempty, steps⟩ := comes
  induction steps with
  | refl =>
      exact atStart nonempty
  | tail earlier step inductionHypothesis =>
      exact keeps ⟨nonempty, earlier⟩ inductionHypothesis step

/-- The node of a visit is the last one visited, and the edges left to follow leave it. -/
def OnTrack (problem : Problem Fault Fact) : Moment Fact → Prop
  | ⟨_, .between⟩ => True
  | ⟨run, .entering node⟩ => ∃ earlier, run.visited = node :: earlier
  | ⟨run, .leaving node _ _ edges⟩ =>
      (∃ earlier, run.visited = node :: earlier) ∧
        ∀ edge ∈ edges, edge ∈ problem.graph.outgoing node

/-- Following an edge visits no node. -/
theorem relax_visited
    {before after : Fact}
    {run next : Run Fact}
    {edge : Edge}
    (relaxed : problem.relax before after run edge = .ok next) :
    next.visited = run.visited := by
  obtain ⟨_, _, ⟨_, rfl⟩ | ⟨_, rfl⟩⟩ := relax_eq_ok relaxed
  · rfl
  · rfl

/-- A step leads from track to track. -/
theorem Step.onTrack
    {earlier later : Moment Fact}
    (step : problem.Step limit earlier later)
    (onTrack : problem.OnTrack earlier) :
    problem.OnTrack later := by
  cases step with
  | take allowed popped =>
      exact ⟨_, rfl⟩
  | enter transferred =>
      exact ⟨onTrack, fun _ leaves => leaves⟩
  | follow relaxed =>
      obtain ⟨isCurrent, leave⟩ := onTrack
      refine ⟨relax_visited relaxed ▸ isCurrent, ?_⟩
      intro edge member
      exact leave edge (List.mem_cons_of_mem _ member)
  | finish =>
      trivial

/-- Every run stays on track. -/
theorem ComesTo.onTrack
    {order : VisitOrder}
    {moment : Moment Fact}
    (comes : problem.ComesTo order limit moment) :
    problem.OnTrack moment := by
  apply comes.invariant problem.OnTrack
  · intro _
    trivial
  · intro earlier later _ onTrack step
    exact step.onTrack onTrack

/-- At every moment there is a fact for each node. -/
theorem ComesTo.size_eq
    {order : VisitOrder}
    {moment : Moment Fact}
    (comes : problem.ComesTo order limit moment) :
    moment.run.facts.size = problem.graph.size := by
  apply comes.invariant fun moment =>
    moment.run.facts.size = problem.graph.size
  · intro _
    simp [start]
  · intro earlier later _ sized step
    cases step with
    | take allowed popped =>
        exact sized
    | enter transferred =>
        exact sized
    | follow relaxed =>
        obtain ⟨_, _, ⟨_, rfl⟩ | ⟨_, rfl⟩⟩ := relax_eq_ok relaxed
        · exact sized
        · exact Array.size_setIfInBounds.trans sized
    | finish =>
        exact sized

/-- Edges that can all be followed are followed step by step. -/
theorem steps_of_relaxed
    {node : Nat}
    {before after : Fact}
    {edges : List Edge}
    {run next : Run Fact}
    (relaxed : edges.foldlM (problem.relax before after) run = .ok next) :
    problem.Steps limit ⟨run, .leaving node before after edges⟩
      ⟨next, .between⟩ := by
  induction edges generalizing run with
  | nil =>
      cases relaxed
      exact .single .finish
  | cons edge edges inductionHypothesis =>
      rw [List.foldlM_cons, Outcome.bind_eq_ok] at relaxed
      obtain ⟨middle, first, later⟩ := relaxed
      exact .head (.follow first) (inductionHypothesis later)

/-- Edges that cannot all be followed lead to one that cannot be followed. -/
theorem fails_of_relaxed
    {node : Nat}
    {before after : Fact}
    {edges : List Edge}
    {run : Run Fact}
    {fault : Fault}
    (failed : edges.foldlM (problem.relax before after) run = .error fault) :
    ∃ moment,
      problem.Steps limit ⟨run, .leaving node before after edges⟩ moment ∧
        problem.Fails moment fault := by
  induction edges generalizing run with
  | nil =>
      cases failed
  | cons edge edges inductionHypothesis =>
      rw [List.foldlM_cons, Outcome.bind_eq_error] at failed
      rcases failed with first | ⟨middle, first, later⟩
      · exact ⟨_, .refl, .join (relax_eq_error first)⟩
      · obtain ⟨moment, steps, fails⟩ := inductionHypothesis later
        exact ⟨moment, .head (.follow first) steps, fails⟩

/-- A visit that gives a run makes all its steps. -/
theorem steps_of_visit
    {run next : Run Fact}
    {node : Nat}
    {worklist : Worklist Nat}
    (allowed : run.visits < limit)
    (popped : run.worklist.pop? = some (node, worklist))
    (visited : problem.visit { run with worklist } node = .ok next) :
    problem.Steps limit ⟨run, .between⟩ ⟨next, .between⟩ := by
  unfold visit at visited
  rw [Outcome.bind_eq_ok] at visited
  obtain ⟨after, transferred, relaxed⟩ := visited
  exact .head (.take allowed popped)
    (.head (.enter transferred) (steps_of_relaxed relaxed))

/-- A visit that fails comes to a step that fails. -/
theorem fails_of_visit
    {run : Run Fact}
    {node : Nat}
    {worklist : Worklist Nat}
    {fault : Fault}
    (allowed : run.visits < limit)
    (popped : run.worklist.pop? = some (node, worklist))
    (failed : problem.visit { run with worklist } node = .error fault) :
    ∃ moment,
      problem.Steps limit ⟨run, .between⟩ moment ∧
        problem.Fails moment fault := by
  have taken :
      problem.Step limit ⟨run, .between⟩
        ⟨{ run with worklist, visited := node :: run.visited },
          .entering node⟩ :=
    .take allowed popped
  unfold visit at failed
  rw [Outcome.bind_eq_error] at failed
  rcases failed with transferred | ⟨after, transferred, relaxed⟩
  · exact ⟨_, .single taken, .transfer transferred⟩
  · obtain ⟨moment, steps, fails⟩ := fails_of_relaxed relaxed
    exact ⟨moment, .head taken (.head (.enter transferred) steps), fails⟩

/-- Visits that give a run make all their steps. -/
theorem steps_of_iterate
    {remaining : Nat}
    {run final : Run Fact}
    (allowed : run.visits + remaining = limit)
    (iterated : problem.iterate remaining run = .ok final) :
    problem.Steps limit ⟨run, .between⟩ ⟨final, .between⟩ := by
  induction remaining generalizing run with
  | zero =>
      cases iterated
      exact .refl
  | succ remaining inductionHypothesis =>
      unfold iterate at iterated
      split at iterated
      · cases iterated
        exact .refl
      · rename_i node worklist popped
        rw [Outcome.bind_eq_ok] at iterated
        obtain ⟨next, visited, iterated⟩ := iterated
        have counted := visit_visits visited
        change next.visits = run.visits + 1 at counted
        exact .trans
          (steps_of_visit (by omega) popped visited)
          (inductionHypothesis (by omega) iterated)

/-- Visits of which one fails come to a step that fails. -/
theorem fails_of_iterate
    {remaining : Nat}
    {run : Run Fact}
    {fault : Fault}
    (allowed : run.visits + remaining = limit)
    (failed : problem.iterate remaining run = .error fault) :
    ∃ moment,
      problem.Steps limit ⟨run, .between⟩ moment ∧
        problem.Fails moment fault := by
  induction remaining generalizing run with
  | zero =>
      cases failed
  | succ remaining inductionHypothesis =>
      unfold iterate at failed
      split at failed
      · cases failed
      · rename_i node worklist popped
        rw [Outcome.bind_eq_error] at failed
        rcases failed with visited | ⟨next, visited, failed⟩
        · exact fails_of_visit (by omega) popped visited
        · have counted := visit_visits visited
          change next.visits = run.visits + 1 at counted
          obtain ⟨moment, steps, fails⟩ :=
            inductionHypothesis (by omega) failed
          exact
            ⟨moment, .trans (steps_of_visit (by omega) popped visited) steps,
              fails⟩

/-- A larger limit allows the same steps. -/
theorem steps_of_larger
    {larger : Nat}
    (more : limit ≤ larger)
    {earlier later : Moment Fact}
    (steps : problem.Steps limit earlier later) :
    problem.Steps larger earlier later := by
  refine Relation.ReflTransGen.mono ?_ _ _ steps
  intro before after step
  cases step with
  | take allowed popped =>
      exact .take (Nat.lt_of_lt_of_le allowed more) popped
  | enter transferred =>
      exact .enter transferred
  | follow relaxed =>
      exact .follow relaxed
  | finish =>
      exact .finish

/-- A run on a graph with nodes comes to its result. -/
theorem comesTo_of_solve
    (nonempty : 0 < problem.graph.size)
    {order : VisitOrder}
    {run : Run Fact}
    (solved : problem.solve order limit = .ok run) :
    problem.ComesTo order limit ⟨run, .between⟩ := by
  unfold solve at solved
  rw [if_neg (Nat.ne_of_gt nonempty)] at solved
  exact ⟨nonempty, steps_of_iterate (Nat.zero_add limit) solved⟩

/-- A run that fails comes to a moment at which the next step fails. -/
theorem fails_of_solve
    {order : VisitOrder}
    {fault : Fault}
    (failed : problem.solve order limit = .error fault) :
    ∃ moment,
      problem.ComesTo order limit moment ∧ problem.Fails moment fault := by
  unfold solve at failed
  split at failed
  · cases failed
  · rename_i hasNodes
    obtain ⟨moment, steps, fails⟩ :=
      fails_of_iterate (Nat.zero_add limit) failed
    exact ⟨moment, ⟨Nat.pos_of_ne_zero hasNodes, steps⟩, fails⟩

end Runs

end Problem

end KeyAudit
