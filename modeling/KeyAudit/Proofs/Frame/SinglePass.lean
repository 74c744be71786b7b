import KeyAudit.Proofs.Flow.SinglePass
import KeyAudit.Proofs.Frame.Paths

namespace KeyAudit

/-!
# Code without cycles is analysed in one pass

By rank no instruction is visited twice, and a successful analysis visits every
instruction that control can reach.  So it makes as many visits as there are such
instructions.
-/

namespace MethodFrames

/-- A converged run by rank visits the instructions that can be reached, each once. -/
theorem visits_eq_reached
    {flow : CodeFlow}
    (closed : flow.graph.Closed)
    (acyclic : flow.graph.Acyclic)
    (nonempty : 0 < flow.instructions.length)
    {maxLocals limit : Nat}
    {run : Run (Option Frame)}
    (solved : (problem flow maxLocals).solve .ranked limit = .ok run)
    (converged : run.converged = true) :
    run.visits = flow.graph.reached.ncard := by
  have comes :
      (problem flow maxLocals).ComesTo .ranked limit ⟨run, .between⟩ :=
    Problem.comesTo_of_solve nonempty solved
  have ascends := comes.ascends closed acyclic
  have visitsAll : (run.visited.toFinset : Set Nat) = flow.graph.reached := by
    ext node
    rw [Finset.mem_coe, List.mem_toFinset, Graph.mem_reached closed nonempty]
    constructor
    · exact comes.reaches.visited_leads
    · rintro ⟨path, isPath⟩
      obtain ⟨_, _, frame, hasFrame, _⟩ :=
        path_from_entry_below closed nonempty solved converged isPath
      have live :
          (problem flow maxLocals).Live node
            ((problem flow maxLocals).factAt run node) := by
        right
        rw [hasFrame]
        exact Option.some_ne_none frame
      rcases comes.accounted closed live with isVisited | isPending
      · exact isVisited
      · rw [Worklist.nodes_eq_nil_of_isEmpty converged] at isPending
        cases isPending
  rw [← visitsAll, Set.ncard_coe_finset,
    List.toFinset_card_of_nodup ascends.visited_once]
  rfl

/--
On a graph without cycles a run by rank visits nodes of strictly ascending ranks,
so it visits none twice, also if it fails later.  It converges or fails as soon
as it may visit every reachable node, and a successful analysis of code with this
graph visits each reachable instruction once.
-/
theorem acyclic_graph_takes_one_pass
    {graph : Graph}
    (closed : graph.Closed)
    (acyclic : graph.Acyclic) :
    (∀ {Fault Fact : Type} {problem : Problem Fault Fact} {limit : Nat},
      problem.graph = graph →
      (∀ {moment},
        problem.ComesTo .ranked limit moment →
        moment.run.visited.reverse.Pairwise graph.RanksBefore ∧
          moment.run.visited.Nodup) ∧
        (∀ {run},
          problem.solve .ranked limit = .ok run →
          run.visited.reverse.Pairwise graph.RanksBefore ∧
            run.visited.Nodup) ∧
          (graph.reached.ncard ≤ limit →
            (∃ run,
              problem.solve .ranked limit = .ok run ∧
                run.converged = true) ∨
              ∃ moment fault,
                problem.ComesTo .ranked limit moment ∧
                  problem.Fails moment fault ∧
                    problem.solve .ranked limit = .error fault)) ∧
      ∀ {flow : CodeFlow} {maxLocals limit : Nat} {result : MethodFrames},
        flow.graph = graph →
        ofFlow flow maxLocals .ranked limit = .ok result →
        result.visits = graph.reached.ncard := by
  refine ⟨?_, ?_⟩
  · rintro Fault Fact problem limit rfl
    have ascending
        {moment : Moment Fact}
        (comes : problem.ComesTo .ranked limit moment) :
        moment.run.visited.reverse.Pairwise problem.graph.RanksBefore ∧
          moment.run.visited.Nodup := by
      have ascends := comes.ascends closed acyclic
      exact
        ⟨List.pairwise_reverse.mpr ascends.ascending, ascends.visited_once⟩
    refine ⟨ascending, ?_, ?_⟩
    · intro run solved
      by_cases empty : problem.graph.size = 0
      · rw [problem.solve_of_empty empty] at solved
        cases solved
        exact ⟨.nil, .nil⟩
      · exact ascending
          (Problem.comesTo_of_solve (Nat.pos_of_ne_zero empty) solved)
    · intro enough
      cases solved : problem.solve .ranked limit with
      | ok run =>
          exact Or.inl
            ⟨run, rfl,
              Problem.converged_of_acyclic closed acyclic enough solved⟩
      | error fault =>
          obtain ⟨moment, comes, fails⟩ := Problem.fails_of_solve solved
          exact Or.inr ⟨moment, fault, comes, fails, rfl⟩
  · rintro flow maxLocals limit result rfl analysed
    obtain ⟨run, solved, converged, rfl⟩ := ofFlow_eq_ok.mp analysed
    by_cases empty : flow.instructions.length = 0
    · rw [(problem flow maxLocals).solve_of_empty empty] at solved
      cases solved
      rw [Graph.reached_of_empty empty, Set.ncard_empty]
      rfl
    · exact visits_eq_reached closed acyclic (Nat.pos_of_ne_zero empty)
        solved converged

/-- A jump forward, a jump back to the return, and a loop that nothing reaches. -/
def detour : CodeFlow where
  name := "detour"
  instructions :=
    [ ⟨0, 0, 3, ⟨0xA7, "goto", .jump, .signedShort, some 0, some 0, 1⟩,
        .jump 4, false⟩,
      ⟨1, 3, 1, ⟨0xB1, "return", .exit, .none, some 0, some 0, 0⟩,
        .none, false⟩,
      ⟨2, 4, 3, ⟨0xA7, "goto", .jump, .signedShort, some 0, some 0, 1⟩,
        .jump 3, false⟩,
      ⟨3, 7, 3, ⟨0xA7, "goto", .jump, .signedShort, some 0, some 0, 1⟩,
        .jump 7, false⟩ ]
  edges := [⟨0, 2, .jump⟩, ⟨2, 1, .jump⟩, ⟨3, 3, .jump⟩]

/-- Three visits are enough for the three instructions that can be reached. -/
theorem acyclic_graph_takes_one_pass_detour :
    detour.graph.Acyclic ∧
      detour.graph.reached.ncard = 3 ∧
        ofFlow detour 0 .ranked 2 =
            .error (.analysis (.noFixpoint "detour" 2)) ∧
          ∃ run,
            (problem detour 0).solve .ranked 3 = .ok run ∧
              run.converged = true ∧
                run.visited = [1, 2, 0] := by
  have closed : detour.graph.Closed := by decide
  have listed := @Graph.mem_reversePostorder detour.graph closed (by decide)
  have acyclic : detour.graph.Acyclic := by
    apply Graph.acyclic_of_rising fun node => detour.graph.reversePostorder.idxOf node
    intro edge member leads
    rw [← listed] at leads
    revert edge
    decide
  obtain ⟨runs, visits⟩ := acyclic_graph_takes_one_pass closed acyclic
  obtain ⟨result, analysed, counted⟩ :
      ∃ result, ofFlow detour 0 .ranked 3 = .ok result ∧ result.visits = 3 :=
    ⟨_, rfl, rfl⟩
  have three : detour.graph.reached.ncard = 3 :=
    (visits rfl analysed).symm.trans counted
  refine ⟨acyclic, three, rfl, ?_⟩
  obtain ⟨_, _, converges⟩ := @runs _ _ (problem detour 0) 3 rfl
  rcases converges three.le with
    ⟨run, solved, converged⟩ | ⟨_, _, _, _, failed⟩
  · refine ⟨run, solved, converged, ?_⟩
    cases solved
    rfl
  · cases failed

end MethodFrames

end KeyAudit
