import KeyAudit.Proofs.Flow.LeastSolution
import KeyAudit.Proofs.Frame.Effect

namespace KeyAudit

/-!
# The frames of a method do not depend on the order of visits

The dataflow problem of a method is monotone, and below a solution no effect
and no join can fail.  So an analysis that gives frames in one order gives the
same frames in every other order, unless it is stopped by the limit.
-/

namespace MethodFrames

/-- The dataflow problem of a flow is monotone. -/
theorem problem_monotone
    (flow : CodeFlow)
    (maxLocals : Nat) :
    (problem flow maxLocals).Monotone where
  transfer_below := by
    intro node lower upper lowerAfter upperAfter below
      transferred upperTransferred
    obtain ⟨result, sameTransfer, resultBelow⟩ :=
      transfer_below below upperTransferred
    obtain rfl : lowerAfter = result := by
      have both := transferred.symm.trans sameTransfer
      exact Except.ok.inj both
    exact resultBelow
  carry_below := carry_below

/-- Below a solution every fact can be transferred, and two facts can be joined. -/
theorem secures_of_solution
    {flow : CodeFlow}
    {maxLocals : Nat}
    {facts : Nat → Option Frame}
    (solution : (problem flow maxLocals).Solution facts) :
    (problem flow maxLocals).Secures
      (fun node fact => lattice.Below fact (facts node)) where
  toKeeps :=
    solution.keeps lattice_lawful (problem_monotone flow maxLocals)
  transfers := by
    intro node before inside live below
    have solutionLive :
        (problem flow maxLocals).Live node (facts node) := by
      rcases live with isEntry | reached
      · exact Or.inl isEntry
      · exact Or.inr (lattice_lawful.ne_bottom_of_below below reached)
    obtain ⟨after, transferred, _⟩ :=
      solution.settled inside solutionLive
    obtain ⟨lowerAfter, lowerTransferred, _⟩ :=
      transfer_below below transferred
    exact ⟨lowerAfter, lowerTransferred⟩
  joins := join_ok_of_below

/-- An analysis gives the facts of a converged run. -/
theorem ofFlow_eq_ok
    {flow : CodeFlow}
    {maxLocals : Nat}
    {order : VisitOrder}
    {limit : Nat}
    {result : MethodFrames} :
    ofFlow flow maxLocals order limit = .ok result ↔
      ∃ run,
        (problem flow maxLocals).solve order limit = .ok run ∧
          run.converged = true ∧
            result = ⟨flow, run.facts.toList, run.visits⟩ := by
  unfold ofFlow
  rw [Outcome.bind_eq_ok]
  apply exists_congr
  intro run
  apply and_congr_right
  intro _
  cases run.converged with
  | true =>
      simp [pure, Except.pure, eq_comm]
  | false =>
      simp [throw, throwThe, MonadExceptOf.throw]

/-- An analysis of a run that did not converge names the limit. -/
theorem ofFlow_eq_noFixpoint
    {flow : CodeFlow}
    {maxLocals : Nat}
    {order : VisitOrder}
    {limit : Nat}
    {run : Run (Option Frame)}
    (solved : (problem flow maxLocals).solve order limit = .ok run)
    (pending : run.converged = false) :
    ofFlow flow maxLocals order limit =
      .error (.analysis (.noFixpoint flow.name limit)) := by
  have counted : run.visits = limit :=
    Problem.solve_visits solved pending
  unfold ofFlow
  simp [solved, pending, counted, bind, Except.bind, throw, throwThe,
    MonadExceptOf.throw]

/-- The facts of a converged run on a flow with instructions are a solution. -/
theorem solution_of_converged
    {flow : CodeFlow}
    {maxLocals : Nat}
    (closed : flow.graph.Closed)
    (nonempty : 0 < flow.instructions.length)
    {order : VisitOrder}
    {limit : Nat}
    {run : Run (Option Frame)}
    (solved : (problem flow maxLocals).solve order limit = .ok run)
    (converged : run.converged = true) :
    (problem flow maxLocals).Solution
      ((problem flow maxLocals).factAt run) :=
  (Problem.solve_consistent lattice_lawful closed nonempty
    solved).solution converged

/-- Two converged runs on a flow with instructions end in the same facts. -/
theorem facts_eq_of_converged
    {flow : CodeFlow}
    {maxLocals : Nat}
    (closed : flow.graph.Closed)
    (nonempty : 0 < flow.instructions.length)
    {order otherOrder : VisitOrder}
    {limit otherLimit : Nat}
    {run other : Run (Option Frame)}
    (solved : (problem flow maxLocals).solve order limit = .ok run)
    (otherSolved :
      (problem flow maxLocals).solve otherOrder otherLimit = .ok other)
    (converged : run.converged = true)
    (otherConverged : other.converged = true) :
    other.facts = run.facts := by
  have solution :=
    solution_of_converged closed nonempty solved converged
  have otherSolution :=
    solution_of_converged closed nonempty otherSolved otherConverged
  exact Problem.facts_eq_of_below lattice_lawful
    (Problem.solve_consistent lattice_lawful closed nonempty
      otherSolved).size_eq
    (Problem.solve_consistent lattice_lawful closed nonempty
      solved).size_eq
    ((secures_of_solution solution).factAt lattice_lawful closed
      otherSolved)
    ((secures_of_solution otherSolution).factAt lattice_lawful closed
      solved)

/--
An analysis that gives frames in one order gives the same frames in every other
order, unless it is stopped by the limit on its visits.
-/
theorem ofFlow_agrees_in_every_order
    {flow : CodeFlow}
    (closed : flow.graph.Closed)
    {maxLocals : Nat}
    {order : VisitOrder}
    {limit : Nat}
    {result : MethodFrames}
    (analysed : ofFlow flow maxLocals order limit = .ok result)
    (otherOrder : VisitOrder)
    (otherLimit : Nat) :
    (∃ visits,
      ofFlow flow maxLocals otherOrder otherLimit =
        .ok { result with visits }) ∨
      ofFlow flow maxLocals otherOrder otherLimit =
        .error (.analysis (.noFixpoint flow.name otherLimit)) := by
  obtain ⟨run, solved, converged, rfl⟩ := ofFlow_eq_ok.mp analysed
  by_cases empty : flow.instructions.length = 0
  · -- Without instructions there is nothing to visit in any order.
    left
    have visitsNothing :=
      (problem flow maxLocals).solve_of_empty empty
    rw [visitsNothing] at solved
    cases solved
    exact
      ⟨0, ofFlow_eq_ok.mpr
        ⟨_, visitsNothing otherOrder otherLimit, rfl, rfl⟩⟩
  · have nonempty : 0 < flow.instructions.length :=
      Nat.pos_of_ne_zero empty
    have solution :=
      solution_of_converged closed nonempty solved converged
    obtain ⟨other, otherSolved⟩ :=
      (secures_of_solution solution).solve_ok lattice_lawful closed
        otherOrder otherLimit
    cases otherConverged : other.converged with
    | true =>
        left
        refine ⟨other.visits, ofFlow_eq_ok.mpr
          ⟨other, otherSolved, otherConverged, ?_⟩⟩
        rw [facts_eq_of_converged closed nonempty solved otherSolved
          converged otherConverged]
    | false =>
        exact Or.inr (ofFlow_eq_noFixpoint otherSolved otherConverged)

/-- Two ways to one return, which push different literals. -/
def diamond : CodeFlow where
  name := "diamond"
  instructions :=
    [ ⟨0, 0, 1, ⟨0x01, "aconst_null", .constant, .none, some 0, some 1, 1⟩,
        .none, false⟩,
      ⟨1, 1, 3, ⟨0xC6, "ifnull", .branch, .signedShort, some 1, some 0, 1⟩,
        .jump 9, false⟩,
      ⟨2, 4, 2, ⟨0x12, "ldc", .constant, .byte, some 0, none, 1⟩,
        .constant (.string "left"), false⟩,
      ⟨3, 6, 3, ⟨0xA7, "goto", .jump, .signedShort, some 0, some 0, 1⟩,
        .jump 11, false⟩,
      ⟨4, 9, 2, ⟨0x12, "ldc", .constant, .byte, some 0, none, 1⟩,
        .constant (.string "right"), false⟩,
      ⟨5, 11, 1, ⟨0xB0, "areturn", .exit, .none, some 1, some 0, 1⟩,
        .none, false⟩ ]
  edges :=
    [ ⟨0, 1, .fallThrough⟩, ⟨1, 4, .branchTaken⟩, ⟨1, 2, .fallThrough⟩,
      ⟨2, 3, .fallThrough⟩, ⟨3, 5, .jump⟩, ⟨4, 5, .fallThrough⟩ ]

/-- By rank the return is visited once; the node that came last makes it visited twice. -/
theorem ofFlow_agrees_in_every_order_diamond :
    ∃ result,
      ofFlow diamond 1 .ranked 6 = .ok result ∧
        result.frames[5]? = some (some ⟨[.unknown], [.unknown]⟩) ∧
          ofFlow diamond 1 .lastIn 6 =
              .error (.analysis (.noFixpoint "diamond" 6)) ∧
            ∃ visits,
              ofFlow diamond 1 .lastIn 7 = .ok { result with visits } := by
  obtain ⟨result, analysed, atReturn⟩ :
      ∃ result,
        ofFlow diamond 1 .ranked 6 = .ok result ∧
          result.frames[5]? = some (some ⟨[.unknown], [.unknown]⟩) :=
    ⟨_, rfl, rfl⟩
  refine ⟨result, analysed, atReturn, rfl, ?_⟩
  rcases ofFlow_agrees_in_every_order (by decide) analysed .lastIn 7
    with same | stopped
  · exact same
  · cases stopped

end MethodFrames

end KeyAudit
