import KeyAudit.Proofs.Flow.Reachable
import KeyAudit.Proofs.Frame.Paths

namespace KeyAudit

/-!
# Reachable, ranked and analysed instructions

A sweep from the entry, the reverse post-order and a successful analysis all find
the same instructions: those to which a path leads.  So the listing of a flow
marks exactly the instructions without a frame.
-/

namespace CodeFlow

/-- The mark of an instruction is the second code point of its line. -/
theorem mark_of_summaryLine
    (graph : Graph)
    (reached : List Nat)
    (instruction : Instruction) :
    (summaryLine graph reached instruction)[1]? =
      some
        (CodePoint.ofChar
          (if instruction.index ∈ reached then ' ' else '!')) := by
  by_cases isReached : instruction.index ∈ reached
  · simp only [summaryLine, isReached, List.contains_eq_mem, decide_true,
      if_true]
    rfl
  · simp only [summaryLine, isReached, List.contains_eq_mem, decide_false,
      if_false, Bool.false_eq_true]
    rfl

/-- The line of an instruction marks it if no path leads there. -/
theorem summary_marks
    {flow : CodeFlow}
    {position : Nat}
    {instruction : Instruction}
    (present : flow.instructions[position]? = some instruction) :
    ∃ row,
      flow.summary[position + 1]? = some row ∧
        (row[1]? = some (CodePoint.ofChar '!') ↔
          instruction.index ∉ flow.graph.reachable 0) := by
  refine
    ⟨summaryLine flow.graph (flow.graph.reachable 0) instruction, ?_, ?_⟩
  · simp [summary, present]
  · have differ : CodePoint.ofChar ' ' ≠ CodePoint.ofChar '!' := by
      decide
    rw [mark_of_summaryLine]
    by_cases isReached : instruction.index ∈ flow.graph.reachable 0
    · simp [isReached, differ]
    · simp [isReached]

end CodeFlow

namespace MethodFrames

/-- A successful analysis gives frames to the instructions that can be reached. -/
theorem leadsTo_iff_frame
    {flow : CodeFlow}
    (closed : flow.graph.Closed)
    (nonempty : 0 < flow.instructions.length)
    {maxLocals : Nat}
    {order : VisitOrder}
    {limit : Nat}
    {result : MethodFrames}
    (analysed : ofFlow flow maxLocals order limit = .ok result)
    {index : Nat} :
    flow.graph.LeadsTo 0 index ↔
      ∃ frame, result.frames[index]? = some (some frame) := by
  obtain ⟨run, solved, converged, rfl⟩ := ofFlow_eq_ok.mp analysed
  simp only [getElem?_facts flow maxLocals]
  constructor
  · rintro ⟨path, isPath⟩
    obtain ⟨_, _, frame, hasFrame, _⟩ :=
      path_from_entry_below closed nonempty solved converged isPath
    exact ⟨frame, hasFrame⟩
  · rintro ⟨frame, hasFrame⟩
    obtain ⟨_, path, isPath, _⟩ :=
      (endsWith_exact closed nonempty solved converged).arrives hasFrame
    exact ⟨path, isPath⟩

/--
From every node a sweep ends, in whatever order it takes the nodes that wait, and
finds exactly the nodes to which a path leads.  From the entry these are the
ranked nodes and, in a successful analysis, the instructions with frames.  The
listing marks the others.
-/
theorem reachable_ranked_analysed_agree
    {graph : Graph}
    (closed : graph.Closed)
    (nonempty : 0 < graph.size) :
    (∀ {start : Nat},
      start < graph.size →
      graph.reachableFrom? start =
          some ((graph.reachable start).map Int.ofNat) ∧
        (graph.reachable start).Pairwise (· < ·) ∧
          (∀ {node},
            node ∈ graph.reachable start ↔ graph.LeadsTo start node) ∧
            ∀ {sweep},
              Graph.Sweep.Rounds graph (.begin start) sweep →
              sweep.taken ≤ graph.edges.length + 1 ∧
                (sweep.waiting ≠ [] →
                  ∃ next, Graph.Sweep.Round graph sweep next) ∧
                  (sweep.waiting = [] →
                    sweep.visited.Perm (graph.reachable start))) ∧
      (∀ {node},
        node ∈ graph.reachable 0 ↔ node ∈ graph.ranking.map Prod.fst) ∧
        ∀ {flow maxLocals order limit result},
          flow.graph = graph →
          ofFlow flow maxLocals order limit = .ok result →
          (∀ {index : Nat},
            index ∈ graph.reachable 0 ↔
              ∃ frame, result.frames[index]? = some (some frame)) ∧
            ∀ {position : Nat} {instruction},
              flow.instructions[position]? = some instruction →
              ∃ row,
                flow.summary[position + 1]? = some row ∧
                  (row[1]? = some (CodePoint.ofChar '!') ↔
                    ¬∃ frame,
                      result.frames[instruction.index]? =
                        some (some frame)) := by
  refine ⟨?_, Graph.mem_reachable_iff_ranked closed nonempty, ?_⟩
  · intro start isNode
    exact
      ⟨Graph.reachableFrom?_of_lt isNode, graph.reachable_ascending start,
        Graph.mem_reachable, Graph.sweep_terminates⟩
  · rintro flow maxLocals order limit result rfl analysed
    have hasFrame
        {index : Nat} :
        index ∈ flow.graph.reachable 0 ↔
          ∃ frame, result.frames[index]? = some (some frame) :=
      Graph.mem_reachable.trans (leadsTo_iff_frame closed nonempty analysed)
    refine ⟨hasFrame, ?_⟩
    intro position instruction present
    obtain ⟨row, isRow, marks⟩ := CodeFlow.summary_marks present
    exact ⟨row, isRow, marks.trans hasFrame.not⟩

/-- A switch whose two ways lead to one return, with a handler, around a pop of nothing. -/
def oneWaySwitch : CodeFlow where
  name := "pick"
  instructions :=
    [ ⟨0, 0, 1, ⟨0x03, "iconst_0", .constant, .none, some 0, some 1, 1⟩,
        .none, false⟩,
      ⟨1, 1, 19,
        ⟨0xAB, "lookupswitch", .switch, .lookupSwitch, some 1, some 0, 1⟩,
        .switch 21 [(7, 21)], false⟩,
      ⟨2, 20, 1, ⟨0x57, "pop", .stack, .none, none, none, 1⟩,
        .none, false⟩,
      ⟨3, 21, 1, ⟨0xB1, "return", .exit, .none, some 0, some 0, 0⟩,
        .none, false⟩,
      ⟨4, 22, 1, ⟨0xBF, "athrow", .throwing, .none, some 1, some 0, 1⟩,
        .none, false⟩ ]
  edges :=
    [ ⟨0, 1, .fallThrough⟩, ⟨1, 3, .switchDefault⟩, ⟨1, 3, .switchCase 7⟩,
      ⟨2, 3, .fallThrough⟩, ⟨3, 4, .exception none⟩ ]

/-- Only the pop is out of reach, has no frame and is marked. -/
theorem reachable_ranked_analysed_agree_switch :
    oneWaySwitch.graph.Closed ∧
      oneWaySwitch.graph.ranking = [(0, 0), (1, 1), (3, 2), (4, 3)] ∧
        ∃ result row,
          ofFlow oneWaySwitch 0 .firstIn 9 = .ok result ∧
            4 ∈ oneWaySwitch.graph.reachable 0 ∧
              2 ∉ oneWaySwitch.graph.reachable 0 ∧
                oneWaySwitch.summary[3]? = some row ∧
                  row[1]? = some (CodePoint.ofChar '!') := by
  have closed : oneWaySwitch.graph.Closed := by decide
  obtain ⟨_, ranked, analysis⟩ :=
    reachable_ranked_analysed_agree closed (by decide)
  have order :
      oneWaySwitch.graph.ranking = [(0, 0), (1, 1), (3, 2), (4, 3)] := by
    decide
  obtain ⟨result, analysed, isNone⟩ :
      ∃ result,
        ofFlow oneWaySwitch 0 .firstIn 9 = .ok result ∧
          result.frames[2]? = some none :=
    ⟨_, rfl, rfl⟩
  obtain ⟨hasFrame, marks⟩ := analysis rfl analysed
  have noFrame : ¬∃ frame, result.frames[2]? = some (some frame) := by
    simp [isNone]
  obtain ⟨row, isRow, isMarked⟩ := @marks 2 _ rfl
  refine ⟨closed, order, result, row, analysed, ?_, ?_, isRow, ?_⟩
  · rw [ranked, order]
    decide
  · exact fun isReached => noFrame (hasFrame.mp isReached)
  · exact isMarked.mpr noFrame

end MethodFrames

end KeyAudit
