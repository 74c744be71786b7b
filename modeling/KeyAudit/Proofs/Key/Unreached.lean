import KeyAudit.Proofs.Flow.Unreached
import KeyAudit.Proofs.Key.Extraction

namespace KeyAudit

/-!
# Unreachable code has no say

Two flows that agree on the instructions that control can reach, and on the edges
that leave them, are analysed alike and use the same keys.  So an instruction
that control cannot reach may be anything: it makes no analysis fail, and no key
comes from it.
-/

namespace CodeFlow

/--
Two flows of one name and length agree on the reachable instructions and on the
edges that leave them.
-/
structure SameReached (first second : CodeFlow) : Prop where
  name_eq : second.name = first.name
  length_eq : second.instructions.length = first.instructions.length
  instruction_eq :
    ∀ {index : Nat},
      first.graph.LeadsTo 0 index →
      second.instructions[index]? = first.instructions[index]?
  outgoing_eq :
    ∀ {index : Nat},
      first.graph.LeadsTo 0 index →
      second.graph.outgoing index = first.graph.outgoing index

theorem SameReached.graph
    {first second : CodeFlow}
    (same : first.SameReached second) :
    first.graph.SameReached second.graph where
  size_eq := same.length_eq
  outgoing_eq := same.outgoing_eq

/-- The flow with another instruction at an index and the same edges. -/
def replace
    (flow : CodeFlow)
    (index : Nat)
    (instruction : Instruction) :
    CodeFlow :=
  { flow with instructions := flow.instructions.set index instruction }

/-- Nothing that can be reached changes when an unreachable instruction is replaced. -/
theorem sameReached_replace
    {flow : CodeFlow}
    {index : Nat}
    (unreached : ¬flow.graph.LeadsTo 0 index)
    (instruction : Instruction) :
    flow.SameReached (flow.replace index instruction) where
  name_eq := rfl
  length_eq := List.length_set
  instruction_eq := by
    intro other leads
    apply List.getElem?_set_ne
    rintro rfl
    exact unreached leads
  outgoing_eq := fun _ => rfl

end CodeFlow

namespace MethodFrames

/-- Two analyses fail alike, or they give the same frames, visits and keys. -/
inductive SameOutcome :
    Except StepFault MethodFrames → Except StepFault MethodFrames → Prop where
  | fault (fault : StepFault) :
      SameOutcome (.error fault) (.error fault)
  | frames
      {first second : MethodFrames}
      (frames_eq : second.frames = first.frames)
      (visits_eq : second.visits = first.visits)
      (keys_eq :
        ∀ extractor : Extractor,
          extractor.keysIn second = extractor.keysIn first) :
      SameOutcome (.ok first) (.ok second)

section Invocations

/-- What is selected by frames does not depend on the instructions without one. -/
private theorem selected_eq
    {Selected : Type}
    {select : Instruction × Option Frame → Option Selected}
    (skips : ∀ instruction, select (instruction, none) = none)
    {first second : List Instruction}
    {frames : List (Option Frame)}
    (length_eq : second.length = first.length)
    (agree :
      ∀ {index : Nat} {frame},
        frames[index]? = some (some frame) →
        second[index]? = first[index]?) :
    (second.zip frames).filterMap select =
      (first.zip frames).filterMap select := by
  induction frames generalizing first second with
  | nil =>
      rw [List.zip_nil_right, List.zip_nil_right]
  | cons fact frames inductionHypothesis =>
      cases first with
      | nil =>
          rw [List.length_eq_zero_iff.mp length_eq]
      | cons firstHead firstRest =>
          cases second with
          | nil =>
              cases length_eq
          | cons secondHead secondRest =>
              have behind :
                  (secondRest.zip frames).filterMap select =
                    (firstRest.zip frames).filterMap select := by
                apply inductionHypothesis (Nat.succ.inj length_eq)
                intro index frame present
                exact @agree (index + 1) frame present
              rw [List.zip_cons_cons, List.zip_cons_cons]
              cases fact with
              | none =>
                  rw [List.filterMap_cons_none (skips secondHead),
                    List.filterMap_cons_none (skips firstHead), behind]
              | some frame =>
                  have sameHead := @agree 0 frame rfl
                  simp only [List.getElem?_cons_zero, Option.some.injEq]
                    at sameHead
                  rw [sameHead, List.filterMap_cons, List.filterMap_cons,
                    behind]

/-- Results with the same frames list the same invocations if they agree where a frame is. -/
theorem invocations_eq
    {first second : MethodFrames}
    (frames_eq : second.frames = first.frames)
    (length_eq :
      second.flow.instructions.length = first.flow.instructions.length)
    (agree :
      ∀ {index : Nat} {frame},
        first.frames[index]? = some (some frame) →
        second.flow.instructions[index]? = first.flow.instructions[index]?) :
    second.invocations = first.invocations := by
  unfold invocations
  rw [frames_eq]
  apply selected_eq _ length_eq agree
  intro instruction
  simp

end Invocations

section Flows

variable {first second : CodeFlow}
variable {maxLocals : Nat}
variable {order : VisitOrder}
variable {limit : Nat}

/-- The runs on two flows are the same. -/
theorem solve_eq
    (same : first.SameReached second) :
    (problem second maxLocals).solve order limit =
      (problem first maxLocals).solve order limit := by
  have transfer_eq
      {index : Nat}
      (leads : first.graph.LeadsTo 0 index) :
      transfer second.instructions index =
        transfer first.instructions index := by
    funext fact
    cases fact with
    | none =>
        rfl
    | some frame =>
        unfold transfer
        rw [same.instruction_eq leads]
  exact (problem first maxLocals).solve_eq_of_sameReached same.graph
    transfer_eq order limit

/-- Only instructions that can be reached have frames. -/
theorem leadsTo_of_frame
    {run : Run (Option Frame)}
    (solved : (problem first maxLocals).solve order limit = .ok run)
    {index : Nat}
    {frame : Frame}
    (present : run.facts.toList[index]? = some (some frame)) :
    first.graph.LeadsTo 0 index := by
  rw [getElem?_facts first maxLocals] at present
  by_cases empty : first.instructions.length = 0
  · rw [(problem first maxLocals).solve_of_empty empty] at solved
    cases solved
    cases present
  · have comes :
        (problem first maxLocals).ComesTo order limit ⟨run, .between⟩ :=
      Problem.comesTo_of_solve (Nat.pos_of_ne_zero empty) solved
    apply comes.reaches.fact_leads
    rw [present]
    exact Option.some_ne_none frame

/-- The analyses of two flows have the same outcome. -/
theorem sameOutcome_of_sameReached
    (same : first.SameReached second)
    (maxLocals : Nat)
    (order : VisitOrder)
    (limit : Nat) :
    SameOutcome
      (ofFlow first maxLocals order limit)
      (ofFlow second maxLocals order limit) := by
  unfold ofFlow
  rw [solve_eq same, same.name_eq]
  cases solved : (problem first maxLocals).solve order limit with
  | error fault =>
      exact .fault fault
  | ok run =>
      cases converged : run.converged with
      | false =>
          simp only [bind, Except.bind, converged, Bool.false_eq_true,
            if_false]
          exact .fault _
      | true =>
          have listed :
              invocations ⟨second, run.facts.toList, run.visits⟩ =
                invocations ⟨first, run.facts.toList, run.visits⟩ := by
            refine invocations_eq rfl same.length_eq ?_
            intro index frame present
            exact same.instruction_eq (leadsTo_of_frame solved present)
          simp only [bind, Except.bind, converged, if_true]
          refine .frames rfl rfl ?_
          intro extractor
          unfold Extractor.keysIn
          rw [listed]

/--
Flows that agree on their reachable instructions and the edges that leave these
are analysed alike: the same fault, or the same frames, visits and keys.  So any
instruction may stand where control cannot go.  Only reachable instructions are
visited, have frames and are listed as invocations.
-/
theorem ofFlow_ignores_unreached
    (same : first.SameReached second)
    (maxLocals : Nat)
    (order : VisitOrder)
    (limit : Nat) :
    (∀ {index}, second.graph.LeadsTo 0 index ↔ first.graph.LeadsTo 0 index) ∧
      SameOutcome
          (ofFlow first maxLocals order limit)
          (ofFlow second maxLocals order limit) ∧
        (∀ {index},
          ¬first.graph.LeadsTo 0 index →
          ∀ instruction,
            SameOutcome
              (ofFlow first maxLocals order limit)
              (ofFlow (first.replace index instruction) maxLocals order
                limit)) ∧
          (∀ {moment},
            (problem first maxLocals).ComesTo order limit moment →
            ∀ index ∈ moment.run.visited, first.graph.LeadsTo 0 index) ∧
            ∀ {result},
              ofFlow first maxLocals order limit = .ok result →
              (∀ {index frame},
                result.frames[index]? = some (some frame) →
                first.graph.LeadsTo 0 index) ∧
                ∀ {instruction frame},
                  (instruction, frame) ∈ result.invocations →
                  ∃ index : Nat,
                    first.graph.LeadsTo 0 index ∧
                      first.instructions[index]? = some instruction ∧
                        result.frames[index]? = some (some frame) := by
  refine
    ⟨same.graph.leadsTo,
      sameOutcome_of_sameReached same maxLocals order limit, ?_, ?_, ?_⟩
  · intro index unreached instruction
    exact sameOutcome_of_sameReached
      (CodeFlow.sameReached_replace unreached instruction)
      maxLocals order limit
  · intro moment comes index isVisited
    exact comes.reaches.visited_leads isVisited
  · intro result analysed
    obtain ⟨run, solved, _, rfl⟩ := ofFlow_eq_ok.mp analysed
    refine ⟨leadsTo_of_frame solved, ?_⟩
    intro instruction frame member
    obtain ⟨_, index, present, hasFrame⟩ := Extractor.mem_invocations.mp member
    exact ⟨index, leadsTo_of_frame solved hasFrame, present, hasFrame⟩

/-- A call of a menu behind an unreachable call whose descriptor is malformed. -/
def deadCall : CodeFlow where
  name := "open"
  instructions :=
    [ ⟨0, 0, 3, ⟨0xA7, "goto", .jump, .signedShort, some 0, some 0, 1⟩,
        .jump 6, false⟩,
      ⟨1, 3, 3, ⟨0xB8, "invokestatic", .invoke, .short, none, none, 1⟩,
        .member ⟨"Menu", "show", "(("⟩, false⟩,
      ⟨2, 6, 2, ⟨0x12, "ldc", .constant, .byte, some 0, none, 1⟩,
        .constant (.string "menu.title"), false⟩,
      ⟨3, 8, 3, ⟨0xB8, "invokestatic", .invoke, .short, none, none, 1⟩,
        .member ⟨"Menu", "show", "(Ljava/lang/String;)V"⟩, false⟩,
      ⟨4, 11, 1, ⟨0xB1, "return", .exit, .none, some 0, some 0, 0⟩,
        .none, false⟩ ]
  edges :=
    [ ⟨0, 2, .jump⟩, ⟨1, 2, .fallThrough⟩, ⟨2, 3, .fallThrough⟩,
      ⟨3, 4, .fallThrough⟩ ]

/-- The same with an increment of a slot that does not exist, covered by a handler. -/
def deadIncrement : CodeFlow where
  name := "open"
  instructions :=
    deadCall.instructions.set 1
      ⟨1, 3, 3, ⟨0x84, "iinc", .increment, .slotAndByte, some 0, some 0, 1⟩,
        .increment 7 1, false⟩
  edges := deadCall.edges ++ [⟨1, 4, .exception none⟩]

/-- Neither the malformed descriptor nor the missing slot matters to the frames and the keys. -/
theorem ofFlow_ignores_unreached_call :
    deadCall.SameReached deadIncrement ∧
      ¬deadCall.graph.LeadsTo 0 1 ∧
        ∃ result other,
          ofFlow deadCall 0 .ranked 9 = .ok result ∧
            ofFlow deadIncrement 0 .ranked 9 = .ok other ∧
              other.frames = result.frames ∧
                Extractor.menuExtractor.keysIn result =
                    .ok (Text.sortedDistinct ["menu.title"]) ∧
                  Extractor.menuExtractor.keysIn other =
                    .ok (Text.sortedDistinct ["menu.title"]) := by
  have closed : deadCall.graph.Closed := by decide
  have listed := @Graph.mem_reversePostorder deadCall.graph closed (by decide)
  have order : deadCall.graph.reversePostorder = [0, 2, 3, 4] := by decide
  have same : deadCall.SameReached deadIncrement := by
    refine ⟨rfl, rfl, ?_, ?_⟩
    · intro index leads
      rw [← listed, order] at leads
      revert index
      decide
    · intro index leads
      rw [← listed, order] at leads
      revert index
      decide
  obtain ⟨_, outcome, _⟩ := ofFlow_ignores_unreached same 0 .ranked 9
  obtain ⟨result, analysed, keys⟩ :
      ∃ result,
        ofFlow deadCall 0 .ranked 9 = .ok result ∧
          Extractor.menuExtractor.keysIn result =
            .ok (Text.sortedDistinct ["menu.title"]) :=
    ⟨_, rfl, rfl⟩
  refine ⟨same, ?_, result, ?_⟩
  · rw [← listed, order]
    decide
  · rw [analysed] at outcome
    generalize otherAnalysed : ofFlow deadIncrement 0 .ranked 9 = outcomeOfOther
      at outcome
    cases outcome with
    | frames frames_eq visits_eq keys_eq =>
        exact ⟨_, analysed, rfl, frames_eq, keys, (keys_eq _).trans keys⟩

end Flows

end MethodFrames

end KeyAudit
