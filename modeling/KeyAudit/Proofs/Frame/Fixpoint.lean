import KeyAudit.Proofs.Code.Edges
import KeyAudit.Proofs.Flow.VisitBound
import KeyAudit.Proofs.Frame.Arrivals
import KeyAudit.Proofs.Frame.Growth

namespace KeyAudit

/-!
# The frames of a method are found within a bounded number of visits

The shape of a frame is fixed when its instruction is reached first, and from
then on every change forgets a literal.  So an instruction is visited once and
then at most as often as its frame has places.  The stack grows by two words at
most along an edge, which bounds the places of all frames.
-/

/-- A fault that a larger limit on the visits would not avoid. -/
def StepFault.Lasting (fault : StepFault) : Prop :=
  ∀ method visits, fault ≠ .analysis (.noFixpoint method visits)

open KeyAudit.Frame Outcome

theorem Frame.checked_lasting
    {Result : Type}
    {result : Except AnalysisFault Result}
    (lasts :
      FailsOnly (fun fault => StepFault.Lasting (.analysis fault)) result) :
    FailsOnly StepFault.Lasting (checked result) :=
  lasts.mapError fun lasting => lasting

theorem StepFault.OfInstruction.lasting
    {fault : StepFault}
    (ofInstruction : fault.OfInstruction) :
    fault.Lasting := by
  intro method visits same
  cases ofInstruction <;> cases same

theorem Frame.after_lasting
    (instruction : Instruction)
    (frame : Frame) :
    FailsOnly StepFault.Lasting (frame.after instruction) :=
  (after_fails instruction frame).mono StepFault.OfInstruction.lasting

theorem Frame.join_lasting
    (first second : Frame) :
    FailsOnly (fun fault => StepFault.Lasting (.analysis fault))
      (first.join second) := by
  unfold join
  split
  · refine .fault ?_
    intro method visits same
    cases same
  · split
    · refine .fault ?_
      intro method visits same
      cases same
    · split <;> exact .value _

namespace MethodFrames

/-- An analysis fails for a lasting reason unless it is stopped by the limit. -/
theorem solve_lasting
    (flow : CodeFlow)
    (maxLocals : Nat)
    (order : VisitOrder)
    (limit : Nat) :
    FailsOnly StepFault.Lasting
      ((problem flow maxLocals).solve order limit) := by
  refine Problem.solve_fails (fun index fact => ?_) (fun first second => ?_)
    order limit
  · change FailsOnly _ (transfer flow.instructions index fact)
    unfold transfer
    split
    · exact .value _
    · split
      · exact .value _
      · exact FailsOnly.map (after_lasting _ _) some
  · refine checked_lasting ?_
    unfold joinFacts
    split
    · exact .value _
    · exact .value _
    · exact FailsOnly.map (join_lasting _ _) some

/-- A frame pays with its places for the visits of its instruction. -/
def Pays : Option Frame → Nat → Prop
  | none, count => count = 0
  | some frame, count =>
      count + frame.literals ≤ 1 + frame.locals.length + frame.depth

theorem affords
    (flow : CodeFlow)
    (maxLocals : Nat) :
    (problem flow maxLocals).Affords Pays where
  bottom := rfl
  initial := by
    have places := (Frame.entry maxLocals).literals_le
    change 1 + (Frame.entry maxLocals).literals ≤ _
    omega
  fewer := by
    intro fact count fewer pays isFewer
    cases fact with
    | none =>
        exact Nat.le_zero.mp (pays ▸ isFewer)
    | some frame =>
        exact Nat.le_trans (Nat.add_le_add_right isFewer _) pays
  grown := by
    intro first second joined count pays joins grown
    cases first with
    | none =>
        obtain rfl := lattice_lawful.eq_of_join_bottom joins
        cases joined with
        | none =>
            exact (grown rfl).elim
        | some frame =>
            have places := frame.literals_le
            change count = 0 at pays
            change count + 1 + frame.literals ≤ _
            omega
    | some frame =>
        cases second with
        | none =>
            cases joins
            exact (grown rfl).elim
        | some other =>
            obtain ⟨shape, rfl⟩ := join_some_eq_ok.mp joins
            have forgets :=
              literals_joined shape fun same => grown (congrArg some same)
            have sameShape := joined_shape shape
            change count + frame.literals ≤
              1 + frame.locals.length + frame.stack.length at pays
            change count + 1 + _ ≤ 1 + _ + (Frame.joined frame other).stack.length
            rw [← sameShape.locals, ← sameShape.stack]
            omega

/-- A join with a frame has the shape of the frame. -/
theorem shape_of_join
    {first frame : Frame}
    {second : Option Frame}
    (joins : lattice.join (some first) second = .ok (some frame)) :
    SameShape first frame := by
  obtain ⟨_, same, below⟩ :=
    below_some_iff.mp (lattice_lawful.below_join_left joins)
  cases same
  exact below.shape

/-- A frame has two words at most for each edge from the entry. -/
def Within (distance : Nat) (fact : Option Frame) : Prop :=
  ∀ {frame}, fact = some frame → frame.depth + 2 ≤ 2 * distance

theorem spreads
    {flow : CodeFlow}
    (fits : ∀ instruction ∈ flow.instructions, instruction.Fits)
    (maxLocals : Nat) :
    (problem flow maxLocals).Spreads Within where
  bottom := by
    intro distance frame reached
    cases reached
  initial := by
    intro frame reached
    cases reached
    exact Nat.le_refl 2
  farther := by
    intro distance farther fact within isFarther frame reached
    exact Nat.le_trans (within reached) (Nat.mul_le_mul_left 2 isFarther)
  carried := by
    intro distance index before after edge _ within transferred _ frame carried
    obtain ⟨instruction, beforeFrame, next, present, rfl, stepped, rfl⟩ :=
      carry_eq_some transferred carried
    have source := within rfl
    have grows := after_depth (fits _ (List.mem_of_getElem? present)) stepped
    unfold along
    split
    · change 1 + 2 ≤ _
      omega
    · omega
  joined := by
    intro distance first second joined known within joins frame isFrame
    subst isFrame
    cases first with
    | none =>
        exact (known rfl).elim
    | some firstFrame =>
        rw [Frame.depth, ← (shape_of_join joins).stack]
        exact within rfl

/-- All frames of a run have the slots of the method. -/
theorem keeps_locals
    (flow : CodeFlow)
    (maxLocals : Nat) :
    (problem flow maxLocals).Keeps fun _ fact =>
      ∀ {frame}, fact = some frame → frame.locals.length = maxLocals where
  bottom := by
    intro index frame reached
    cases reached
  initial := by
    intro frame reached
    cases reached
    exact List.length_replicate
  carried := by
    intro index before after edge _ _ holds transferred _ frame carried
    obtain ⟨instruction, beforeFrame, next, _, rfl, stepped, rfl⟩ :=
      carry_eq_some transferred carried
    have before := holds rfl
    have sameCount := after_locals_length stepped
    unfold along
    split
    · simp [atHandler, Value.joinAll, sameCount, before]
    · rw [sameCount, before]
  joined := by
    intro index first second joined firstHolds secondHolds joins frame isFrame
    subst isFrame
    cases first with
    | none =>
        exact secondHolds (lattice_lawful.eq_of_join_bottom joins).symm
    | some firstFrame =>
        rw [← (shape_of_join joins).locals]
        exact firstHolds rfl

section Runs

variable {flow : CodeFlow}
variable {maxLocals : Nat}
variable {order : VisitOrder}
variable {limit : Nat}
variable {run : Run (Option Frame)}
variable {index : Nat}
variable {frame : Frame}

/-- An instruction that has no frame has not been visited. -/
theorem requests_eq_zero
    (closed : flow.graph.Closed)
    (solved : (problem flow maxLocals).solve order limit = .ok run)
    (unreached : (problem flow maxLocals).factAt run index = none) :
    run.requests index = 0 := by
  have paid :=
    (affords flow maxLocals).requests lattice_lawful closed solved index
  rw [unreached] at paid
  exact paid

theorem requests_le
    (closed : flow.graph.Closed)
    (solved : (problem flow maxLocals).solve order limit = .ok run)
    (reached : (problem flow maxLocals).factAt run index = some frame) :
    run.requests index ≤ 1 + maxLocals + frame.depth := by
  have paid :=
    (affords flow maxLocals).requests lattice_lawful closed solved index
  have sameCount :=
    (keeps_locals flow maxLocals).factAt lattice_lawful closed solved index
      reached
  rw [reached] at paid
  change run.requests index + frame.literals ≤
    1 + frame.locals.length + frame.depth at paid
  omega

theorem depth_add_two_le
    (closed : flow.graph.Closed)
    (fits : ∀ instruction ∈ flow.instructions, instruction.Fits)
    (solved : (problem flow maxLocals).solve order limit = .ok run)
    (reached : (problem flow maxLocals).factAt run index = some frame) :
    frame.depth + 2 ≤ 2 * flow.instructions.length :=
  (spreads fits maxLocals).factAt lattice_lawful closed
    (Option.some_ne_none _) solved index reached

/-- With as many visits as all frames can pay for, nothing stays pending. -/
theorem converged_of_enough
    (closed : flow.graph.Closed)
    (nonempty : 0 < flow.instructions.length)
    (fits : ∀ instruction ∈ flow.instructions, instruction.Fits)
    (enough :
      flow.instructions.length *
        (1 + maxLocals + 2 * flow.instructions.length) ≤ limit)
    (solved : (problem flow maxLocals).solve order limit = .ok run) :
    run.converged = true := by
  have sized :=
    (Problem.solve_consistent lattice_lawful closed nonempty solved).size_eq
  have inside
      (index : Nat)
      (requested : run.requests index ≠ 0) :
      index < flow.instructions.length := by
    by_contra outside
    exact requested
      (requests_eq_zero closed solved (Problem.factAt_outside sized outside))
  have each
      (index : Nat) :
      run.requests index ≤
        1 + maxLocals + 2 * flow.instructions.length := by
    cases reached : (problem flow maxLocals).factAt run index with
    | none =>
        rw [requests_eq_zero closed solved reached]
        exact Nat.zero_le _
    | some frame =>
        have requested := requests_le closed solved reached
        have shallow := depth_add_two_le closed fits solved reached
        omega
  have total := run.visits_add_pending_le inside each
  by_contra notConverged
  have pending : run.converged = false :=
    Bool.eq_false_iff.mpr notConverged
  have counted := Problem.solve_visits solved pending
  have waiting :=
    List.length_pos_of_ne_nil (Worklist.nodes_ne_nil_of_not_isEmpty pending)
  omega

/-- An analysis with enough visits is not stopped. -/
theorem ofFlow_lasting
    (closed : flow.graph.Closed)
    (nonempty : 0 < flow.instructions.length)
    (fits : ∀ instruction ∈ flow.instructions, instruction.Fits)
    (enough :
      flow.instructions.length *
        (1 + maxLocals + 2 * flow.instructions.length) ≤ limit) :
    FailsOnly StepFault.Lasting (ofFlow flow maxLocals order limit) := by
  unfold ofFlow
  refine (solve_lasting flow maxLocals order limit).bind fun solved => ?_
  rw [if_pos (converged_of_enough closed nonempty fits enough solved)]
  exact .value _

/-- A larger limit does not change an analysis that was not stopped. -/
theorem ofFlow_of_lasting
    (lasting : FailsOnly StepFault.Lasting (ofFlow flow maxLocals order limit))
    {larger : Nat}
    (more : limit ≤ larger) :
    ofFlow flow maxLocals order larger = ofFlow flow maxLocals order limit := by
  have ended :
      Problem.Ended ((problem flow maxLocals).solve order limit) := by
    intro run solved
    by_contra notConverged
    have stopped :=
      ofFlow_eq_noFixpoint solved (Bool.eq_false_iff.mpr notConverged)
    exact lasting _ stopped _ _ rfl
  unfold ofFlow
  rw [Problem.solve_of_ended more ended]

end Runs

/--
An analysis of decoded instructions that may make as many visits as there are
places in frames of full depth is not stopped by the limit.  On the way there no
stack has more than two words for each instruction, and an instruction is visited
once and then at most once for each place of its frame.  A limit that does not
stop the analysis has no part in its result.
-/
theorem ofFlow_reaches_fixpoint
    {code : Bytes}
    {pool : Pool}
    {instructions : List Instruction}
    (decoded : Code.decode code pool = .ok instructions)
    {name : Text}
    {handlers : List Handler}
    {flow : CodeFlow}
    (built : CodeFlow.build name instructions handlers = .ok flow)
    (maxLocals : Nat)
    (order : VisitOrder) :
    (∀ limit,
        instructions.length * (1 + maxLocals + 2 * instructions.length) ≤ limit →
          FailsOnly StepFault.Lasting (ofFlow flow maxLocals order limit)) ∧
      (∀ {limit run},
          (problem flow maxLocals).solve order limit = .ok run →
            ∀ index,
              ((problem flow maxLocals).factAt run index = none →
                  run.visited.count index = 0) ∧
                ∀ {frame},
                  (problem flow maxLocals).factAt run index = some frame →
                    run.visited.count index ≤ 1 + maxLocals + frame.depth ∧
                      frame.depth ≤ 2 * instructions.length ∧
                        ∀ {instruction next},
                          instructions[index]? = some instruction →
                            frame.after instruction = .ok next →
                              next.depth ≤ 2 * instructions.length) ∧
        ∀ {limit larger},
          FailsOnly StepFault.Lasting (ofFlow flow maxLocals order limit) →
            limit ≤ larger →
              ofFlow flow maxLocals order larger =
                ofFlow flow maxLocals order limit := by
  have consecutive := Code.decode_consecutive decoded
  have nonempty := Code.decode_nonempty decoded
  have closed := CodeFlow.build_closed consecutive built
  obtain rfl := CodeFlow.build_instructions built
  have fits : ∀ instruction ∈ flow.instructions, instruction.Fits :=
    fun _ member => consecutive.fits member
  refine ⟨fun limit => ofFlow_lasting closed nonempty fits, ?_,
    fun lasting => ofFlow_of_lasting lasting⟩
  · intro limit run solved index
    refine ⟨fun unreached => ?_, fun {frame} reached => ⟨?_, ?_, ?_⟩⟩
    · have requested := requests_eq_zero closed solved unreached
      exact Nat.eq_zero_of_add_eq_zero_right requested
    · exact Nat.le_trans (Nat.le_add_right ..) (requests_le closed solved reached)
    · have shallow := depth_add_two_le closed fits solved reached
      omega
    · intro instruction next present stepped
      have shallow := depth_add_two_le closed fits solved reached
      have grows := after_depth (fits _ (List.mem_of_getElem? present)) stepped
      omega

/-- A loop without an end that stores a second literal over the first one. -/
def overwriteCode : Bytes :=
  [0x12, 0x02, 0x4B, 0x12, 0x04, 0x4B, 0xA7, 0xFF, 0xFD]

/-- The literals that the loop stores. -/
def overwritePool : Pool :=
  ⟨[none, some (.utf8 "first"), some (.string 1), some (.utf8 "second"),
    some (.string 3)]⟩

set_option maxRecDepth 4000 in
/--
The second literal comes back to a slot that held the first one, which takes both
visits that the head of the loop may have.  A limit far beyond the bound changes
nothing.
-/
theorem ofFlow_reaches_fixpoint_overwrite :
    ∃ instructions flow run,
      Code.decode overwriteCode overwritePool = .ok instructions ∧
        CodeFlow.build "overwrite" instructions [] = .ok flow ∧
          (problem flow 1).solve .firstIn 60 = .ok run ∧
            (problem flow 1).factAt run 2 = some ⟨[.unknown], []⟩ ∧
              run.visited.count 2 = 2 ∧
                run.visited.count 2 ≤ 1 + 1 + 0 ∧
                  FailsOnly StepFault.Lasting (ofFlow flow 1 .firstIn 60) ∧
                    ofFlow flow 1 .firstIn 1000000 = ofFlow flow 1 .firstIn 60 := by
  obtain ⟨instructions, flow, run, decoded, built, length, solved, reached,
      visited⟩ :
      ∃ instructions flow run,
        Code.decode overwriteCode overwritePool = .ok instructions ∧
          CodeFlow.build "overwrite" instructions [] = .ok flow ∧
            instructions.length = 5 ∧
              (problem flow 1).solve .firstIn 60 = .ok run ∧
                (problem flow 1).factAt run 2 = some ⟨[.unknown], []⟩ ∧
                  run.visited.count 2 = 2 :=
    ⟨_, _, _, rfl, rfl, rfl, rfl, rfl, rfl⟩
  obtain ⟨enough, each, larger⟩ :=
    ofFlow_reaches_fixpoint decoded built 1 .firstIn
  have lasting := enough 60 (by rw [length])
  exact
    ⟨instructions, flow, run, decoded, built, solved, reached, visited,
      ((each solved 2).2 reached).1, lasting, larger lasting (by decide)⟩

end MethodFrames

end KeyAudit
