import KeyAudit.Proofs.Flow.Moments
import KeyAudit.Proofs.Frame.Fixpoint

namespace KeyAudit

/-!
# Frames only forget, and literals are never made up

At every moment of an analysis all frames have the slots of the method.  Once an
instruction has a frame, its shape is fixed and all that can happen is that a
literal is forgotten.  A literal in a frame was pushed by an instruction that
control can reach, since every other word is copied or unknown.
-/

/-- A reachable instruction pushes a string literal from the pool. -/
def CodeFlow.Loads (flow : CodeFlow) (text : Text) : Prop :=
  ∃ (index : Nat) (instruction : Instruction),
    flow.graph.LeadsTo 0 index ∧
      flow.instructions[index]? = some instruction ∧
        instruction.opcode.mnemonic ∈ ["ldc", "ldc_w", "ldc2_w"] ∧
          instruction.operand = .constant (.string text)

open KeyAudit.Frame

section Literals

/-- A place gets a literal only if the plan holds it for some slot or word. -/
theorem Frame.Plan.mem_of_source
    {plan : Plan}
    {place : Place}
    {text : Text}
    (isLiteral : plan.source place = .literal text) :
    .literal text ∈ plan.locals ∨ .literal text ∈ plan.stack := by
  have mem_of_getD
      {sources : List Source}
      {index : Nat}
      (found : sources.getD index .unknown = .literal text) :
      .literal text ∈ sources := by
    rw [List.getD_eq_getElem?_getD] at found
    cases present : sources[index]? with
    | none =>
        rw [present] at found
        cases found
    | some source =>
        rw [present] at found
        cases found
        exact List.mem_of_getElem? present
  cases place with
  | slot index =>
      exact Or.inl (mem_of_getD isLiteral)
  | word index =>
      exact Or.inr (mem_of_getD isLiteral)

/-- A move puts a literal on the stack. -/
def Frame.Move.Gives (text : Text) : Move → Prop
  | .restack _ gives => .literal text ∈ gives
  | _ => False

theorem Frame.Move.not_gives_exchange
    (pops pushes : Nat)
    (text : Text) :
    ¬(Move.exchange pops pushes).Gives text := by
  intro given
  cases (List.mem_replicate.mp given).2

/-- A plan holds a literal only if its move puts it on the stack. -/
theorem Frame.Move.gives_of_source
    {move : Move}
    {locals depth : Nat}
    {plan : Plan}
    (planned : move.plan locals depth = .ok plan)
    {place : Place}
    {text : Text}
    (isLiteral : plan.source place = .literal text) :
    move.Gives text := by
  have held := Plan.mem_of_source isLiteral
  cases move with
  | restack takes gives =>
      simp only [Move.plan] at planned
      split at planned
      · cases planned
      · cases planned
        simp only [slots, words, List.mem_map, List.mem_append, reduceCtorEq,
          and_false, exists_false, false_or] at held
        obtain ⟨given, member, isSource⟩ := held
        cases given with
        | literal other =>
            cases isSource
            exact member
        | unknown =>
            cases isSource
        | taken position =>
            cases isSource
  | load slot count =>
      simp only [Move.plan] at planned
      split at planned <;> cases planned
      simp [slots, words] at held
  | store slot count =>
      simp only [Move.plan] at planned
      split at planned
      · cases planned
      · split at planned <;> cases planned
        simp [slots, words] at held
  | forget slot =>
      simp only [Move.plan] at planned
      split at planned <;> cases planned
      simp [slots, words] at held
  | inspect slot =>
      simp only [Move.plan] at planned
      split at planned <;> cases planned
      simp [slots, words] at held

/-- Only an instruction with a string constant puts a literal on the stack. -/
theorem Instruction.string_of_gives
    {instruction : Instruction}
    {move : Move}
    (moves : instruction.move = .ok move)
    {text : Text}
    (given : move.Gives text) :
    instruction.kind = .constant ∧
      instruction.operand = .constant (.string text) := by
  have notFixed
      (pops pushes : Nat) :=
    Move.not_gives_exchange pops pushes text
  unfold Instruction.move at moves
  dsimp only at moves
  split at moves
  · rename_i other isConstant isString
    cases moves
    cases List.mem_singleton.mp given
    exact ⟨isConstant, isString⟩
  · cases moves
    exact (notFixed _ _ given).elim
  · cases moves
    exact given.elim
  · cases moves
    exact given.elim
  · cases moves
    exact given.elim
  · cases moves
    exact given.elim
  · split at moves
    · cases moves
      obtain ⟨_, _, isTaken⟩ := List.mem_map.mp given
      cases isTaken
    · cases moves
      exact (notFixed _ _ given).elim
  · obtain ⟨type, _, rfl⟩ := Outcome.map_eq_ok.mp moves
    unfold Move.ofField at given
    split at given <;> exact (notFixed _ _ given).elim
  · obtain ⟨type, _, rfl⟩ := Outcome.map_eq_ok.mp moves
    exact (notFixed _ _ given).elim
  · cases moves
    exact (notFixed _ _ given).elim
  · cases moves
    exact (notFixed _ _ given).elim

/-- The opcodes whose operand is a constant of the pool. -/
theorem Opcode.table_constants :
    (Opcode.table.all fun opcode => decide
      (opcode.kind = .constant →
        opcode.layout = .byte ∨ opcode.layout = .short →
          opcode.mnemonic ∈ ["ldc", "ldc_w", "ldc2_w"])) = true := by
  decide +kernel

theorem Instruction.Fits.loads
    {instruction : Instruction}
    (fits : instruction.Fits)
    (isConstant : instruction.kind = .constant)
    {value : Loadable}
    (operand : instruction.operand = .constant value) :
    instruction.opcode.mnemonic ∈ ["ldc", "ldc_w", "ldc2_w"] := by
  have row :=
    of_decide_eq_true (List.all_eq_true.mp Opcode.table_constants _ fits.row)
  apply row isConstant
  have accepts := fits.accepts
  have kind : instruction.opcode.kind = .constant := isConstant
  rw [operand, Opcode.Accepts, kind] at accepts
  cases layout : instruction.opcode.layout <;> simp [layout] at accepts ⊢

end Literals

/-- A frame has the slots of the method and only literals that reachable code pushes. -/
structure Frame.Grounded
    (flow : CodeFlow)
    (maxLocals : Nat)
    (frame : Frame) : Prop where
  locals_length : frame.locals.length = maxLocals
  loads :
    ∀ {place text},
      frame.read place = .literal text →
      flow.Loads text

namespace Frame

/-- Nothing is known at the entry. -/
theorem read_entry
    (maxLocals : Nat)
    (place : Place) :
    (entry maxLocals).read place = .unknown := by
  cases place with
  | slot index =>
      simp only [entry, read, List.getD_eq_getElem?_getD,
        List.getElem?_replicate]
      split <;> rfl
  | word index =>
      rfl

/-- Only the entry itself is above the entry, since there is nothing to forget. -/
theorem eq_entry_of_below
    {maxLocals : Nat}
    {frame : Frame}
    (below : Below (entry maxLocals) frame) :
    frame = entry maxLocals := by
  apply Below.antisymm _ below
  refine ⟨below.shape.symm, ?_⟩
  intro place text known
  rw [read_entry] at known
  cases known

/-- A frame above another one keeps or forgets what the other one knows of a place. -/
theorem Below.kept_or_forgotten
    {lower upper : Frame}
    (below : Below lower upper)
    (place : Place) :
    upper.read place = lower.read place ∨ upper.read place = .unknown := by
  cases known : upper.read place with
  | literal text =>
      exact Or.inl (below.literal known).symm
  | unknown =>
      exact Or.inr rfl

namespace Grounded

variable {flow : CodeFlow}
variable {maxLocals : Nat}

theorem entry
    (flow : CodeFlow)
    (maxLocals : Nat) :
    Grounded flow maxLocals (.entry maxLocals) where
  locals_length := List.length_replicate
  loads := by
    intro place text known
    rw [read_entry] at known
    cases known

/-- A frame that knows less is grounded as well. -/
theorem of_below
    {lower upper : Frame}
    (grounded : Grounded flow maxLocals lower)
    (below : Below lower upper) :
    Grounded flow maxLocals upper where
  locals_length := below.shape.locals.symm.trans grounded.locals_length
  loads := fun known => grounded.loads (below.literal known)

/-- A decoded instruction that control can reach keeps a frame grounded. -/
theorem after
    {before next : Frame}
    (grounded : Grounded flow maxLocals before)
    {index : Nat}
    (leads : flow.graph.LeadsTo 0 index)
    {instruction : Instruction}
    (present : flow.instructions[index]? = some instruction)
    (fits : instruction.Fits)
    (stepped : before.after instruction = .ok next) :
    Grounded flow maxLocals next := by
  refine
    { locals_length :=
        (after_locals_length stepped).trans grounded.locals_length
      loads := ?_ }
  intro place text known
  obtain ⟨plan, planned, rfl⟩ := after_eq_ok.mp stepped
  rw [Plan.read_apply] at known
  cases source : plan.source place with
  | literal other =>
      rw [source] at known
      cases known
      obtain ⟨move, moves, planned⟩ := Instruction.plan_eq_ok.mp planned
      obtain ⟨isConstant, operand⟩ :=
        Instruction.string_of_gives moves (Move.gives_of_source planned source)
      exact
        ⟨index, instruction, leads, present, fits.loads isConstant operand,
          operand⟩
  | unknown =>
      rw [source] at known
      cases known
  | copy other =>
      rw [source] at known
      exact grounded.loads known

/-- What an edge carries is grounded, and a handler has all the slots. -/
theorem along
    {before next : Frame}
    (grounded : Grounded flow maxLocals before)
    (nextGrounded : Grounded flow maxLocals next)
    (edge : Edge) :
    Grounded flow maxLocals (MethodFrames.along edge before next) := by
  unfold MethodFrames.along
  split
  · refine ⟨?_, ?_⟩
    · simp [atHandler, Value.joinAll, grounded.locals_length,
        nextGrounded.locals_length]
    · intro place text known
      obtain ⟨slot, _, knownBefore, _⟩ := atHandler_eq_literal.mp known
      exact grounded.loads knownBefore
  · exact nextGrounded

end Grounded

end Frame

namespace MethodFrames

variable {flow : CodeFlow}
variable {maxLocals : Nat}
variable {order : VisitOrder}
variable {limit : Nat}

/-- Frames stay grounded, and only reachable instructions get them. -/
theorem keeps_grounded
    (fits : ∀ instruction ∈ flow.instructions, instruction.Fits)
    (maxLocals : Nat) :
    (problem flow maxLocals).Keeps fun index fact =>
      ∀ {frame},
        fact = some frame →
        flow.graph.LeadsTo 0 index ∧ Grounded flow maxLocals frame where
  bottom := by
    intro index frame reached
    cases reached
  initial := by
    intro frame reached
    cases reached
    exact ⟨.refl 0, .entry flow maxLocals⟩
  carried := by
    intro index before after edge _ _ holds transferred leaves frame carried
    obtain ⟨instruction, beforeFrame, next, present, rfl, stepped, rfl⟩ :=
      carry_eq_some transferred carried
    obtain ⟨leads, grounded⟩ := holds rfl
    obtain ⟨member, rfl⟩ := Graph.mem_outgoing.mp leaves
    have nextGrounded :=
      grounded.after leads present (fits _ (List.mem_of_getElem? present))
        stepped
    exact ⟨leads.trans (.edge member), grounded.along nextGrounded edge⟩
  joined := by
    intro index first second joined firstHolds secondHolds joins frame isFrame
    subst isFrame
    cases first with
    | none =>
        exact secondHolds (lattice_lawful.eq_of_join_bottom joins).symm
    | some firstFrame =>
        obtain ⟨_, same, below⟩ :=
          below_some_iff.mp (lattice_lawful.below_join_left joins)
        cases same
        obtain ⟨leads, grounded⟩ := firstHolds rfl
        exact ⟨leads, grounded.of_below below⟩

/-- A frame after an instruction comes from a frame before it. -/
theorem transfer_eq_some
    {instructions : List Instruction}
    {index : Nat}
    {before : Option Frame}
    {next : Frame}
    (transferred : transfer instructions index before = .ok (some next)) :
    ∃ instruction frame,
      instructions[index]? = some instruction ∧
        before = some frame ∧ frame.after instruction = .ok next := by
  cases before with
  | none =>
      cases transferred
  | some frame =>
      cases present : instructions[index]? with
      | none =>
          simp only [transfer, present] at transferred
          cases transferred
      | some instruction =>
          obtain ⟨_, stepped, same⟩ :=
            (transfer_some_eq_ok present).mp transferred
          cases same
          exact ⟨instruction, frame, rfl, rfl, stepped⟩

/--
A frame that an analysis deals with at a moment: a fact of an instruction, a frame
before or after the instruction of a visit, or what an edge carries from there.
-/
inductive DealsWith
    (flow : CodeFlow)
    (maxLocals : Nat) :
    Moment (Option Frame) → Frame → Prop where
  | fact
      {moment : Moment (Option Frame)}
      {index : Nat}
      {frame : Frame}
      (present :
        (problem flow maxLocals).factAt moment.run index = some frame) :
      DealsWith flow maxLocals moment frame
  | before
      {run : Run (Option Frame)}
      {index : Nat}
      {frame : Frame}
      {after : Option Frame}
      {edges : List Edge} :
      DealsWith flow maxLocals ⟨run, .leaving index (some frame) after edges⟩
        frame
  | after
      {run : Run (Option Frame)}
      {index : Nat}
      {frame : Frame}
      {before : Option Frame}
      {edges : List Edge} :
      DealsWith flow maxLocals ⟨run, .leaving index before (some frame) edges⟩
        frame
  | carried
      {run : Run (Option Frame)}
      {index : Nat}
      {frame : Frame}
      {before after : Option Frame}
      {edges : List Edge}
      {edge : Edge}
      (carries : carry edge before after = some frame) :
      DealsWith flow maxLocals ⟨run, .leaving index before after edges⟩ frame

/-- Every frame that an analysis deals with is grounded. -/
theorem grounded_of_dealsWith
    (fits : ∀ instruction ∈ flow.instructions, instruction.Fits)
    (closed : flow.graph.Closed)
    {moment : Moment (Option Frame)}
    (comes : (problem flow maxLocals).ComesTo order limit moment)
    {frame : Frame}
    (deals : DealsWith flow maxLocals moment frame) :
    Grounded flow maxLocals frame := by
  have steady :=
    comes.steady (keeps_grounded fits maxLocals) lattice_lawful closed
  cases deals with
  | fact present =>
      exact (steady.everywhere.2 _ present).2
  | before =>
      obtain ⟨_, _, holds, _⟩ := steady.inHand
      exact (holds rfl).2
  | after =>
      obtain ⟨_, _, holds, transferred⟩ := steady.inHand
      obtain ⟨instruction, beforeFrame, present, rfl, stepped⟩ :=
        transfer_eq_some transferred
      obtain ⟨leads, grounded⟩ := holds rfl
      exact grounded.after leads present
        (fits _ (List.mem_of_getElem? present)) stepped
  | carried carries =>
      obtain ⟨_, _, holds, transferred⟩ := steady.inHand
      obtain ⟨instruction, beforeFrame, next, present, rfl, stepped, rfl⟩ :=
        carry_eq_some transferred carries
      obtain ⟨leads, grounded⟩ := holds rfl
      have nextGrounded :=
        grounded.after leads present (fits _ (List.mem_of_getElem? present))
          stepped
      exact grounded.along nextGrounded _

/-- The entry keeps its frame. -/
theorem factAt_entry
    (closed : flow.graph.Closed)
    {moment : Moment (Option Frame)}
    (comes : (problem flow maxLocals).ComesTo order limit moment) :
    (problem flow maxLocals).factAt moment.run 0 =
      some (.entry maxLocals) := by
  have start :
      (problem flow maxLocals).ComesTo order limit
        ⟨(problem flow maxLocals).start order, .between⟩ :=
    ⟨comes.nonempty, .refl⟩
  have grown := start.steps_below lattice_lawful closed comes.steps 0
  rw [Problem.factAt_start _ comes.nonempty, if_pos rfl] at grown
  obtain ⟨frame, isFrame, below⟩ := below_some_iff.mp grown
  rw [isFrame, eq_entry_of_below below]

/-- A frame that an instruction has is kept or forgets literals later on. -/
theorem factAt_narrows
    (closed : flow.graph.Closed)
    {earlier later : Moment (Option Frame)}
    (comes : (problem flow maxLocals).ComesTo order limit earlier)
    (steps : (problem flow maxLocals).Steps limit earlier later)
    {index : Nat}
    {frame : Frame}
    (present : (problem flow maxLocals).factAt earlier.run index = some frame) :
    ∃ narrowed,
      (problem flow maxLocals).factAt later.run index = some narrowed ∧
        narrowed.depth = frame.depth ∧
          ∀ place,
            narrowed.read place = frame.read place ∨
              narrowed.read place = .unknown := by
  have grown := comes.steps_below lattice_lawful closed steps index
  rw [present] at grown
  obtain ⟨narrowed, isNarrowed, below⟩ := below_some_iff.mp grown
  exact
    ⟨narrowed, isNarrowed, below.shape.stack.symm, below.kept_or_forgotten⟩

/-- Frames with as many slots can be joined unless their depths differ. -/
theorem join_fails
    {first second : Frame}
    (sameCount : first.locals.length = second.locals.length) :
    Outcome.FailsOnly
      (fun fault =>
        fault = .analysis (.depthMismatch first.depth second.depth))
      (lattice.join (some first) (some second)) := by
  have fails :
      Outcome.FailsOnly
        (fun fault => fault = .depthMismatch first.depth second.depth)
        (first.join second) := by
    unfold join
    split
    · exact .fault rfl
    · rw [if_neg (not_not.mpr sameCount)]
      split <;> exact .value _
  exact (fails.map some).mapError fun isMismatch => by rw [isMismatch]

/-- A step fails by its instruction, or because frames of different depths meet. -/
theorem fault_of_fails
    (fits : ∀ instruction ∈ flow.instructions, instruction.Fits)
    (closed : flow.graph.Closed)
    {moment : Moment (Option Frame)}
    (comes : (problem flow maxLocals).ComesTo order limit moment)
    {fault : StepFault}
    (fails : (problem flow maxLocals).Fails moment fault) :
    fault.OfInstruction ∨
      ∃ first second, fault = .analysis (.depthMismatch first second) := by
  cases fails with
  | transfer failed =>
      rename_i run index
      change transfer flow.instructions index _ = _ at failed
      left
      cases before : (problem flow maxLocals).factAt run index with
      | none =>
          rw [before] at failed
          cases failed
      | some frame =>
          rw [before] at failed
          cases present : flow.instructions[index]? with
          | none =>
              simp only [transfer, present] at failed
              cases failed
          | some instruction =>
              simp only [transfer, present] at failed
              exact (after_fails instruction frame).map some _ failed
  | join failed =>
      rename_i run index before after edge edges
      change lattice.join _ (carry edge before after) = _ at failed
      right
      cases old : (problem flow maxLocals).factAt run edge.target with
      | none =>
          rw [old] at failed
          cases failed
      | some first =>
          cases carries : carry edge before after with
          | none =>
              rw [old, carries] at failed
              cases failed
          | some second =>
              rw [old, carries] at failed
              have left :=
                grounded_of_dealsWith fits closed comes (.fact old)
              have right :=
                grounded_of_dealsWith fits closed comes (.carried carries)
              have sameCount :=
                left.locals_length.trans right.locals_length.symm
              exact ⟨_, _, join_fails sameCount fault failed⟩

/--
At every moment of an analysis of decoded instructions, also of one that fails
later, each frame has the slots of the method and only literals that reachable
instructions push.  The entry keeps its frame, and other frames keep their depth
and forget literals at most.  So frames never disagree about the number of slots.
-/
theorem facts_only_forget
    {code : Bytes}
    {pool : Pool}
    (decoded : Code.decode code pool = .ok flow.instructions)
    (closed : flow.graph.Closed)
    (maxLocals : Nat)
    (order : VisitOrder)
    (limit : Nat) :
    (∀ {moment},
      (problem flow maxLocals).ComesTo order limit moment →
      (∀ {frame},
        DealsWith flow maxLocals moment frame →
        Grounded flow maxLocals frame) ∧
        (problem flow maxLocals).factAt moment.run 0 =
            some (.entry maxLocals) ∧
          ∀ {later},
            (problem flow maxLocals).Steps limit moment later →
            ∀ {index frame},
              (problem flow maxLocals).factAt moment.run index = some frame →
              ∃ narrowed,
                (problem flow maxLocals).factAt later.run index =
                    some narrowed ∧
                  narrowed.depth = frame.depth ∧
                    ∀ place,
                      narrowed.read place = frame.read place ∨
                        narrowed.read place = .unknown) ∧
      (∀ first second,
        ofFlow flow maxLocals order limit ≠
          .error (.analysis (.localMismatch first second))) ∧
        ∀ {result},
          ofFlow flow maxLocals order limit = .ok result →
          ∀ {index : Nat} {frame},
            result.frames[index]? = some (some frame) →
            Grounded flow maxLocals frame := by
  have nonempty := Code.decode_nonempty decoded
  have fits : ∀ instruction ∈ flow.instructions, instruction.Fits :=
    fun _ member => (Code.decode_consecutive decoded).fits member
  refine ⟨?_, ?_, ?_⟩
  · intro moment comes
    exact
      ⟨grounded_of_dealsWith fits closed comes, factAt_entry closed comes,
        factAt_narrows closed comes⟩
  · intro first second failed
    unfold ofFlow at failed
    rw [Outcome.bind_eq_error] at failed
    rcases failed with solveFailed | ⟨run, _, stopped⟩
    · obtain ⟨moment, comes, fails⟩ := Problem.fails_of_solve solveFailed
      rcases fault_of_fails fits closed comes fails with
        ofInstruction | ⟨_, _, isMismatch⟩
      · cases ofInstruction
      · cases isMismatch
    · split at stopped <;> cases stopped
  · intro result analysed index frame present
    obtain ⟨run, solved, _, rfl⟩ := ofFlow_eq_ok.mp analysed
    rw [getElem?_facts flow maxLocals] at present
    exact grounded_of_dealsWith fits closed
      (Problem.comesTo_of_solve nonempty solved) (.fact present)

set_option maxRecDepth 4000 in
/--
After two visits the head of a loop knows the literal that was stored before it.
Once the loop has stored another one, it knows none; the entry never changes.
-/
theorem facts_only_forget_overwrite :
    ∃ flow moment later,
      Code.decode overwriteCode overwritePool = .ok flow.instructions ∧
        (problem flow 1).ComesTo .firstIn 60 moment ∧
          (problem flow 1).Steps 60 moment later ∧
            (problem flow 1).factAt moment.run 2 =
                some ⟨[.literal "first"], []⟩ ∧
              (problem flow 1).factAt later.run 2 =
                  some ⟨[.unknown], []⟩ ∧
                (problem flow 1).factAt later.run 0 = some (.entry 1) ∧
                  flow.Loads "first" := by
  obtain ⟨flow, run, final, decoded, closed, iterated, counted, iteratedOn,
      atHead, atHeadLater⟩ :
      ∃ flow run final,
        Code.decode overwriteCode overwritePool = .ok flow.instructions ∧
          flow.graph.Closed ∧
            (problem flow 1).iterate 2 ((problem flow 1).start .firstIn) =
                .ok run ∧
              run.visits = 2 ∧
                (problem flow 1).iterate 58 run = .ok final ∧
                  (problem flow 1).factAt run 2 =
                      some ⟨[.literal "first"], []⟩ ∧
                    (problem flow 1).factAt final 2 =
                      some ⟨[.unknown], []⟩ := by
    obtain ⟨instructions, flow, decoded, built, run, final, rest⟩ :
        ∃ instructions flow,
          Code.decode overwriteCode overwritePool = .ok instructions ∧
            CodeFlow.build "overwrite" instructions [] = .ok flow ∧
              ∃ run final,
                (problem flow 1).iterate 2 ((problem flow 1).start .firstIn) =
                    .ok run ∧
                  run.visits = 2 ∧
                    (problem flow 1).iterate 58 run = .ok final ∧
                      (problem flow 1).factAt run 2 =
                          some ⟨[.literal "first"], []⟩ ∧
                        (problem flow 1).factAt final 2 =
                          some ⟨[.unknown], []⟩ :=
      ⟨_, _, rfl, rfl, _, _, rfl, rfl, rfl, rfl, rfl⟩
    refine ⟨flow, run, final, ?_, ?_, rest⟩
    · rw [CodeFlow.build_instructions built]
      exact decoded
    · exact CodeFlow.build_closed (Code.decode_consecutive decoded) built
  have nonempty := Code.decode_nonempty decoded
  have comes :
      (problem flow 1).ComesTo .firstIn 60 ⟨run, .between⟩ :=
    ⟨nonempty,
      Problem.steps_of_larger (by decide)
        (Problem.steps_of_iterate (Nat.zero_add 2) iterated)⟩
  have steps :
      (problem flow 1).Steps 60 ⟨run, .between⟩ ⟨final, .between⟩ :=
    Problem.steps_of_iterate (by rw [counted]) iteratedOn
  obtain ⟨atMoments, _, _⟩ := facts_only_forget decoded closed 1 .firstIn 60
  obtain ⟨grounded, _, _⟩ := atMoments comes
  obtain ⟨_, atEntry, _⟩ := atMoments (comes.trans steps)
  have known :
      Frame.read ⟨[.literal "first"], []⟩ (.slot 0) = .literal "first" := rfl
  exact
    ⟨flow, _, _, decoded, comes, steps, atHead, atHeadLater, atEntry,
      (grounded (.fact atHead)).loads known⟩

end MethodFrames

end KeyAudit
