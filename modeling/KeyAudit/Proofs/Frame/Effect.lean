import KeyAudit.Proofs.Frame.Plan

namespace KeyAudit

/-!
# Effects of instructions and the order of frames

Frames of one shape have one plan.  So an instruction that has an effect on a
frame has one on every frame below it, and the effects are in the same order.
The same holds of the frame at a handler, which knows of a slot what is known
both before and after the instruction.
-/

namespace Frame

/-- A value that comes from the same source is known wherever it is known above. -/
theorem Source.value_below
    {lower upper : Frame}
    (below : Below lower upper)
    {source : Source}
    {text : Text}
    (known : source.value upper = .literal text) :
    source.value lower = .literal text := by
  cases source with
  | literal other =>
      exact known
  | unknown =>
      cases known
  | copy place =>
      exact below.literal known

namespace Plan

/-- Where a place gets its value from; a place that is not there gets none. -/
def source (plan : Plan) : Place → Source
  | .slot index => plan.locals.getD index .unknown
  | .word index => plan.stack.getD index .unknown

/-- What a frame made by a plan knows of a place comes from the source of the place. -/
theorem read_apply
    (plan : Plan)
    (frame : Frame)
    (place : Place) :
    (plan.apply frame).read place = (plan.source place).value frame := by
  cases place with
  | slot index =>
      simp only [apply, read, source, List.getD_eq_getElem?_getD,
        List.getElem?_map]
      cases plan.locals[index]? <;> rfl
  | word index =>
      simp only [apply, read, source, List.getD_eq_getElem?_getD,
        List.getElem?_map]
      cases plan.stack[index]? <;> rfl

/-- All frames made by one plan have one shape. -/
theorem apply_shape
    (plan : Plan)
    (first second : Frame) :
    SameShape (plan.apply first) (plan.apply second) := by
  constructor <;> simp [apply]

/-- A plan keeps the order of frames. -/
theorem apply_below
    (plan : Plan)
    {lower upper : Frame}
    (below : Below lower upper) :
    Below (plan.apply lower) (plan.apply upper) := by
  refine ⟨plan.apply_shape lower upper, ?_⟩
  intro place text known
  rw [read_apply] at known ⊢
  exact Source.value_below below known

end Plan

/-- A move keeps the number of slots. -/
theorem Move.plan_locals_length
    {move : Move}
    {locals depth : Nat}
    {plan : Plan}
    (planned : move.plan locals depth = .ok plan) :
    plan.locals.length = locals := by
  cases move <;>
    simp only [Move.plan] at planned <;>
    split at planned <;>
    try split at planned
  all_goals
    cases planned <;> simp [slots, words]
  all_goals omega

end Frame

open KeyAudit.Frame

/-- A fault of an instruction: its descriptor is malformed, or a word or a slot is missing. -/
inductive StepFault.OfInstruction : StepFault → Prop where
  | descriptor (fault : DescriptorFault) :
      OfInstruction (.descriptor fault)
  | underflow (needed available : Nat) :
      OfInstruction (.analysis (.underflow needed available))
  | slotOutOfRange (slot : Int) (available : Nat) :
      OfInstruction (.analysis (.slotOutOfRange slot available))

/-- The plan of an instruction for frames of one shape. -/
def Instruction.plan
    (instruction : Instruction)
    (locals depth : Nat) :
    Except StepFault Plan := do
  let move ← typed instruction.move
  checked (move.plan locals depth)

/-- The plan of an instruction is the plan of its move. -/
theorem Instruction.plan_eq_ok
    {instruction : Instruction}
    {locals depth : Nat}
    {plan : Plan} :
    instruction.plan locals depth = .ok plan ↔
      ∃ move,
        instruction.move = .ok move ∧
          move.plan locals depth = .ok plan := by
  simp [Instruction.plan, Outcome.bind_eq_ok, typed,
    MethodFrames.checked_eq_ok]

namespace Frame

/-- An instruction has an effect on a frame when it has a plan for its shape. -/
theorem after_eq_ok
    {instruction : Instruction}
    {frame next : Frame} :
    frame.after instruction = .ok next ↔
      ∃ plan,
        instruction.plan frame.locals.length frame.stack.length = .ok plan ∧
          plan.apply frame = next := by
  simp only [after_eq_perform, Outcome.bind_eq_ok,
    MethodFrames.checked_eq_ok, Move.perform, Outcome.map_eq_ok,
    Instruction.plan_eq_ok, typed, Outcome.mapError_eq_ok]
  constructor
  · rintro ⟨move, moved, plan, planned, made⟩
    exact ⟨plan, ⟨move, moved, planned⟩, made⟩
  · rintro ⟨plan, ⟨move, moved, planned⟩, made⟩
    exact ⟨move, moved, plan, planned, made⟩

/-- An instruction keeps the number of slots. -/
theorem after_locals_length
    {instruction : Instruction}
    {frame next : Frame}
    (stepped : frame.after instruction = .ok next) :
    next.locals.length = frame.locals.length := by
  obtain ⟨plan, planned, rfl⟩ := after_eq_ok.mp stepped
  obtain ⟨move, _, moved⟩ := Instruction.plan_eq_ok.mp planned
  simpa [Plan.apply] using Move.plan_locals_length moved

/-- A move fails only where a word or a slot is missing. -/
theorem Move.plan_fails
    (move : Move)
    (locals depth : Nat) :
    Outcome.FailsOnly (fun fault => StepFault.OfInstruction (.analysis fault))
      (move.plan locals depth) := by
  have guarded
      {condition : Prop}
      [Decidable condition]
      {fault : AnalysisFault}
      (ofInstruction : StepFault.OfInstruction (.analysis fault))
      {result : Except AnalysisFault Plan}
      (later :
        Outcome.FailsOnly
          (fun fault => StepFault.OfInstruction (.analysis fault)) result) :
      Outcome.FailsOnly
        (fun fault => StepFault.OfInstruction (.analysis fault))
        (if condition then .error fault else result) := by
    split
    · exact .fault ofInstruction
    · exact later
  cases move with
  | restack takes gives =>
      exact guarded (.underflow _ _) (.value _)
  | load slot count =>
      exact guarded (.slotOutOfRange _ _) (.value _)
  | store slot count =>
      exact guarded (.underflow _ _)
        (guarded (.slotOutOfRange _ _) (.value _))
  | forget slot =>
      exact guarded (.slotOutOfRange _ _) (.value _)
  | inspect slot =>
      exact guarded (.slotOutOfRange _ _) (.value _)

/-- An instruction fails only by its descriptor or where a word or a slot is missing. -/
theorem after_fails
    (instruction : Instruction)
    (frame : Frame) :
    Outcome.FailsOnly StepFault.OfInstruction (frame.after instruction) := by
  rw [after_eq_perform]
  refine Outcome.FailsOnly.bind ?_ fun {move} _ => ?_
  · exact (Outcome.FailsOnly.any instruction.move).mapError
      fun {fault} _ => .descriptor fault
  · exact (Outcome.FailsOnly.map (move.plan_fails _ _) _).mapError
      fun ofInstruction => ofInstruction

/-- An instruction has an effect on every frame below one on which it has an effect. -/
theorem after_below
    {instruction : Instruction}
    {lower upper upperNext : Frame}
    (below : Below lower upper)
    (stepped : upper.after instruction = .ok upperNext) :
    ∃ lowerNext,
      lower.after instruction = .ok lowerNext ∧
        Below lowerNext upperNext := by
  obtain ⟨plan, planned, rfl⟩ := after_eq_ok.mp stepped
  refine ⟨plan.apply lower, after_eq_ok.mpr ⟨plan, ?_, rfl⟩,
    plan.apply_below below⟩
  rw [below.shape.locals, below.shape.stack]
  exact planned

/-- At a handler a slot is known when it is known before and after the instruction. -/
theorem read_slot_atHandler
    (before after : Frame)
    (index : Nat) :
    (atHandler before after).read (.slot index) =
      Value.join
        (before.read (.slot index))
        (after.read (.slot index)) :=
  getD_joinAll before.locals after.locals index

/-- At a handler nothing is known of the stack. -/
theorem read_word_atHandler
    (before after : Frame)
    (index : Nat) :
    (atHandler before after).read (.word index) = .unknown := by
  cases index with
  | zero =>
      rfl
  | succ index =>
      rfl

/-- What is known of a place at a handler is known of a slot before and after. -/
theorem atHandler_eq_literal
    {before after : Frame}
    {place : Place}
    {text : Text} :
    (atHandler before after).read place = .literal text ↔
      ∃ index,
        place = .slot index ∧
          before.read (.slot index) = .literal text ∧
            after.read (.slot index) = .literal text := by
  cases place with
  | slot index =>
      rw [read_slot_atHandler, Value.join_eq_literal]
      simp
  | word index =>
      rw [read_word_atHandler]
      simp

/-- Frames at handlers are in the order of the frames that they come from. -/
theorem atHandler_below
    {lower upper lowerAfter upperAfter : Frame}
    (below : Below lower upper)
    (afterBelow : Below lowerAfter upperAfter) :
    Below (atHandler lower lowerAfter) (atHandler upper upperAfter) := by
  refine ⟨⟨?_, rfl⟩, ?_⟩
  · simp [atHandler, Value.joinAll, below.shape.locals,
      afterBelow.shape.locals]
  · intro place text known
    rw [atHandler_eq_literal] at known ⊢
    obtain ⟨index, isSlot, knownBefore, knownAfter⟩ := known
    exact
      ⟨index, isSlot, below.literal knownBefore,
        afterBelow.literal knownAfter⟩

end Frame

namespace MethodFrames

/-- A node with an instruction changes a frame as the instruction does. -/
theorem transfer_some_eq_ok
    {instructions : List Instruction}
    {index : Nat}
    {instruction : Instruction}
    (present : instructions[index]? = some instruction)
    {frame : Frame}
    {result : Option Frame} :
    transfer instructions index (some frame) = .ok result ↔
      ∃ next, frame.after instruction = .ok next ∧ some next = result := by
  simp only [transfer, present, Outcome.map_eq_ok]

/-- A node changes every fact below one that it changes, and keeps the order. -/
theorem transfer_below
    {instructions : List Instruction}
    {index : Nat}
    {lower upper upperAfter : Option Frame}
    (below : lattice.Below lower upper)
    (transferred : transfer instructions index upper = .ok upperAfter) :
    ∃ lowerAfter,
      transfer instructions index lower = .ok lowerAfter ∧
        lattice.Below lowerAfter upperAfter := by
  cases lower with
  | none =>
      exact ⟨none, rfl, none_below upperAfter⟩
  | some lowerFrame =>
      obtain ⟨upperFrame, rfl, frameBelow⟩ := below_some_iff.mp below
      cases present : instructions[index]? with
      | none =>
          refine ⟨none, ?_, none_below upperAfter⟩
          simp [transfer, present]
      | some instruction =>
          obtain ⟨upperNext, stepped, rfl⟩ :=
            (transfer_some_eq_ok present).mp transferred
          obtain ⟨lowerNext, lowerStepped, nextBelow⟩ :=
            after_below frameBelow stepped
          exact
            ⟨some lowerNext,
              (transfer_some_eq_ok present).mpr
                ⟨lowerNext, lowerStepped, rfl⟩,
              below_some_iff.mpr ⟨upperNext, rfl, nextBelow⟩⟩

/-- An edge carries greater facts from greater facts. -/
theorem carry_below
    {edge : Edge}
    {lower upper lowerAfter upperAfter : Option Frame}
    (below : lattice.Below lower upper)
    (afterBelow : lattice.Below lowerAfter upperAfter) :
    lattice.Below
      (carry edge lower lowerAfter)
      (carry edge upper upperAfter) := by
  cases lower with
  | none =>
      exact none_below _
  | some lowerFrame =>
      obtain ⟨upperFrame, rfl, frameBelow⟩ := below_some_iff.mp below
      cases lowerAfter with
      | none =>
          exact none_below _
      | some lowerNext =>
          obtain ⟨upperNext, rfl, nextBelow⟩ :=
            below_some_iff.mp afterBelow
          unfold carry
          cases edge.kind.isException with
          | true =>
              exact below_some_iff.mpr
                ⟨_, rfl, atHandler_below frameBelow nextBelow⟩
          | false =>
              exact below_some_iff.mpr ⟨_, rfl, nextBelow⟩

end MethodFrames

end KeyAudit
