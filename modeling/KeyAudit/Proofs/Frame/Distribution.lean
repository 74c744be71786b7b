import KeyAudit.Proofs.Frame.Effect

namespace KeyAudit

/-!
# Effects of instructions and joins of frames

Frames of one shape have one plan, so an instruction has an effect on all of them
or fails on all of them in the same way.  A plan only moves values, so it makes no
difference whether frames are joined before or after the instruction.  The same
holds of the frames at a handler.
-/

namespace Frame

/-- Joining in rows and then in columns is joining in columns and then in rows. -/
theorem join_join_join
    (first second third fourth : Value) :
    Value.join (Value.join first second) (Value.join third fourth) =
      Value.join (Value.join first third) (Value.join second fourth) := by
  apply Value.eq_of_literals
  intro text
  simp only [Value.join_eq_literal]
  exact and_and_and_comm

/-- A source gives a join of frames the join of what it gives the frames. -/
theorem Source.value_joined
    (source : Source)
    (first second : Frame) :
    source.value (joined first second) =
      Value.join (source.value first) (source.value second) := by
  cases source with
  | literal text =>
      simp [Source.value, Value.join]
  | unknown =>
      simp [Source.value, Value.join]
  | copy place =>
      exact read_joined first second place

/-- A plan makes of a join of frames the join of what it makes of the frames. -/
theorem Plan.apply_joined
    (plan : Plan)
    (first second : Frame) :
    plan.apply (joined first second) =
      joined (plan.apply first) (plan.apply second) := by
  have shape :
      SameShape
        (plan.apply (joined first second))
        (joined (plan.apply first) (plan.apply second)) :=
    (plan.apply_shape _ first).trans
      (joined_shape (plan.apply_shape first second))
  apply shape.ext
  intro place
  rw [read_joined, plan.read_apply, plan.read_apply, plan.read_apply,
    Source.value_joined]

/-- The effect of an instruction on a frame is its plan for the shape of the frame. -/
theorem after_eq_plan
    (instruction : Instruction)
    (frame : Frame) :
    frame.after instruction =
      (instruction.plan frame.locals.length frame.stack.length).map
        fun plan => plan.apply frame := by
  rw [after_eq_perform, Instruction.plan]
  cases instruction.move with
  | error fault =>
      rfl
  | ok move =>
      change checked (move.perform frame) =
        (checked (move.plan frame.locals.length frame.stack.length)).map _
      unfold Move.perform
      cases move.plan frame.locals.length frame.stack.length <;> rfl

/-- All frames of one shape fail with one fault or are changed by one plan. -/
theorem after_cases
    (instruction : Instruction)
    (frame : Frame) :
    (∃ fault,
        ∀ {other},
          SameShape frame other → other.after instruction = .error fault) ∨
      ∃ plan : Plan,
        ∀ {other},
          SameShape frame other →
            other.after instruction = .ok (plan.apply other) := by
  have ofShape
      {other : Frame}
      (shape : SameShape frame other) :
      other.after instruction =
        (instruction.plan frame.locals.length frame.stack.length).map
          fun plan => plan.apply other := by
    rw [after_eq_plan, shape.locals, shape.stack]
  cases planned :
      instruction.plan frame.locals.length frame.stack.length with
  | error fault =>
      refine Or.inl ⟨fault, fun shape => ?_⟩
      rw [ofShape shape, planned]
      rfl
  | ok plan =>
      refine Or.inr ⟨plan, fun shape => ?_⟩
      rw [ofShape shape, planned]
      rfl

/-- Frames at a handler have one shape when the frames that they come from do. -/
theorem atHandler_shape
    {first second firstAfter secondAfter : Frame}
    (shape : SameShape first second)
    (afterShape : SameShape firstAfter secondAfter) :
    SameShape (atHandler first firstAfter) (atHandler second secondAfter) := by
  constructor
  · simp [atHandler, Value.joinAll, shape.locals, afterShape.locals]
  · rfl

/-- The frame at a handler of joined frames is the join of the frames at the handler. -/
theorem atHandler_joined
    {first second firstAfter secondAfter : Frame}
    (shape : SameShape first second)
    (afterShape : SameShape firstAfter secondAfter) :
    atHandler (joined first second) (joined firstAfter secondAfter) =
      joined (atHandler first firstAfter) (atHandler second secondAfter) := by
  have sameShape :
      SameShape
        (atHandler (joined first second) (joined firstAfter secondAfter))
        (joined (atHandler first firstAfter) (atHandler second secondAfter)) :=
    (atHandler_shape (joined_shape shape) (joined_shape afterShape)).symm.trans
      (joined_shape (atHandler_shape shape afterShape))
  apply sameShape.ext
  intro place
  rw [read_joined]
  cases place with
  | slot index =>
      rw [read_slot_atHandler, read_slot_atHandler, read_slot_atHandler,
        read_joined, read_joined, join_join_join]
  | word index =>
      rw [read_word_atHandler, read_word_atHandler, read_word_atHandler]
      rfl

/--
An instruction has the same fault on all frames of one shape, or it changes all
of them to frames of one shape with as many slots.  Then it changes their join to
the join of the changed frames, and it keeps their order.  The frame at a handler
of joined frames is the join of the frames at the handler.
-/
theorem after_distributes_over_join
    (instruction : Instruction)
    {first second : Frame}
    (shape : SameShape first second) :
    ∃ both,
      first.join second = .ok both ∧
        ((∃ fault,
            first.after instruction = .error fault ∧
              second.after instruction = .error fault ∧
                both.after instruction = .error fault) ∨
          ∃ firstNext secondNext bothNext,
            first.after instruction = .ok firstNext ∧
              second.after instruction = .ok secondNext ∧
                both.after instruction = .ok bothNext ∧
                  SameShape firstNext secondNext ∧
                    firstNext.locals.length = first.locals.length ∧
                      firstNext.join secondNext = .ok bothNext ∧
                        (factLe (some first) (some second) = .ok true →
                          factLe (some firstNext) (some secondNext) =
                            .ok true)) ∧
          ∀ {firstAfter secondAfter},
            SameShape firstAfter secondAfter →
              ∃ bothAfter,
                firstAfter.join secondAfter = .ok bothAfter ∧
                  (atHandler first firstAfter).join
                      (atHandler second secondAfter) =
                    .ok (atHandler both bothAfter) := by
  have sameAsBoth := joined_shape shape
  refine ⟨joined first second, join_eq_ok.mpr ⟨shape, rfl⟩, ?_, ?_⟩
  · rcases after_cases instruction first with
      ⟨fault, fails⟩ | ⟨plan, steps⟩
    · exact Or.inl
        ⟨fault, fails (.refl first), fails shape, fails sameAsBoth⟩
    · have firstSteps := steps (.refl first)
      refine Or.inr
        ⟨plan.apply first, plan.apply second,
          plan.apply (joined first second), firstSteps, steps shape,
          steps sameAsBoth, plan.apply_shape first second,
          after_locals_length firstSteps, ?_, ?_⟩
      · exact join_eq_ok.mpr
          ⟨plan.apply_shape first second, plan.apply_joined first second⟩
      · rw [factLe_iff_below, factLe_iff_below]
        exact plan.apply_below
  · intro firstAfter secondAfter afterShape
    refine
      ⟨joined firstAfter secondAfter,
        join_eq_ok.mpr ⟨afterShape, rfl⟩, ?_⟩
    rw [atHandler_joined shape afterShape]
    exact join_eq_ok.mpr ⟨atHandler_shape shape afterShape, rfl⟩

/-- Copy the upper of two words below the lower one. -/
def copyBelow : Instruction :=
  ⟨0, 0, 1, ⟨0x5A, "dup_x1", .stack, .none, none, none, 1⟩, .none, false⟩

/-- A frame with two literals on the stack. -/
def twoLiterals : Frame :=
  ⟨[.literal "slot"], [.literal "lower", .literal "upper"]⟩

/-- A frame of the same shape that knows less of the stack and other things of its slot. -/
def oneLiteral : Frame :=
  ⟨[.literal "other"], [.literal "lower", .unknown]⟩

/-- What both frames know of a word is known of its copies, whenever they are joined. -/
theorem after_distributes_over_join_copyBelow :
    SameShape twoLiterals oneLiteral ∧
      ∃ both firstNext secondNext bothNext,
        twoLiterals.join oneLiteral = .ok both ∧
          twoLiterals.after copyBelow = .ok firstNext ∧
            oneLiteral.after copyBelow = .ok secondNext ∧
              both.after copyBelow = .ok bothNext ∧
                firstNext.join secondNext = .ok bothNext ∧
                  bothNext =
                    ⟨[.unknown], [.unknown, .literal "lower", .unknown]⟩ := by
  have shape : SameShape twoLiterals oneLiteral := ⟨rfl, rfl⟩
  obtain ⟨both, joins, effects, _⟩ :=
    after_distributes_over_join copyBelow shape
  rcases effects with
    ⟨fault, fails, _⟩ |
    ⟨firstNext, secondNext, bothNext, firstSteps, secondSteps, bothSteps, _, _,
      nextJoins, _⟩
  · cases fails
  · cases firstSteps
    cases secondSteps
    refine
      ⟨shape, both, _, _, bothNext, joins, rfl, rfl, bothSteps, nextJoins, ?_⟩
    exact Except.ok.inj (nextJoins.symm.trans rfl)

end Frame

end KeyAudit
