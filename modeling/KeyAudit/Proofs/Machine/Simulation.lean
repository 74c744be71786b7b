import KeyAudit.Proofs.Frame.Arrivals
import KeyAudit.Proofs.Frame.Moves
import KeyAudit.Proofs.Machine.Agreement

namespace KeyAudit.Machine

/-!
# Executions and frames

A frame tells of each word whether it is the reference to a literal.  What an
instruction makes of a memory is told by what it makes of the frame of the
memory, and everything that the frame leaves open can come about.  So the
executions of the machine arrive at an instruction exactly with what the computed
frame has in common with all of them.
-/

open KeyAudit.Frame KeyAudit.MethodFrames

/-- What a frame tells of a word. -/
def Word.value : Word → Value
  | .literal text => .literal text
  | .other _ => .unknown

/-- The frame that tells of each word whether it is a literal. -/
def Memory.frame (memory : Memory) : Frame :=
  ⟨memory.locals.map Word.value, memory.stack.map Word.value⟩

theorem Word.value_eq_literal
    {word : Word}
    {text : Text} :
    word.value = .literal text ↔ word = .literal text := by
  cases word <;> simp [Word.value]

/-- A rearrangement picks words by their positions. -/
theorem turns_iff
    {kind : Shuffle}
    {top changed : List Word} :
    kind.Turns top changed ↔
      top.length = kind.rearrangement.1 ∧
        changed =
          kind.rearrangement.2.map fun position =>
            top.getD position (.other 0) := by
  constructor
  · intro turns
    cases turns <;> exact ⟨rfl, rfl⟩
  · rintro ⟨count, rfl⟩
    cases kind with
    | pop | dup =>
        obtain ⟨first, rfl⟩ := List.length_eq_one_iff.mp count
        constructor
    | pop2 | dupX1 | dup2 | swap =>
        obtain ⟨second, first, rfl⟩ := List.length_eq_two.mp count
        constructor
    | dupX2 | dup2X1 =>
        obtain ⟨third, second, first, rfl⟩ := List.length_eq_three.mp count
        constructor
    | dup2X2 =>
        match top, count with
        | [fourth, third, second, first], _ => constructor

/-- The values of rearranged words are the rearranged values. -/
theorem value_of_rearrangement
    (kind : Shuffle)
    (top : List Word) :
    ((kind.rearrangement.2.filter fun position =>
          position < kind.rearrangement.1).map Given.taken).map
        (Given.value (top.map Word.value)) =
      (kind.rearrangement.2.map fun position =>
          top.getD position (.other 0)).map Word.value := by
  have inRange :
      ∀ position ∈ kind.rearrangement.2,
        decide (position < kind.rearrangement.1) = true := by
    cases kind <;> decide
  rw [List.filter_eq_self.mpr inRange, List.map_map, List.map_map]
  apply List.map_congr_left
  intro position _
  simp only [Function.comp_apply, Given.value, List.getD_eq_getElem?_getD,
    List.getElem?_map]
  cases top[position]? <;> rfl

section Effects

theorem below_unknown_words
    (locals below : List Value)
    {given : List Value}
    {count : Nat}
    (width : given.length = count) :
    Below
      ⟨locals, below ++ given⟩
      ⟨locals, below ++ List.replicate count .unknown⟩ := by
  refine ⟨⟨rfl, by simp [width]⟩, ?_⟩
  intro place text known
  cases place with
  | slot index =>
      exact known
  | word index =>
      rw [read_word_eq_literal, List.getElem?_append] at known ⊢
      split
      · rename_i inBelow
        rwa [if_pos inBelow] at known
      · rename_i aboveBelow
        rw [if_neg aboveBelow, List.getElem?_replicate] at known
        split at known <;> cases known

theorem below_unknown_slot
    (lower upper stack : List Value)
    (value : Value) :
    Below
      ⟨lower ++ value :: upper, stack⟩
      ⟨lower ++ .unknown :: upper, stack⟩ := by
  refine ⟨⟨by simp, rfl⟩, ?_⟩
  intro place text known
  cases place with
  | word index =>
      exact known
  | slot index =>
      rw [read_slot_eq_literal, List.getElem?_append] at known ⊢
      split
      · rename_i inLower
        rwa [if_pos inLower] at known
      · rename_i behindLower
        rw [if_neg behindLower] at known
        cases position : index - lower.length with
        | zero =>
            rw [position] at known
            cases known
        | succ later =>
            rw [position] at known
            exact known

/-- What an action makes of a memory is below what its move makes of the frame. -/
theorem Action.Effect.below
    {action : Action}
    {before after : Memory}
    (effect : action.Effect before after) :
    ∃ next,
      action.move.perform before.frame = .ok next ∧
        Below after.frame next := by
  cases effect with
  | literal locals stack text =>
      refine ⟨_, Move.restack_eq_ok.mpr
        ⟨stack.map Word.value, [], by simp [Memory.frame], rfl, rfl⟩, ?_⟩
      simp only [Memory.frame, List.map_append]
      exact .refl _
  | exchange locals below takenWords givenWords =>
      rename_i taken given takes gives
      refine ⟨_, Move.restack_eq_ok.mpr
        ⟨below.map Word.value, taken.map Word.value,
          by simp [Memory.frame], by simpa using takenWords, rfl⟩, ?_⟩
      simp only [Memory.frame, List.map_append, List.map_replicate]
      exact below_unknown_words _ _ (by simpa using givenWords)
  | load upper stack atSlot valueWords =>
      rename_i lower value slot type
      refine ⟨_, Move.load_eq_ok.mpr
        ⟨lower.map Word.value, value.map Word.value, upper.map Word.value,
          by simp [Memory.frame], by simpa using atSlot,
          by simpa using valueWords, rfl⟩, ?_⟩
      simp only [Memory.frame, List.map_append]
      exact .refl _
  | store upper below atSlot oldWords valueWords =>
      rename_i lower old value slot type
      refine ⟨_, Move.store_eq_ok.mpr
        ⟨lower.map Word.value, old.map Word.value, upper.map Word.value,
          below.map Word.value, value.map Word.value,
          by simp [Memory.frame], by simpa using atSlot,
          by simpa using oldWords, by simp [Memory.frame],
          by simpa using valueWords, rfl⟩, ?_⟩
      simp only [Memory.frame, List.map_append]
      exact .refl _
  | increment old new upper stack atSlot =>
      rename_i lower slot
      refine ⟨_, Move.forget_eq_ok.mpr
        ⟨lower.map Word.value, old.value, upper.map Word.value,
          by simp [Memory.frame], by simpa using atSlot, rfl⟩, ?_⟩
      simp only [Memory.frame, List.map_append, List.map_cons]
      exact below_unknown_slot ..
  | inspect address upper stack atSlot =>
      rename_i lower slot
      refine ⟨_, Move.inspect_eq_ok.mpr
        ⟨lower.map Word.value, address.value, upper.map Word.value,
          by simp [Memory.frame], by simpa using atSlot, rfl⟩, ?_⟩
      exact .refl _
  | shuffle locals below turns =>
      rename_i kind top changed
      obtain ⟨count, rfl⟩ := turns_iff.mp turns
      refine ⟨_, Move.restack_eq_ok.mpr
        ⟨below.map Word.value, top.map Word.value,
          by simp [Memory.frame], by simpa using count, rfl⟩, ?_⟩
      rw [value_of_rearrangement]
      simp only [Memory.frame, List.map_append]
      exact .refl _

/-- Everything that a move makes of a frame can come about by its action. -/
theorem Action.exists_effect
    {action : Action}
    {before : Memory}
    {next : Frame}
    (performed : action.move.perform before.frame = .ok next) :
    ∃ after, action.Effect before after ∧ after.frame = next := by
  obtain ⟨locals, stack⟩ := before
  cases action with
  | literal text =>
      obtain ⟨below, taken, shape, none, rfl⟩ :=
        Move.restack_eq_ok.mp performed
      obtain rfl := List.length_eq_zero_iff.mp none
      rw [List.append_nil] at shape
      refine ⟨_, .literal locals stack text, ?_⟩
      simp [Memory.frame, ← shape, Given.value, Word.value]
  | exchange takes gives =>
      obtain ⟨_, _, shape, count, rfl⟩ :=
        Move.restack_eq_ok.mp performed
      obtain ⟨below, taken, rfl, rfl, rfl⟩ :=
        List.map_eq_append_iff.mp shape
      rw [List.length_map] at count
      refine
        ⟨_, .exchange locals below count
          (List.length_replicate (a := Word.other 0)), ?_⟩
      simp [Memory.frame, Given.value, Word.value]
  | load slot type =>
      obtain ⟨_, _, _, shape, atSlot, width, rfl⟩ :=
        Move.load_eq_ok.mp performed
      obtain ⟨lowerValue, upper, rfl, lowerShape, rfl⟩ :=
        List.map_eq_append_iff.mp shape
      obtain ⟨lower, value, rfl, rfl, rfl⟩ :=
        List.map_eq_append_iff.mp lowerShape
      rw [List.length_map] at atSlot width
      refine ⟨_, .load upper stack atSlot width, ?_⟩
      simp [Memory.frame]
  | store slot type =>
      obtain ⟨_, _, _, _, _, shape, atSlot, oldWidth, stackShape, width,
        rfl⟩ := Move.store_eq_ok.mp performed
      obtain ⟨lowerOld, upper, rfl, lowerShape, rfl⟩ :=
        List.map_eq_append_iff.mp shape
      obtain ⟨lower, old, rfl, rfl, rfl⟩ :=
        List.map_eq_append_iff.mp lowerShape
      obtain ⟨below, value, rfl, rfl, rfl⟩ :=
        List.map_eq_append_iff.mp stackShape
      rw [List.length_map] at atSlot oldWidth width
      refine ⟨_, .store upper below atSlot oldWidth width, ?_⟩
      simp [Memory.frame]
  | increment slot =>
      obtain ⟨_, _, _, shape, atSlot, rfl⟩ :=
        Move.forget_eq_ok.mp performed
      obtain ⟨lower, oldUpper, rfl, rfl, upperShape⟩ :=
        List.map_eq_append_iff.mp shape
      obtain ⟨old, upper, rfl, rfl, rfl⟩ :=
        List.map_eq_cons_iff.mp upperShape
      rw [List.length_map] at atSlot
      refine ⟨_, .increment old (.other 0) upper stack atSlot, ?_⟩
      simp [Memory.frame, Word.value]
  | inspect slot =>
      obtain ⟨_, _, _, shape, atSlot, rfl⟩ :=
        Move.inspect_eq_ok.mp performed
      obtain ⟨lower, addressUpper, rfl, rfl, upperShape⟩ :=
        List.map_eq_append_iff.mp shape
      obtain ⟨address, upper, rfl, rfl, rfl⟩ :=
        List.map_eq_cons_iff.mp upperShape
      rw [List.length_map] at atSlot
      exact ⟨_, .inspect address upper stack atSlot, rfl⟩
  | shuffle kind =>
      obtain ⟨_, _, shape, count, rfl⟩ :=
        Move.restack_eq_ok.mp performed
      obtain ⟨below, top, rfl, rfl, rfl⟩ :=
        List.map_eq_append_iff.mp shape
      rw [List.length_map] at count
      refine
        ⟨_, .shuffle locals below (turns_iff.mpr ⟨count, rfl⟩), ?_⟩
      rw [value_of_rearrangement]
      simp [Memory.frame]

/-- An instruction has an effect on a frame when its action can be performed. -/
theorem after_eq_ok_iff
    {instruction : Instruction}
    (fits : instruction.Fits)
    {frame next : Frame} :
    frame.after instruction = .ok next ↔
      ∃ action,
        action? instruction = some action ∧
          action.move.perform frame = .ok next := by
  have moves
      (move : Move) :
      instruction.move = .ok move ↔
        ∃ action,
          action? instruction = some action ∧ action.move = move := by
    rw [← Option.map_eq_some_iff, ← move_toOption fits]
    cases instruction.move <;> simp [Except.toOption]
  simp only [after_eq_perform, Outcome.bind_eq_ok, typed,
    Outcome.mapError_eq_ok, checked_eq_ok, moves]
  constructor
  · rintro ⟨_, ⟨action, acts, rfl⟩, performed⟩
    exact ⟨action, acts, performed⟩
  · rintro ⟨action, acts, performed⟩
    exact ⟨_, ⟨action, acts, rfl⟩, performed⟩

theorem Runs.below
    {instruction : Instruction}
    (fits : instruction.Fits)
    {before after : Memory}
    (runs : Runs instruction before after)
    {next : Frame}
    (stepped : before.frame.after instruction = .ok next) :
    Below after.frame next := by
  obtain ⟨action, acts, effect⟩ := runs
  obtain ⟨other, performed, below⟩ := effect.below
  have otherStepped :=
    (after_eq_ok_iff fits).mpr ⟨action, acts, performed⟩
  cases stepped.symm.trans otherStepped
  exact below

theorem exists_runs
    {instruction : Instruction}
    (fits : instruction.Fits)
    {before : Memory}
    {next : Frame}
    (stepped : before.frame.after instruction = .ok next) :
    ∃ after, Runs instruction before after ∧ after.frame = next := by
  obtain ⟨action, acts, performed⟩ := (after_eq_ok_iff fits).mp stepped
  obtain ⟨after, effect, same⟩ := Action.exists_effect performed
  exact ⟨after, ⟨action, acts, effect⟩, same⟩

end Effects

end KeyAudit.Machine
