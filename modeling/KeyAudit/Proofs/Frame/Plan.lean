import KeyAudit.Proofs.Frame.Order

namespace KeyAudit

/-!
# Where the words of a frame come from

The effect of an instruction on a frame depends only on the shape of the frame.
For each shape there is a plan that names, for every place after the
instruction, where its value comes from: a literal, nothing that is known, or
one place before the instruction.  All properties of effects follow from plans.
-/

namespace Frame

/-- Where a value after an instruction comes from. -/
inductive Source where
  | literal (text : Text)
  | unknown
  | copy (place : Place)
  deriving Repr, DecidableEq

/-- The value that comes from a source. -/
def Source.value (frame : Frame) : Source → Value
  | .literal text => .literal text
  | .unknown => .unknown
  | .copy place => frame.read place

/-- The sources of all slots and words after an instruction. -/
structure Plan where
  locals : List Source
  stack : List Source
  deriving Repr, DecidableEq

/-- The frame that a plan makes of another frame. -/
def Plan.apply (plan : Plan) (frame : Frame) : Frame :=
  ⟨plan.locals.map (Source.value frame), plan.stack.map (Source.value frame)⟩

/-- Copies of consecutive slots. -/
def slots (first count : Nat) : List Source :=
  (List.range' first count).map fun index => .copy (.slot index)

/-- Copies of consecutive words. -/
def words (first count : Nat) : List Source :=
  (List.range' first count).map fun index => .copy (.word index)

/-- Consecutive items of a list, looked up one by one. -/
private theorem map_getD_range'
    {items : List Value}
    {first count : Nat}
    (inside : first + count ≤ items.length) :
    (List.range' first count).map (fun index => items.getD index .unknown) =
      (items.drop first).take count := by
  apply List.ext_getElem
  · simp
    omega
  · intro index insideLeft insideRight
    have available : first + index < items.length := by
      simp at insideLeft
      omega
    simp [available]

/-- Copies of slots have the values of these slots. -/
theorem map_value_slots
    {frame : Frame}
    {first count : Nat}
    (inside : first + count ≤ frame.locals.length) :
    (slots first count).map (Source.value frame) =
      (frame.locals.drop first).take count := by
  rw [← map_getD_range' inside]
  simp [slots, Source.value, read]

/-- Copies of words have the values of these words. -/
theorem map_value_words
    {frame : Frame}
    {first count : Nat}
    (inside : first + count ≤ frame.stack.length) :
    (words first count).map (Source.value frame) =
      (frame.stack.drop first).take count := by
  rw [← map_getD_range' inside]
  simp [words, Source.value, read]

/-- Something that an instruction puts on the stack. -/
inductive Given where
  | literal (text : Text)
  | unknown
  /-- One of the words taken off before, counted from the deepest one. -/
  | taken (position : Nat)
  deriving Repr, DecidableEq

/-- The source of a given word when words above a height were taken. -/
def Given.source (height : Nat) : Given → Source
  | .literal text => .literal text
  | .unknown => .unknown
  | .taken position => .copy (.word (height + position))

/-- What an instruction does to the places of a frame. -/
inductive Move where
  /-- Take so many words off the stack and put others on it. -/
  | restack (takes : Nat) (gives : List Given)
  /-- Copy slots onto the stack. -/
  | load (slot count : Nat)
  /-- Move words into slots. -/
  | store (slot count : Nat)
  /-- Put a value into a slot of which nothing is known. -/
  | forget (slot : Nat)
  /-- Require a slot. -/
  | inspect (slot : Nat)
  deriving Repr, DecidableEq

namespace Move

/-- Take words off the stack and put unknown ones on it. -/
def exchange (pops pushes : Nat) : Move :=
  .restack pops (List.replicate pushes .unknown)

/-- The move of an access to a field, by the opcode and the type of the field. -/
def ofField (code : Nat) (type : FieldType) : Move :=
  match code with
  | 0xB2 => .exchange 0 type.words
  | 0xB3 => .exchange type.words 0
  | 0xB4 => .exchange 1 type.words
  | _ => .exchange (1 + type.words) 0

/-- The move of a call, by the words of its receiver and the type of the method. -/
def ofCall (receiver : Nat) (type : MethodType) : Move :=
  .exchange (type.argumentWords + receiver) type.resultWords

/-- The move that rearranges the uppermost words of the stack. -/
def ofRearrangement (count : Nat) (kept : List Nat) : Move :=
  .restack count ((kept.filter fun position => position < count).map Given.taken)

/-- The plan of a move for frames of one shape, unless a place is missing. -/
def plan (locals depth : Nat) : Move → Except AnalysisFault Plan
  | .restack takes gives =>
      if depth < takes then
        .error (.underflow takes depth)
      else
        .ok ⟨slots 0 locals,
          words 0 (depth - takes) ++ gives.map (Given.source (depth - takes))⟩
  | .load slot count =>
      if locals < slot + count then
        .error (.slotOutOfRange slot locals)
      else
        .ok ⟨slots 0 locals, words 0 depth ++ slots slot count⟩
  | .store slot count =>
      if depth < count then
        .error (.underflow count depth)
      else if locals < slot + count then
        .error (.slotOutOfRange slot locals)
      else
        .ok ⟨slots 0 slot ++ words (depth - count) count ++
            slots (slot + count) (locals - (slot + count)),
          words 0 (depth - count)⟩
  | .forget slot =>
      if locals < slot + 1 then
        .error (.slotOutOfRange slot locals)
      else
        .ok ⟨slots 0 slot ++ [.unknown] ++ slots (slot + 1) (locals - (slot + 1)),
          words 0 depth⟩
  | .inspect slot =>
      if locals < slot + 1 then
        .error (.slotOutOfRange slot locals)
      else
        .ok ⟨slots 0 locals, words 0 depth⟩

/-- Make a move on a frame by the plan for its shape. -/
def perform (move : Move) (frame : Frame) : Except AnalysisFault Frame :=
  (move.plan frame.locals.length frame.stack.length).map fun plan => plan.apply frame

end Move

end Frame

namespace Instruction

open KeyAudit.Frame

/-- The move of an instruction, unless its descriptor is malformed. -/
def move (instruction : Instruction) : Except DescriptorFault Move :=
  let opcode := instruction.opcode
  let fixed := Move.exchange (opcode.pops.getD 0) (opcode.pushes.getD 0)
  match opcode.kind, instruction.operand with
  | .constant, .constant (.string text) => .ok (.restack 0 [.literal text])
  | .constant, .constant constant => .ok (.exchange 0 constant.words)
  | .load, _ => .ok (.load instruction.slot opcode.words)
  | .store, _ => .ok (.store instruction.slot opcode.words)
  | .increment, _ => .ok (.forget instruction.slot)
  | .callReturn, _ => .ok (.inspect instruction.slot)
  | .stack, _ =>
      match opcode.rearrangement? with
      | some (count, kept) => .ok (.ofRearrangement count kept)
      | none => .ok fixed
  | .field, .member member =>
      (FieldType.parse member.descriptor).map (Move.ofField opcode.code)
  | .invoke, .member member =>
      (MethodType.parse member.descriptor).map
        (Move.ofCall (if opcode.isStaticCall then 0 else 1))
  | _, .arrayClass _ dimensions => .ok (.exchange dimensions 1)
  | _, _ => .ok fixed

end Instruction

namespace Frame

/-- Copies of all slots are the slots of the frame. -/
theorem map_value_all_slots (frame : Frame) :
    (slots 0 frame.locals.length).map (Source.value frame) = frame.locals := by
  rw [map_value_slots (by omega)]
  simp

/-- Copies of all words are the words of the frame. -/
theorem map_value_all_words (frame : Frame) :
    (words 0 frame.stack.length).map (Source.value frame) = frame.stack := by
  rw [map_value_words (by omega)]
  simp

/-- Copies of the lowest words are the words left when the others are taken off. -/
theorem map_value_lower_words
    (frame : Frame)
    (count : Nat) :
    (words 0 (frame.stack.length - count)).map (Source.value frame) =
      frame.stack.take (frame.stack.length - count) := by
  rw [map_value_words (by omega)]
  simp

/-- Copies of the uppermost words are the words that can be taken off. -/
theorem map_value_upper_words
    {frame : Frame}
    {count : Nat}
    (enough : count ≤ frame.stack.length) :
    (words (frame.stack.length - count) count).map (Source.value frame) =
      frame.stack.drop (frame.stack.length - count) := by
  rw [map_value_words (by omega), List.take_of_length_le]
  simp
  omega

/-- Copies of the slots from one on are the rest of the slots. -/
theorem map_value_upper_slots
    {frame : Frame}
    {first : Nat}
    (inside : first ≤ frame.locals.length) :
    (slots first (frame.locals.length - first)).map (Source.value frame) =
      frame.locals.drop first := by
  rw [map_value_slots (by omega), List.take_of_length_le]
  simp

/-- Taking words off the stack and putting others on it is a move. -/
theorem pop_eq_restack
    (frame : Frame)
    (takes : Nat)
    (gives : List Given) :
    ((frame.pop takes).map fun popped =>
        popped.1.push (gives.map fun given =>
          (given.source (frame.stack.length - takes)).value frame)) =
      (Move.restack takes gives).perform frame := by
  unfold pop depth Move.perform
  by_cases missing : frame.stack.length < takes
  · simp [missing, Move.plan, Except.map]
  · simp [missing, Move.plan, Except.map, push, Plan.apply,
      map_value_all_slots, map_value_lower_words]

/-- Taking words off the stack and putting unknown ones on it is a move. -/
theorem exchange_eq_perform
    (frame : Frame)
    (pops pushes : Nat) :
    frame.exchange pops pushes =
      checked ((Move.exchange pops pushes).perform frame) := by
  unfold exchange Move.exchange
  rw [← pop_eq_restack]
  unfold drop
  cases frame.pop pops with
  | error fault =>
      rfl
  | ok popped =>
      simp [Except.map, pushUnknown, Given.source, Source.value]

/-- Putting words on the stack is a move. -/
theorem push_eq_perform
    (frame : Frame)
    (gives : List Given) :
    .ok (frame.push (gives.map fun given =>
        (given.source frame.stack.length).value frame)) =
      (Move.restack 0 gives).perform frame := by
  rw [← pop_eq_restack]
  simp [pop, depth, Except.map]

/-- Rearranging the top of the stack is a move. -/
theorem rearrange_eq_perform
    (frame : Frame)
    (count : Nat)
    (kept : List Nat) :
    frame.rearrange count kept =
      checked ((Move.ofRearrangement count kept).perform frame) := by
  unfold Move.ofRearrangement
  rw [← pop_eq_restack]
  unfold rearrange pop depth
  by_cases missing : frame.stack.length < count
  · simp [missing, checked, Except.map, Except.mapError, bind, Except.bind]
  · have lookup
        (position : Nat) :
        (frame.stack.drop (frame.stack.length - count))[position]? =
          if position < count then
            some ((Source.copy
              (.word (frame.stack.length - count + position))).value frame)
          else
            none := by
      rw [List.getElem?_drop]
      split
      · have inside :
            frame.stack.length - count + position < frame.stack.length := by
          omega
        simp [Source.value, read, inside]
      · simp
        omega
    simp only [missing, ↓reduceIte, checked, Except.map, Except.mapError,
      bind, Except.bind, pure, Except.pure, lookup, List.map_map]
    congr 2
    induction kept with
    | nil =>
        rfl
    | cons position rest inductionHypothesis =>
        by_cases inRange : position < count
        · simp [inRange, inductionHypothesis, Given.source]
        · simp [inRange, inductionHypothesis]

/-- Slots exist when the last one does. -/
theorem checkSlots_eq
    (frame : Frame)
    (slot count : Nat) :
    frame.checkSlots slot count =
      if frame.locals.length < slot + count then
        .error (.slotOutOfRange slot frame.locals.length)
      else
        .ok slot := by
  unfold checkSlots
  by_cases missing : frame.locals.length < slot + count
  · have outside :
        (slot : Int) < 0 ∨
          (frame.locals.length : Int) < (slot : Int) + (count : Int) := by
      omega
    rw [if_pos outside, if_pos missing]
  · have inside :
        ¬((slot : Int) < 0 ∨
          (frame.locals.length : Int) < (slot : Int) + (count : Int)) := by
      omega
    rw [if_neg inside, if_neg missing]
    simp

/-- Copying slots onto the stack is a move. -/
theorem load_eq_perform
    (frame : Frame)
    (slot count : Nat) :
    ((frame.load slot count).map fun words => frame.push words) =
      (Move.load slot count).perform frame := by
  unfold load Move.perform
  rw [checkSlots_eq]
  by_cases missing : frame.locals.length < slot + count
  · simp [missing, Move.plan, Except.map, bind, Except.bind]
  · have inside : slot + count ≤ frame.locals.length := by
      omega
    simp [missing, Move.plan, Except.map, bind, Except.bind, pure,
      Except.pure, push, Plan.apply, map_value_all_slots,
      map_value_all_words, map_value_slots inside]

/-- Requiring a slot is a move. -/
theorem inspect_eq_perform
    (frame : Frame)
    (slot : Nat) :
    ((frame.load slot 1).map fun _ => frame) =
      (Move.inspect slot).perform frame := by
  unfold load Move.perform
  rw [checkSlots_eq]
  by_cases missing : frame.locals.length < slot + 1
  · simp [missing, Move.plan, Except.map, bind, Except.bind]
  · simp [missing, Move.plan, Except.map, bind, Except.bind, pure,
      Except.pure, Plan.apply, map_value_all_slots,
      map_value_all_words]

/-- Putting an unknown value into a slot is a move. -/
theorem forget_eq_perform
    (frame : Frame)
    (slot : Nat) :
    frame.store slot [.unknown] = (Move.forget slot).perform frame := by
  unfold store Move.perform
  rw [List.length_singleton, checkSlots_eq]
  by_cases missing : frame.locals.length < slot + 1
  · simp [missing, Move.plan, Except.map, bind, Except.bind]
  · have before : 0 + slot ≤ frame.locals.length := by
      omega
    have inside : slot + 1 ≤ frame.locals.length := by
      omega
    simp [missing, Move.plan, Except.map, bind, Except.bind, pure,
      Except.pure, Plan.apply, map_value_all_words,
      map_value_slots before, map_value_upper_slots inside, Source.value]

/-- Moving words into slots is a move. -/
theorem store_eq_perform
    (frame : Frame)
    (slot count : Nat) :
    (frame.pop count >>= fun popped => popped.1.store slot popped.2) =
      (Move.store slot count).perform frame := by
  unfold pop depth Move.perform
  by_cases missing : frame.stack.length < count
  · simp [missing, Move.plan, Except.map, bind, Except.bind]
  · have taken :
        (frame.stack.drop (frame.stack.length - count)).length = count := by
      simp
      omega
    simp only [missing, ↓reduceIte, bind, Except.bind, store]
    rw [taken, checkSlots_eq]
    by_cases outside : frame.locals.length < slot + count
    · simp [missing, outside, Move.plan, Except.map]
    · have before : 0 + slot ≤ frame.locals.length := by
        omega
      have inside : slot + count ≤ frame.locals.length := by
        omega
      have enough : count ≤ frame.stack.length := by
        omega
      simp [missing, outside, Move.plan, Except.map, pure, Except.pure,
        Plan.apply, map_value_slots before, map_value_upper_slots inside,
        map_value_upper_words enough, map_value_lower_words]

/-- Accessing a field is a move once its descriptor is read. -/
theorem accessField_eq_perform
    (frame : Frame)
    (opcode : Opcode)
    (member : Member) :
    frame.accessField opcode member =
      (typed ((FieldType.parse member.descriptor).map
          (Move.ofField opcode.code)) >>= fun move =>
        checked (move.perform frame)) := by
  unfold accessField Move.ofField
  cases FieldType.parse member.descriptor with
  | error fault =>
      rfl
  | ok type =>
      simp only [typed, Except.map, Except.mapError, bind, Except.bind,
        exchange_eq_perform]
      split <;> simp_all

/-- Calling a method is a move once its descriptor is read. -/
theorem invoke_eq_perform
    (frame : Frame)
    (opcode : Opcode)
    (member : Member) :
    frame.invoke opcode member =
      (typed ((MethodType.parse member.descriptor).map
          (Move.ofCall (if opcode.isStaticCall then 0 else 1))) >>= fun move =>
        checked (move.perform frame)) := by
  unfold invoke Move.ofCall
  cases MethodType.parse member.descriptor with
  | error fault =>
      rfl
  | ok type =>
      exact exchange_eq_perform ..

/-- The effect of an instruction is the move of the instruction. -/
theorem after_eq_perform
    (instruction : Instruction)
    (frame : Frame) :
    frame.after instruction =
      (typed instruction.move >>= fun move =>
        checked (move.perform frame)) := by
  have made
      (move : Move) :
      ((typed (.ok move) : Except StepFault Move) >>= fun move =>
        checked (move.perform frame)) =
        checked (move.perform frame) :=
    rfl
  unfold after
  dsimp only
  split
  · rename_i text kind operand
    simp only [Instruction.move, kind, operand, made]
    rw [← push_eq_perform]
    rfl
  · rename_i constant notString kind operand
    have unknowns :
        frame.pushUnknown constant.words =
          frame.push
            ((List.replicate constant.words Given.unknown).map fun given =>
              (given.source frame.stack.length).value frame) := by
      simp [pushUnknown, Given.source, Source.value]
    simp only [Instruction.move, kind, operand, made, Move.exchange]
    rw [unknowns, ← push_eq_perform]
    rfl
  · rename_i kind
    simp only [Instruction.move, kind, made]
    rw [← load_eq_perform]
    cases frame.load instruction.slot instruction.opcode.words <;> rfl
  · rename_i kind
    simp only [Instruction.move, kind, made]
    rw [← store_eq_perform]
    cases frame.pop instruction.opcode.words <;> rfl
  · rename_i kind
    simp only [Instruction.move, kind, made]
    rw [← forget_eq_perform]
  · rename_i kind
    simp only [Instruction.move, kind, made]
    rw [← inspect_eq_perform]
    cases frame.load instruction.slot 1 <;> rfl
  · rename_i kind
    simp only [Instruction.move, kind]
    cases rearranged : instruction.opcode.rearrangement? with
    | none =>
        exact exchange_eq_perform ..
    | some rearrangement =>
        exact rearrange_eq_perform ..
  · rename_i member kind operand
    simp only [Instruction.move, kind, operand]
    exact accessField_eq_perform ..
  · rename_i member kind operand
    simp only [Instruction.move, kind, operand]
    exact invoke_eq_perform ..
  · -- In the last two cases the rows above are excluded one by one.
    rename_i name dimensions operand _ _ _ _ _
    have moves : instruction.move = .ok (.exchange dimensions 1) := by
      unfold Instruction.move
      dsimp only
      split <;> simp_all
    rw [moves, made]
    exact exchange_eq_perform ..
  · have moves :
        instruction.move =
          .ok (.exchange (instruction.opcode.pops.getD 0)
            (instruction.opcode.pushes.getD 0)) := by
      unfold Instruction.move
      dsimp only
      split <;> simp_all
    rw [moves, made]
    exact exchange_eq_perform ..

end Frame

end KeyAudit
