import KeyAudit.Proofs.Code.Edges
import KeyAudit.Proofs.Frame.Effect
import KeyAudit.Proofs.Machine.Basic

namespace KeyAudit.Machine

/-!
# The machine and the opcode table

Row by row the opcode table of the decoder agrees with the forms and the control
of the machine.  So the move by which the analysis changes a frame is that of the
action of the machine, and the edges of the flow are the successors of the
machine.
-/

open KeyAudit.Frame

/-- How many words a rearrangement takes, and which of them it puts back. -/
def Shuffle.rearrangement : Shuffle → Nat × List Nat
  | .pop => (1, [])
  | .pop2 => (2, [])
  | .dup => (1, [0, 0])
  | .dupX1 => (2, [1, 0, 1])
  | .dupX2 => (3, [2, 0, 1, 2])
  | .dup2 => (2, [0, 1, 0, 1])
  | .dup2X1 => (3, [1, 2, 0, 1, 2])
  | .dup2X2 => (4, [2, 3, 0, 1, 2, 3])
  | .swap => (2, [1, 0])

/-- The kinds of instructions that the analysis does not treat by their row alone. -/
def specialKinds : List InstructionKind :=
  [.load, .store, .increment, .callReturn, .stack, .field, .invoke]

/-- The layout of a load or a store. -/
def slotLayout (code : Nat) : Layout :=
  match ownSlot? code with
  | some slot => .implied slot
  | none => .byte

/-- Whether a row of the opcode table says what a form says. -/
def formAgrees (opcode : Opcode) : Form → Bool
  | .plain takes gives => decide
      (opcode.kind ∉ specialKinds ∧
        opcode.layout ≠ .shortAndByte ∧
          ¬(opcode.kind = .constant ∧
            (opcode.layout = .byte ∨ opcode.layout = .short)) ∧
            opcode.pops.getD 0 = words takes ∧
              opcode.pushes.getD 0 = words gives)
  | .constant => decide
      (opcode.kind = .constant ∧
        (opcode.layout = .byte ∨ opcode.layout = .short))
  | .load type => decide
      (opcode.kind = .load ∧
        opcode.words = type.words ∧
          opcode.layout = slotLayout opcode.code)
  | .store type => decide
      (opcode.kind = .store ∧
        opcode.words = type.words ∧
          opcode.layout = slotLayout opcode.code)
  | .increment => decide
      (opcode.kind = .increment ∧
        opcode.layout = .slotAndByte ∧ ownSlot? opcode.code = none)
  | .subroutineReturn => decide
      (opcode.kind = .callReturn ∧
        opcode.layout = .byte ∧ ownSlot? opcode.code = none)
  | .shuffle kind => decide
      (opcode.kind = .stack ∧
        opcode.rearrangement? = some kind.rearrangement)
  | .field receiver reads => decide
      (opcode.kind = .field ∧
        opcode.layout = .short ∧
          (opcode.code, receiver, reads) ∈
            [(0xB2, [], true), (0xB3, [], false),
              (0xB4, [.reference], true), (0xB5, [.reference], false)])
  | .call receiver => decide
      (opcode.kind = .invoke ∧
        (opcode.layout = .short ∨ opcode.layout = .interfaceCall ∨
          opcode.layout = .dynamicCall) ∧
          (if opcode.isStaticCall then 0 else 1) = words receiver)
  | .arrays => decide
      (opcode.kind = .allocation ∧ opcode.layout = .shortAndByte)

/-- How control leaves an instruction of a kind. -/
def Control.ofKind : InstructionKind → Control
  | .branch => .branch
  | .jump | .switch => .jump
  | .call => .call
  | .callReturn => .back
  | .exit | .throwing => .stop
  | _ => .next

/-- Whether a row of the opcode table says how control leaves the opcode. -/
def controlAgrees (opcode : Opcode) : Bool := decide
  (control opcode.code = .ofKind opcode.kind ∧
    (opcode.kind ∈ [.branch, .jump, .call] →
      opcode.layout = .signedShort ∨ opcode.layout = .signedInt) ∧
      (opcode.kind = .switch →
        opcode.layout = .tableSwitch ∨ opcode.layout = .lookupSwitch))

/-- Whether a row of the opcode table agrees with the machine. -/
def rowAgrees (opcode : Opcode) : Bool :=
  controlAgrees opcode &&
    match form? opcode.code with
    | some form => formAgrees opcode form
    | none => decide (opcode.layout = .widened)

/-- All rows of the opcode table agree with the machine. -/
theorem table_agrees : Opcode.table.all rowAgrees = true := by
  decide +kernel

section Fitting

variable {instruction : Instruction}

theorem control_of_fits
    (fits : instruction.Fits) :
    control instruction.opcode.code = .ofKind instruction.kind := by
  have agrees := List.all_eq_true.mp table_agrees _ fits.row
  exact (of_decide_eq_true (Bool.and_eq_true_iff.mp agrees).1).1

theorem jump_of_fits
    (fits : instruction.Fits)
    (jumps : instruction.kind ∈ [.branch, .jump, .call]) :
    ∃ offset, instruction.operand = .jump offset := by
  have agrees := List.all_eq_true.mp table_agrees _ fits.row
  have layout :=
    (of_decide_eq_true (Bool.and_eq_true_iff.mp agrees).1).2.1 jumps
  have accepts := fits.accepts
  unfold Instruction.kind at jumps
  unfold Opcode.Accepts at accepts
  split at accepts <;> simp_all

theorem switch_of_fits
    (fits : instruction.Fits)
    (switches : instruction.kind = .switch) :
    ∃ default cases, instruction.operand = .switch default cases := by
  have agrees := List.all_eq_true.mp table_agrees _ fits.row
  have layout :=
    (of_decide_eq_true (Bool.and_eq_true_iff.mp agrees).1).2.2 switches
  have accepts := fits.accepts
  unfold Opcode.Accepts at accepts
  split at accepts <;> simp_all

theorem form_of_fits
    (fits : instruction.Fits) :
    ∃ form,
      form? instruction.opcode.code = some form ∧
        formAgrees instruction.opcode form = true := by
  have agrees := List.all_eq_true.mp table_agrees _ fits.row
  have formRow := (Bool.and_eq_true_iff.mp agrees).2
  cases found : form? instruction.opcode.code with
  | none =>
      simp only [found, decide_eq_true_eq] at formRow
      exact (fits.notWide formRow).elim
  | some form =>
      simp only [found] at formRow
      exact ⟨form, rfl, formRow⟩

/-- The move of frames that an action of the machine corresponds to. -/
def Action.move : Action → Move
  | .literal text => .restack 0 [.literal text]
  | .exchange takes gives => .exchange (words takes) (words gives)
  | .load slot type => .load slot type.words
  | .store slot type => .store slot type.words
  | .increment slot => .forget slot
  | .inspect slot => .inspect slot
  | .shuffle kind =>
      .ofRearrangement kind.rearrangement.1 kind.rearrangement.2

theorem words_ofField (type : FieldType) :
    (ValueType.ofField type).words = type.words := by
  cases type with
  | primitive primitive =>
      cases primitive <;> rfl
  | object className =>
      rfl
  | array element =>
      rfl

theorem words_map_ofField (types : List FieldType) :
    words (types.map .ofField) = FieldType.totalWords types := by
  induction types with
  | nil =>
      rfl
  | cons type rest inductionHypothesis =>
      simp only [words, List.map_cons, List.sum_cons] at inductionHypothesis ⊢
      rw [inductionHypothesis, words_ofField]
      rfl

theorem words_ofConstant (constant : Loadable) :
    (ValueType.ofConstant constant).words = constant.words := by
  cases constant with
  | dynamic member =>
      simp only [ValueType.ofConstant, Loadable.words]
      by_cases isLong : member.descriptor = "J"
      · rw [if_pos isLong, if_pos (Or.inl isLong)]
        rfl
      · by_cases isDouble : member.descriptor = "D"
        · rw [if_neg isLong, if_pos isDouble, if_pos (Or.inr isDouble)]
          rfl
        · rw [if_neg isLong, if_neg isDouble, if_neg (by tauto)]
          rfl
  | _ => rfl

/-- An instruction that is treated by its row alone exchanges words. -/
theorem move_of_plain
    (fits : instruction.Fits)
    {takes gives : List ValueType}
    (agrees : formAgrees instruction.opcode (.plain takes gives) = true) :
    instruction.move = .ok (.exchange (words takes) (words gives)) := by
  simp only [formAgrees, decide_eq_true_eq] at agrees
  obtain ⟨notSpecial, notArray, notPool, pops, pushes⟩ := agrees
  have accepts := fits.accepts
  have notConstant
      (constant : Loadable)
      (kind : instruction.opcode.kind = .constant) :
      instruction.operand ≠ .constant constant := by
    intro operand
    unfold Opcode.Accepts at accepts
    split at accepts <;> simp_all
  have notArrayClass
      (name : Text)
      (dimensions : Nat) :
      instruction.operand ≠ .arrayClass name dimensions := by
    intro operand
    unfold Opcode.Accepts at accepts
    split at accepts <;> simp_all
  unfold Instruction.move
  dsimp only
  rw [pops, pushes]
  split <;> simp_all [specialKinds]

theorem slot_of_layout
    (fits : instruction.Fits)
    (notConstant : instruction.opcode.kind ≠ .constant)
    (notAllocation : instruction.opcode.kind ≠ .allocation)
    (layout :
      instruction.opcode.layout = slotLayout instruction.opcode.code) :
    slot? instruction = some instruction.slot := by
  have accepts := fits.accepts
  unfold slotLayout at layout
  unfold slot? Instruction.slot
  cases own : ownSlot? instruction.opcode.code with
  | some slot =>
      simp only [own] at layout
      simp only [Opcode.Accepts, layout] at accepts
      simp [accepts, Operand.slot?]
  | none =>
      simp only [own] at layout
      have isSlot : ∃ slot, instruction.operand = .slot slot := by
        unfold Opcode.Accepts at accepts
        split at accepts <;> simp_all
      obtain ⟨slot, operand⟩ := isSlot
      simp [operand, Operand.slot?]

theorem ofField_eq_fieldAction
    {code : Nat}
    {receiver : List ValueType}
    {reads : Bool}
    (row :
      (code, receiver, reads) ∈
        [(0xB2, [], true), (0xB3, [], false),
          (0xB4, [.reference], true), (0xB5, [.reference], false)])
    (type : FieldType) :
    Move.ofField code type = (fieldAction receiver reads type).move := by
  have receiverWords : ValueType.reference.words = 1 := rfl
  simp only [List.mem_cons, Prod.mk.injEq, List.not_mem_nil, or_false]
    at row
  rcases row with
    ⟨rfl, rfl, rfl⟩ | ⟨rfl, rfl, rfl⟩ | ⟨rfl, rfl, rfl⟩ | ⟨rfl, rfl, rfl⟩ <;>
    simp [Move.ofField, fieldAction, Action.move, words, words_ofField,
      receiverWords]

theorem ofCall_eq_callAction
    (receiver : List ValueType)
    (type : MethodType) :
    Move.ofCall (words receiver) type =
      (callAction receiver type).move := by
  have argumentWords :
      type.argumentWords + words receiver =
        words (receiver ++ type.parameters.map .ofField) := by
    rw [MethodType.argumentWords, ← words_map_ofField]
    simp [words, Nat.add_comm]
  have resultWords :
      type.resultWords = words (type.result.toList.map .ofField) := by
    rw [words_map_ofField]
    cases result : type.result <;>
      simp [MethodType.resultWords, result, FieldType.totalWords]
  simp [Move.ofCall, callAction, Action.move, argumentWords, resultWords]

theorem map_toOption
    {Fault First Second Third : Type}
    {first : First → Second}
    {second : First → Third}
    {last : Third → Second}
    (same : ∀ value, first value = last (second value))
    (result : Except Fault First) :
    (result.map first).toOption = (result.map second).toOption.map last := by
  cases result with
  | error fault =>
      rfl
  | ok value =>
      simp [Except.map, Except.toOption, same]

/-- An instruction moves the words of a frame as its action does those of a memory. -/
theorem move_toOption
    (fits : instruction.Fits) :
    instruction.move.toOption =
      (action? instruction).map Action.move := by
  obtain ⟨form, found, agrees⟩ := form_of_fits fits
  have accepts := fits.accepts
  cases form with
  | plain takes gives =>
      rw [move_of_plain fits agrees]
      simp [action?, found, Action.move, Except.toOption]
  | constant =>
      simp only [formAgrees, decide_eq_true_eq] at agrees
      obtain ⟨kind, layout⟩ := agrees
      have isConstant :
          ∃ constant, instruction.operand = .constant constant := by
        unfold Opcode.Accepts at accepts
        split at accepts <;> simp_all
      obtain ⟨constant, operand⟩ := isConstant
      cases constant <;>
        simp [action?, found, Instruction.move, kind, operand,
          Action.move, Except.toOption, words, words_ofConstant]
  | load type =>
      simp only [formAgrees, decide_eq_true_eq] at agrees
      obtain ⟨kind, width, layout⟩ := agrees
      have slot :=
        slot_of_layout fits (by simp [kind]) (by simp [kind]) layout
      simp [action?, found, Instruction.move, kind, slot, width,
        Action.move, Except.toOption]
  | store type =>
      simp only [formAgrees, decide_eq_true_eq] at agrees
      obtain ⟨kind, width, layout⟩ := agrees
      have slot :=
        slot_of_layout fits (by simp [kind]) (by simp [kind]) layout
      simp [action?, found, Instruction.move, kind, slot, width,
        Action.move, Except.toOption]
  | increment =>
      simp only [formAgrees, decide_eq_true_eq] at agrees
      obtain ⟨kind, layout, own⟩ := agrees
      simp only [Opcode.Accepts, layout] at accepts
      obtain ⟨slot, amount, operand⟩ := accepts
      simp [action?, found, Instruction.move, kind, slot?, own, operand,
        Instruction.slot, Operand.slot?, Action.move, Except.toOption]
  | subroutineReturn =>
      simp only [formAgrees, decide_eq_true_eq] at agrees
      obtain ⟨kind, layout, own⟩ := agrees
      have slot :=
        slot_of_layout fits (by simp [kind]) (by simp [kind])
          (by simp [layout, slotLayout, own])
      simp [action?, found, Instruction.move, kind, slot, Action.move,
        Except.toOption]
  | shuffle shuffle =>
      simp only [formAgrees, decide_eq_true_eq] at agrees
      obtain ⟨kind, rearranged⟩ := agrees
      simp [action?, found, Instruction.move, kind, rearranged,
        Action.move, Except.toOption]
  | field receiver reads =>
      simp only [formAgrees, decide_eq_true_eq] at agrees
      obtain ⟨kind, layout, row⟩ := agrees
      simp only [Opcode.Accepts, kind, layout] at accepts
      obtain ⟨member, operand⟩ := accepts
      simp only [action?, found, Instruction.move, kind, operand]
      exact map_toOption (ofField_eq_fieldAction row) _
  | call receiver =>
      simp only [formAgrees, decide_eq_true_eq] at agrees
      obtain ⟨kind, layout, receiverWords⟩ := agrees
      have isMember : ∃ member, instruction.operand = .member member := by
        unfold Opcode.Accepts at accepts
        split at accepts <;> simp_all
      obtain ⟨member, operand⟩ := isMember
      simp only [action?, found, Instruction.move, kind, operand,
        receiverWords]
      exact map_toOption (ofCall_eq_callAction receiver) _
  | arrays =>
      simp only [formAgrees, decide_eq_true_eq] at agrees
      obtain ⟨kind, layout⟩ := agrees
      simp only [Opcode.Accepts, layout] at accepts
      obtain ⟨name, dimensions, operand⟩ := accepts
      simp [action?, found, Instruction.move, kind, operand, Action.move,
        Except.toOption, words, ValueType.words]

end Fitting

section Control

variable {program : Program}
variable {index target : Nat}
variable {instruction : Instruction}

/-- Where control can go by the kind of an instruction, it can go in the machine. -/
theorem successor_of_leads
    (consecutive : Code.Consecutive 0 0 program.instructions)
    (present : program.instructions[index]? = some instruction)
    {kind : EdgeKind}
    (leads :
      CodeFlow.Leads program.instructions instruction kind target) :
    program.Successor index instruction target := by
  have fits := consecutive.fits (List.mem_of_getElem? present)
  have leaves := control_of_fits fits
  cases leads with
  | next falls inside =>
      have atIndex := consecutive.index_eq_position present
      rw [atIndex]
      refine .next ?_
      rw [leaves]
      unfold Instruction.fallsThrough at falls
      cases kindEq : instruction.kind <;>
        simp_all [Control.ofKind, InstructionKind.fallsThrough]
  | branch kind operand lands =>
      exact .target (by simp [leaves, kind, Control.ofKind])
        (by simp [operand, Operand.targets]) lands
  | jump kind operand lands =>
      exact .target (by simp [leaves, kind, Control.ofKind])
        (by simp [operand, Operand.targets]) lands
  | call kind operand lands =>
      exact .target (by simp [leaves, kind, Control.ofKind])
        (by simp [operand, Operand.targets]) lands
  | callReturn kind member isCall inside =>
      obtain ⟨caller, callPresent⟩ := List.mem_iff_getElem?.mp member
      have atCaller := consecutive.index_eq_position callPresent
      rw [atCaller] at inside ⊢
      have callLeaves := control_of_fits (consecutive.fits member)
      exact .back (by simp [leaves, kind, Control.ofKind]) callPresent
        (by simp [callLeaves, isCall, Control.ofKind]) inside
  | switchDefault kind operand lands =>
      exact .target (by simp [leaves, kind, Control.ofKind])
        (by simp [operand, Operand.targets]) lands
  | switchCase kind operand member lands =>
      refine .target (by simp [leaves, kind, Control.ofKind]) ?_ lands
      simp only [operand, Operand.targets, List.mem_cons, List.mem_map]
      exact Or.inr ⟨_, member, rfl⟩

/-- Where control can go in the machine, it can go by the kind of the instruction. -/
theorem leads_of_successor
    (consecutive : Code.Consecutive 0 0 program.instructions)
    (present : program.instructions[index]? = some instruction)
    (goesOn :
      instruction.fallsThrough = true →
      instruction.index + 1 < program.instructions.length)
    (successor : program.Successor index instruction target) :
    ∃ kind,
      CodeFlow.Leads program.instructions instruction kind target := by
  have fits := consecutive.fits (List.mem_of_getElem? present)
  have leaves := control_of_fits fits
  cases successor with
  | next continues =>
      have atIndex := consecutive.index_eq_position present
      have falls : instruction.fallsThrough = true := by
        rw [leaves] at continues
        unfold Instruction.fallsThrough
        cases kindEq : instruction.kind <;>
          simp_all [Control.ofKind, InstructionKind.fallsThrough]
      rw [← atIndex]
      exact ⟨_, .next falls (goesOn falls)⟩
  | target jumps isTarget lands =>
      rw [leaves] at jumps
      have kinds :
          instruction.kind ∈ [.branch, .jump, .call] ∨
            instruction.kind = .switch := by
        cases kindEq : instruction.kind <;>
          simp_all [Control.ofKind]
      rcases kinds with jumpKinds | isSwitch
      · obtain ⟨offset, operand⟩ := jump_of_fits fits jumpKinds
        simp only [operand, Operand.targets, List.mem_singleton] at isTarget
        subst isTarget
        simp only [List.mem_cons, List.not_mem_nil, or_false] at jumpKinds
        rcases jumpKinds with isBranch | isJump | isCall
        · exact ⟨_, .branch isBranch operand lands⟩
        · exact ⟨_, .jump isJump operand lands⟩
        · exact ⟨_, .call isCall operand lands⟩
      · obtain ⟨default, cases, operand⟩ := switch_of_fits fits isSwitch
        simp only [operand, Operand.targets, List.mem_cons, List.mem_map]
          at isTarget
        rcases isTarget with rfl | ⟨⟨key, offset⟩, member, rfl⟩
        · exact ⟨_, .switchDefault isSwitch operand lands⟩
        · exact ⟨_, .switchCase isSwitch operand member lands⟩
  | back returns callPresent calls follows =>
      rename_i caller call
      have member : call ∈ program.instructions :=
        List.mem_of_getElem? callPresent
      have callLeaves := control_of_fits (consecutive.fits member)
      have atCaller := consecutive.index_eq_position callPresent
      have isReturn : instruction.kind = .callReturn := by
        rw [leaves] at returns
        cases kindEq : instruction.kind <;> simp_all [Control.ofKind]
      have isCall : call.kind = .call := by
        rw [callLeaves] at calls
        cases kindEq : call.kind <;> simp_all [Control.ofKind]
      rw [← atCaller] at follows ⊢
      exact ⟨_, .callReturn isReturn member isCall follows⟩

end Control

end KeyAudit.Machine
