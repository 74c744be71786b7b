import KeyAudit.Proofs.Code.Edges

namespace KeyAudit

/-!
# Decoded instructions are complete

Whatever the analysis asks an instruction for is there: the slot of a load, the
member of a call, the targets of a jump, the number of words of a plain
instruction.  No default stands in for it, and no edge leads out of the code.
-/

/-- An instruction has all that the analysis asks an instruction of its kind for. -/
structure Instruction.Complete (instruction : Instruction) : Prop where
  slot :
    instruction.kind ∈ [.load, .store, .increment, .callReturn] →
    ∃ slot, instruction.operand.slot? = some slot
  rearrangement :
    instruction.kind = .stack →
    ∃ count kept,
      instruction.opcode.rearrangement? = some (count, kept) ∧
        ∀ position ∈ kept, position < count
  member :
    instruction.kind ∈ [.field, .invoke] →
    ∃ member, instruction.operand = .member member
  target :
    instruction.kind ∈ [.branch, .jump, .call] →
    ∃ target, instruction.operand = .jump target
  targets :
    instruction.kind = .switch →
    ∃ default cases, instruction.operand = .switch default cases
  words :
    instruction.kind ∉
      [.load, .store, .increment, .callReturn, .stack, .field, .invoke] →
    (∃ constant, instruction.operand = .constant constant) ∨
      (∃ name dimensions, instruction.operand = .arrayClass name dimensions) ∨
        (instruction.opcode.pops.isSome ∧ instruction.opcode.pushes.isSome)

/-- Whether a layout names a slot, for an opcode that uses one. -/
def Layout.namesSlot : Layout → Bool
  | .implied _ | .byte | .slotAndByte => true
  | _ => false

namespace Opcode

/-- Whether the layout of a row gives what the kind of the row needs. -/
def isComplete (opcode : Opcode) : Bool := decide
  ((opcode.kind ∈ [.load, .store, .increment, .callReturn] →
      opcode.layout.namesSlot = true) ∧
    (opcode.kind = .stack →
      (opcode.rearrangement?.any fun (count, kept) =>
        kept.all fun position => position < count) = true) ∧
    (opcode.kind ∈ [.field, .invoke] →
      opcode.layout ∈ [.short, .interfaceCall, .dynamicCall]) ∧
    (opcode.kind ∈ [.branch, .jump, .call] →
      opcode.layout ∈ [.signedShort, .signedInt]) ∧
    (opcode.kind = .switch →
      opcode.layout ∈ [.tableSwitch, .lookupSwitch]) ∧
    (opcode.kind ∉
        [.load, .store, .increment, .callReturn, .stack, .field, .invoke] →
      (opcode.kind = .constant ∧ opcode.layout ∈ [.byte, .short]) ∨
        opcode.layout ∈ [.shortAndByte, .widened] ∨
          (opcode.pops.isSome ∧ opcode.pushes.isSome)))

theorem table_isComplete : table.all isComplete = true := by
  decide +kernel

end Opcode

theorem Opcode.Accepts.slot
    {opcode : Opcode}
    {operand : Operand}
    (accepts : opcode.Accepts operand)
    (named : opcode.layout.namesSlot = true)
    (uses : opcode.kind ∈ [.load, .store, .increment, .callReturn]) :
    ∃ slot, operand.slot? = some slot := by
  unfold Opcode.Accepts at accepts
  split at accepts <;> simp_all [Layout.namesSlot, Operand.slot?]
  · obtain ⟨slot, rfl⟩ := accepts
    exact ⟨slot, rfl⟩
  · obtain ⟨slot, amount, rfl⟩ := accepts
    exact ⟨slot, rfl⟩

/-- A row of the opcode table with a fitting operand is complete. -/
theorem Instruction.Fits.complete
    {instruction : Instruction}
    (fits : instruction.Fits) :
    instruction.Complete := by
  obtain ⟨row, notWide, accepts⟩ := fits
  have complete := List.all_eq_true.mp Opcode.table_isComplete _ row
  obtain ⟨slot, rearrangement, member, target, targets, words⟩ :=
    of_decide_eq_true complete
  constructor
  · intro kind
    exact accepts.slot (slot kind) kind
  · intro kind
    obtain ⟨⟨count, kept⟩, found, small⟩ :=
      (Option.any_eq_true ..).mp (rearrangement kind)
    refine ⟨count, kept, found, fun position isKept => ?_⟩
    exact of_decide_eq_true (List.all_eq_true.mp small position isKept)
  · intro kind
    have layout := member kind
    unfold Instruction.kind at kind
    unfold Opcode.Accepts at accepts
    split at accepts <;> simp_all
  · intro kind
    have layout := target kind
    unfold Instruction.kind at kind
    unfold Opcode.Accepts at accepts
    split at accepts <;> simp_all
  · intro kind
    have layout := targets kind
    unfold Opcode.Accepts at accepts
    split at accepts <;> simp_all
  · intro kind
    have layout := words kind
    unfold Instruction.kind at kind
    unfold Opcode.Accepts at accepts
    split at accepts <;> simp_all

/-- A flow that was built is closed, and its instructions are complete. -/
theorem CodeFlow.ofMethod_complete
    {pool : Pool}
    {method : Method}
    {flow : CodeFlow}
    (built : CodeFlow.ofMethod pool method = .ok flow) :
    flow.graph.Closed ∧
      ∀ instruction ∈ flow.instructions, instruction.Complete := by
  unfold CodeFlow.ofMethod at built
  split at built
  · cases built
  · obtain ⟨instructions, decoded, built⟩ := Outcome.bind_eq_ok.mp built
    have consecutive := Code.decode_consecutive decoded
    refine ⟨CodeFlow.build_closed consecutive built, ?_⟩
    rw [CodeFlow.build_instructions built]
    intro instruction member
    exact (consecutive.fits member).complete

end KeyAudit
