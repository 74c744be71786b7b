import KeyAudit.Class.FieldType
import KeyAudit.Code.Instruction
import KeyAudit.Frame.Basic

namespace KeyAudit

/-!
# The effect of an instruction on a frame

Loads, stores and rearrangements of the stack move values.  A string literal is
known after it was pushed.  All other instructions take their words off the
stack and put words on it of which nothing is known.
-/

/-- Why an instruction has no effect on a frame. -/
inductive StepFault where
  | descriptor (fault : DescriptorFault)
  | analysis (fault : AnalysisFault)
  deriving Repr, DecidableEq

namespace StepFault

/-- The wording of a step fault. -/
def message : StepFault → Text
  | .descriptor fault => fault.message
  | .analysis fault => fault.message

end StepFault

namespace Frame

/-- Keep a result of frame arithmetic. -/
def checked (result : Except AnalysisFault α) : Except StepFault α :=
  result.mapError .analysis

/-- Keep the type that a descriptor stands for. -/
def typed (result : Except DescriptorFault α) : Except StepFault α :=
  result.mapError .descriptor

/-- Take words off the stack and put unknown ones on it. -/
def exchange (frame : Frame) (pops pushes : Nat) : Except StepFault Frame :=
  checked ((frame.drop pops).map fun frame => frame.pushUnknown pushes)

/-- The effect of an access to a field. -/
def accessField (opcode : Opcode) (member : Member) (frame : Frame) :
    Except StepFault Frame := do
  let type ← typed (FieldType.parse member.descriptor)
  match opcode.code with
  | 0xB2 => frame.exchange 0 type.words
  | 0xB3 => frame.exchange type.words 0
  | 0xB4 => frame.exchange 1 type.words
  | _ => frame.exchange (1 + type.words) 0

/-- The effect of an invocation. -/
def invoke (opcode : Opcode) (member : Member) (frame : Frame) : Except StepFault Frame := do
  let type ← typed (MethodType.parse member.descriptor)
  let receiver := if opcode.isStaticCall then 0 else 1
  frame.exchange (type.argumentWords + receiver) type.resultWords

/-- The effect of a rearrangement of the stack. -/
def rearrange (count : Nat) (kept : List Nat) (frame : Frame) : Except StepFault Frame := do
  let (frame, words) ← checked (frame.pop count)
  return frame.push (kept.filterMap fun position => words[position]?)

/-- The frame after an instruction by the frame before it. -/
def after (instruction : Instruction) (frame : Frame) : Except StepFault Frame :=
  let opcode := instruction.opcode
  let fixed := frame.exchange (opcode.pops.getD 0) (opcode.pushes.getD 0)
  match opcode.kind, instruction.operand with
  | .constant, .constant (.string text) => .ok (frame.push [.literal text])
  | .constant, .constant constant => .ok (frame.pushUnknown constant.words)
  | .load, _ => do
      let words ← checked (frame.load instruction.slot opcode.words)
      return frame.push words
  | .store, _ => do
      let (frame, words) ← checked (frame.pop opcode.words)
      checked (frame.store instruction.slot words)
  | .increment, _ => checked (frame.store instruction.slot [.unknown])
  | .callReturn, _ => do
      let _ ← checked (frame.load instruction.slot 1)
      return frame
  | .stack, _ =>
      match opcode.rearrangement? with
      | some (count, kept) => frame.rearrange count kept
      | none => fixed
  | .field, .member member => frame.accessField opcode member
  | .invoke, .member member => frame.invoke opcode member
  | _, .arrayClass _ dimensions => frame.exchange dimensions 1
  | _, _ => fixed

end Frame

end KeyAudit
