import KeyAudit.Class.Cursor
import KeyAudit.Code.Instruction

namespace KeyAudit

/-!
# Decoding of code arrays

A code array is decoded from its first byte to its last.  Every jump has to
land on the start of an instruction.
-/

/-- Why code cannot be decoded or has no flow graph. -/
inductive DecodeCause where
  | emptyCode
  | noCode (signature : Text)
  | truncatedOperand
  | unknownOpcode (code : Nat)
  | notWidenable (code : Nat)
  | reversedRange
  | tableTooLong
  | negativeCount
  | pairsTooLong
  | badReference (fault : ClassFault)
  | badTarget (mnemonic : String) (target : Int)
  | badHandler (target : Int)
  | fallsOff
  deriving Repr, DecidableEq

/-- A cause and the offset in the code that it concerns. -/
structure DecodeFault where
  cause : DecodeCause
  offset : Option Int
  deriving Repr, DecidableEq

namespace DecodeCause

/-- The wording of a cause. -/
def message : DecodeCause → Text
  | .emptyCode => "empty code array"
  | .noCode signature => signature ++ " has no code"
  | .truncatedOperand => "truncated instruction operand"
  | .unknownOpcode code => "unknown opcode 0x" ++ Text.hex 2 code
  | .notWidenable code => "opcode 0x" ++ Text.hex 2 code ++ " cannot be widened"
  | .reversedRange => "tableswitch high < low"
  | .tableTooLong => "tableswitch exceeds code length"
  | .negativeCount => "lookupswitch with negative npairs"
  | .pairsTooLong => "lookupswitch exceeds code length"
  | .badReference fault => fault.message
  | .badTarget mnemonic target =>
      mnemonic ++ " targets " ++ Text.ofInt target ++ ", which is not an instruction start"
  | .badHandler target =>
      "exception handler at " ++ Text.ofInt target ++ " is not an instruction start"
  | .fallsOff => "control falls off the end of the code"

end DecodeCause

/-- A step that reads from a code array. -/
abbrev Decoding := StateT Cursor (Except DecodeFault)

namespace Decoding

/-- Fail with a cause at an offset. -/
def refuse (cause : DecodeCause) (offset : Nat) : Decoding α :=
  throw ⟨cause, some offset⟩

/-- Read an unsigned number of so many bytes. -/
def number (width : Nat) : Decoding Nat := fun cursor =>
  match cursor.rest.split? width with
  | none => .error ⟨.truncatedOperand, some cursor.offset⟩
  | some (taken, rest) => .ok (taken.toNat, ⟨rest, cursor.offset + width⟩)

/-- Read a signed number of so many bytes. -/
def signedNumber (width : Nat) : Decoding Int := do
  return Bytes.signed width (← number width)

/-- Use what a lookup gives; a failing lookup concerns the place reached so far. -/
def resolve (result : Except ClassFault α) : Decoding α := fun cursor =>
  match result with
  | .error fault => .error ⟨.badReference fault, some cursor.offset⟩
  | .ok value => .ok (value, cursor)

/-- Skip to the next multiple of four, counted from the start of the code. -/
def align : Decoding Unit := fun cursor =>
  let padding := (4 - cursor.offset % 4) % 4
  .ok ((), ⟨cursor.rest.drop padding, cursor.offset + padding⟩)

/-- The number of unread bytes. -/
def remaining : Decoding Nat := fun cursor =>
  .ok (cursor.rest.length, cursor)

/-- Repeat a step so many times and keep the results in order. -/
def times : Nat → Decoding α → Decoding (List α)
  | 0, _ => return []
  | count + 1, decoding => do
      let first ← decoding
      let others ← times count decoding
      return first :: others

end Decoding

namespace Code

open Decoding

/-- Integers from a first one on. -/
def consecutive : Nat → Int → List Int
  | 0, _ => []
  | count + 1, first => first :: consecutive count (first + 1)

/-- Read the operands of a switch over a range of keys. -/
def tableSwitch (offset : Nat) : Decoding Operand := do
  align
  let default ← signedNumber 4
  let low ← signedNumber 4
  let high ← signedNumber 4
  if high < low then
    refuse .reversedRange offset
  let count := (high - low + 1).toNat
  if (← remaining) < 4 * count then
    refuse .tableTooLong offset
  let targets ← times count (signedNumber 4)
  return .switch (offset + default)
    ((consecutive count low).zip (targets.map fun target => offset + target))

/-- Read the operands of a switch over listed keys. -/
def lookupSwitch (offset : Nat) : Decoding Operand := do
  align
  let default ← signedNumber 4
  let count ← signedNumber 4
  if count < 0 then
    refuse .negativeCount offset
  if (← remaining) < 8 * count.toNat then
    refuse .pairsTooLong offset
  let cases ← times count.toNat do
    let key ← signedNumber 4
    let target ← signedNumber 4
    return (key, (offset : Int) + target)
  return .switch (offset + default) cases

/-- Read the operand of an instruction that has no wide form in front. -/
def operand (pool : Pool) (offset : Nat) (opcode : Opcode) : Decoding Operand :=
  match opcode.kind, opcode.layout with
  | _, .implied slot => return .slot slot
  | _, .signedByte => return .immediate (← signedNumber 1)
  | .constant, .byte => do
      let index ← number 1
      return .constant (← resolve (pool.loadable index))
  | .allocation, .byte => return .immediate (← number 1)
  | _, .byte => return .slot (← number 1)
  | _, .slotAndByte => do
      let slot ← number 1
      let amount ← signedNumber 1
      return .increment slot amount
  | .constant, .signedShort => return .immediate (← signedNumber 2)
  | _, .signedShort => return .jump (offset + (← signedNumber 2))
  | _, .signedInt => return .jump (offset + (← signedNumber 4))
  | .constant, .short => do
      let index ← number 2
      return .constant (← resolve (pool.loadable index))
  | .field, .short | .invoke, .short => do
      let index ← number 2
      return .member (← resolve (pool.member index))
  | _, .short => do
      let index ← number 2
      return .classRef (← resolve (pool.className index))
  | _, .interfaceCall => do
      let index ← number 2
      let member ← resolve (pool.member index)
      let _ ← number 1
      let _ ← number 1
      return .member member
  | _, .dynamicCall => do
      let index ← number 2
      let member ← resolve (pool.dynamicMember index)
      let _ ← number 2
      return .member member
  | _, .shortAndByte => do
      let index ← number 2
      let name ← resolve (pool.className index)
      let dimensions ← number 1
      return .arrayClass name dimensions
  | _, .tableSwitch => tableSwitch offset
  | _, .lookupSwitch => lookupSwitch offset
  | _, .none | _, .widened => return .none

/-- Read an opcode with a two-byte slot, and an amount of two bytes if it has one. -/
def widened (offset : Nat) : Decoding (Opcode × Operand) := do
  let code ← number 1
  match (Opcode.ofCode? code).filter Opcode.isWidenable with
  | none => refuse (.notWidenable code) offset
  | some opcode =>
      let slot ← number 2
      if opcode.kind = .increment then
        return (opcode, .increment slot (← signedNumber 2))
      else
        return (opcode, .slot slot)

/-- Read one instruction, which is the one with the given index. -/
def instruction (pool : Pool) (index : Nat) : Decoding Instruction := do
  let offset := (← get).offset
  let code ← number 1
  match Opcode.ofCode? code with
  | none => refuse (.unknownOpcode code) offset
  | some opcode =>
      if opcode.layout = .widened then
        let (inner, operand) ← widened offset
        let length := (← get).offset - offset
        return { index, offset, length, opcode := inner, operand, wide := true }
      else
        let operand ← operand pool offset opcode
        let length := (← get).offset - offset
        return { index, offset, length, opcode, operand, wide := false }

/--
Read instructions until no byte is left.  The first argument bounds their
number; as each has a byte of its own, the length of the code is enough.
-/
def instructions (pool : Pool) : (bound index : Nat) → Decoding (List Instruction)
  | 0, _ => return []
  | bound + 1, index => do
      if (← get).rest.isEmpty then
        return []
      let first ← instruction pool index
      let others ← instructions pool bound (index + 1)
      return first :: others

/-- Whether an offset is the start of one of the instructions. -/
def isStart (instructions : List Instruction) (offset : Int) : Bool :=
  instructions.any fun instruction => (instruction.offset : Int) == offset

/-- The first jump that does not land on an instruction. -/
def strayTarget? (instructions : List Instruction) : Option DecodeFault :=
  instructions.findSome? fun instruction =>
    (instruction.operand.targets.find? fun target => !isStart instructions target).map
      fun target =>
        ⟨.badTarget instruction.opcode.mnemonic target, some instruction.offset⟩

/-- Decode a code array. -/
def decode (code : Bytes) (pool : Pool) : Except DecodeFault (List Instruction) := do
  if code.isEmpty then
    throw ⟨.emptyCode, none⟩
  let (decoded, _) ← (instructions pool code.length 0).run ⟨code, 0⟩
  match strayTarget? decoded with
  | some fault => throw fault
  | none => return decoded

end Code

end KeyAudit
