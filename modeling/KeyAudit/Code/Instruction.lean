import KeyAudit.Class.Pool
import KeyAudit.Code.Opcode

namespace KeyAudit

/-!
# Decoded instructions

An instruction knows its place in the code and its operand with all pool
references resolved.  Jump targets are offsets from the start of the code.
-/

/-- The operand of an instruction. -/
inductive Operand where
  | none
  /-- A local slot. -/
  | slot (index : Nat)
  /-- A local slot and the amount added to it. -/
  | increment (slot : Nat) (amount : Int)
  /-- A number: a pushed value or the code of an element type. -/
  | immediate (value : Int)
  | constant (value : Loadable)
  | member (value : Member)
  | classRef (name : Text)
  /-- An array class and the number of dimensions to allocate. -/
  | arrayClass (name : Text) (dimensions : Nat)
  | jump (target : Int)
  /-- The default target, and the keys with their targets. -/
  | switch (default : Int) (cases : List (Int × Int))
  deriving Repr, DecidableEq

namespace Operand

/-- The local slot that is read or written. -/
def slot? : Operand → Option Nat
  | .slot index => some index
  | .increment index _ => some index
  | _ => Option.none

/-- The amount added to a local slot. -/
def amount? : Operand → Option Int
  | .increment _ amount => some amount
  | _ => Option.none

/-- The number that an instruction carries. -/
def immediate? : Operand → Option Int
  | .immediate value => some value
  | .arrayClass _ dimensions => some dimensions
  | _ => Option.none

/-- The constant that is pushed. -/
def constant? : Operand → Option Loadable
  | .constant value => some value
  | _ => Option.none

/-- The field or method that is used. -/
def member? : Operand → Option Member
  | .member value => some value
  | _ => Option.none

/-- The class that is used. -/
def classRef? : Operand → Option Text
  | .classRef name => some name
  | .arrayClass name _ => some name
  | _ => Option.none

/-- All jump targets, the default one first. -/
def targets : Operand → List Int
  | .jump target => [target]
  | .switch default cases => default :: cases.map Prod.snd
  | _ => []

/-- The keys of a switch. -/
def keys : Operand → List Int
  | .switch _ cases => cases.map Prod.fst
  | _ => []

end Operand

/-- An instruction at its place in the code. -/
structure Instruction where
  index : Nat
  offset : Nat
  length : Nat
  opcode : Opcode
  operand : Operand
  wide : Bool
  deriving Repr, DecidableEq

namespace Instruction

/-- What the instruction does, coarsely. -/
def kind (instruction : Instruction) : InstructionKind :=
  instruction.opcode.kind

/-- The offset of the next instruction. -/
def next (instruction : Instruction) : Nat :=
  instruction.offset + instruction.length

/-- Whether control may go on to the next instruction. -/
def fallsThrough (instruction : Instruction) : Bool :=
  instruction.kind.fallsThrough

/-- The local slot that is read or written; instructions without one use slot 0. -/
def slot (instruction : Instruction) : Nat :=
  instruction.operand.slot?.getD 0

/-- The listing line of an instruction. -/
def label (instruction : Instruction) : Text :=
  let operand := instruction.operand
  let head := Text.padLeft 5 (Text.ofNat instruction.offset) ++ ": " ++
    instruction.opcode.mnemonic
  let targets := operand.targets
  let parts : List (Option Text) :=
    [ operand.slot?.map Text.ofNat,
      operand.amount?.map Text.ofInt,
      operand.immediate?.map Text.ofInt,
      operand.constant?.map Loadable.label,
      operand.member?.map Member.label,
      operand.classRef?,
      if targets.isEmpty then Option.none
      else some ("-> " ++ Text.joinWith ", " (targets.map Text.ofInt)) ]
  Text.joinWith " " (head :: parts.filterMap id)

end Instruction

end KeyAudit
