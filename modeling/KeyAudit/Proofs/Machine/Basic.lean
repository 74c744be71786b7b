import KeyAudit.Class.FieldType
import KeyAudit.Class.File
import KeyAudit.Proofs.Code.Decoded
import Mathlib.Algebra.Ring.Nat
import Mathlib.Logic.Relation

namespace KeyAudit.Machine

/-!
# A machine for decoded instructions

The machine runs the instructions of one method on words.  A word is the
reference to a string literal or anything else.  Loads, stores and
rearrangements of the stack move words, the constants of the pool are pushed,
and every other instruction takes the words of its operands and gives arbitrary
words for its results.  Branches are taken or not at will, a subroutine returns
to any instruction after a call, and a covered instruction may raise an
exception before or after it changed its slots.

What the instructions take and give is listed by opcode and by the types of
values; nothing is taken from the opcode table of the decoder.
-/

/-- The types of values on the operand stack. -/
inductive ValueType where
  | int | float | reference | address | long | double
  deriving Repr, DecidableEq

namespace ValueType

/-- The number of words of a value. -/
def words : ValueType → Nat
  | long | double => 2
  | _ => 1

/-- The type on the stack of a value of a field type. -/
def ofField : FieldType → ValueType
  | .primitive .long => long
  | .primitive .double => double
  | .primitive .float => float
  | .primitive _ => int
  | .object _ | .array _ => reference

/-- The type of a constant of the pool; a dynamic one is told by its descriptor. -/
def ofConstant : Loadable → ValueType
  | .integer _ => int
  | .float _ => float
  | .long _ => long
  | .double _ => double
  | .dynamic member =>
      if member.descriptor = "J" then long
      else if member.descriptor = "D" then double
      else reference
  | .string _ | .classLiteral _ | .methodType _ | .methodHandle .. => reference

end ValueType

/-- The number of words of values together. -/
def words (types : List ValueType) : Nat :=
  (types.map ValueType.words).sum

/-- The rearrangements of the uppermost words of the stack. -/
inductive Shuffle where
  | pop | pop2 | dup | dupX1 | dupX2 | dup2 | dup2X1 | dup2X2 | swap
  deriving Repr, DecidableEq

/-- What an opcode does, as far as it does not depend on the operand. -/
inductive Form where
  /-- Take values of some types and give values of others. -/
  | plain (takes gives : List ValueType)
  /-- Push a constant of the pool. -/
  | constant
  | load (type : ValueType)
  | store (type : ValueType)
  /-- Add to the number in a slot. -/
  | increment
  /-- Go back to an address in a slot. -/
  | subroutineReturn
  | shuffle (kind : Shuffle)
  /-- Read or write a field, of a receiver or of a class. -/
  | field (receiver : List ValueType) (reads : Bool)
  /-- Call a method below whose arguments there may be a receiver. -/
  | call (receiver : List ValueType)
  /-- Allocate an array of several dimensions. -/
  | arrays
  deriving Repr, DecidableEq

/-- The forms of all opcodes but the one that only widens another. -/
def forms : List (List Nat × Form) := [
  -- nop, aconst_null, iconst, lconst, fconst, dconst, bipush and sipush
  ([0x00], .plain [] []),
  ([0x01], .plain [] [.reference]),
  ([0x02, 0x03, 0x04, 0x05, 0x06, 0x07, 0x08], .plain [] [.int]),
  ([0x09, 0x0A], .plain [] [.long]),
  ([0x0B, 0x0C, 0x0D], .plain [] [.float]),
  ([0x0E, 0x0F], .plain [] [.double]),
  ([0x10, 0x11], .plain [] [.int]),
  -- ldc, ldc_w and ldc2_w
  ([0x12, 0x13, 0x14], .constant),
  -- loads, from a slot that the operand names and from slots 0 to 3
  ([0x15, 0x1A, 0x1B, 0x1C, 0x1D], .load .int),
  ([0x16, 0x1E, 0x1F, 0x20, 0x21], .load .long),
  ([0x17, 0x22, 0x23, 0x24, 0x25], .load .float),
  ([0x18, 0x26, 0x27, 0x28, 0x29], .load .double),
  ([0x19, 0x2A, 0x2B, 0x2C, 0x2D], .load .reference),
  -- loads from arrays
  ([0x2E, 0x33, 0x34, 0x35], .plain [.reference, .int] [.int]),
  ([0x2F], .plain [.reference, .int] [.long]),
  ([0x30], .plain [.reference, .int] [.float]),
  ([0x31], .plain [.reference, .int] [.double]),
  ([0x32], .plain [.reference, .int] [.reference]),
  -- stores, to the same slots
  ([0x36, 0x3B, 0x3C, 0x3D, 0x3E], .store .int),
  ([0x37, 0x3F, 0x40, 0x41, 0x42], .store .long),
  ([0x38, 0x43, 0x44, 0x45, 0x46], .store .float),
  ([0x39, 0x47, 0x48, 0x49, 0x4A], .store .double),
  ([0x3A, 0x4B, 0x4C, 0x4D, 0x4E], .store .reference),
  -- stores into arrays
  ([0x4F, 0x54, 0x55, 0x56], .plain [.reference, .int, .int] []),
  ([0x50], .plain [.reference, .int, .long] []),
  ([0x51], .plain [.reference, .int, .float] []),
  ([0x52], .plain [.reference, .int, .double] []),
  ([0x53], .plain [.reference, .int, .reference] []),
  -- pop, dup and swap
  ([0x57], .shuffle .pop),
  ([0x58], .shuffle .pop2),
  ([0x59], .shuffle .dup),
  ([0x5A], .shuffle .dupX1),
  ([0x5B], .shuffle .dupX2),
  ([0x5C], .shuffle .dup2),
  ([0x5D], .shuffle .dup2X1),
  ([0x5E], .shuffle .dup2X2),
  ([0x5F], .shuffle .swap),
  -- add, sub, mul, div and rem
  ([0x60, 0x64, 0x68, 0x6C, 0x70], .plain [.int, .int] [.int]),
  ([0x61, 0x65, 0x69, 0x6D, 0x71], .plain [.long, .long] [.long]),
  ([0x62, 0x66, 0x6A, 0x6E, 0x72], .plain [.float, .float] [.float]),
  ([0x63, 0x67, 0x6B, 0x6F, 0x73], .plain [.double, .double] [.double]),
  -- neg
  ([0x74], .plain [.int] [.int]),
  ([0x75], .plain [.long] [.long]),
  ([0x76], .plain [.float] [.float]),
  ([0x77], .plain [.double] [.double]),
  -- shl, shr and ushr
  ([0x78, 0x7A, 0x7C], .plain [.int, .int] [.int]),
  ([0x79, 0x7B, 0x7D], .plain [.long, .int] [.long]),
  -- and, or and xor
  ([0x7E, 0x80, 0x82], .plain [.int, .int] [.int]),
  ([0x7F, 0x81, 0x83], .plain [.long, .long] [.long]),
  -- iinc
  ([0x84], .increment),
  -- conversions
  ([0x85], .plain [.int] [.long]),
  ([0x86], .plain [.int] [.float]),
  ([0x87], .plain [.int] [.double]),
  ([0x88], .plain [.long] [.int]),
  ([0x89], .plain [.long] [.float]),
  ([0x8A], .plain [.long] [.double]),
  ([0x8B], .plain [.float] [.int]),
  ([0x8C], .plain [.float] [.long]),
  ([0x8D], .plain [.float] [.double]),
  ([0x8E], .plain [.double] [.int]),
  ([0x8F], .plain [.double] [.long]),
  ([0x90], .plain [.double] [.float]),
  ([0x91, 0x92, 0x93], .plain [.int] [.int]),
  -- comparisons
  ([0x94], .plain [.long, .long] [.int]),
  ([0x95, 0x96], .plain [.float, .float] [.int]),
  ([0x97, 0x98], .plain [.double, .double] [.int]),
  -- branches
  ([0x99, 0x9A, 0x9B, 0x9C, 0x9D, 0x9E], .plain [.int] []),
  ([0x9F, 0xA0, 0xA1, 0xA2, 0xA3, 0xA4], .plain [.int, .int] []),
  ([0xA5, 0xA6], .plain [.reference, .reference] []),
  ([0xC6, 0xC7], .plain [.reference] []),
  -- goto, jsr, ret and switches
  ([0xA7, 0xC8], .plain [] []),
  ([0xA8, 0xC9], .plain [] [.address]),
  ([0xA9], .subroutineReturn),
  ([0xAA, 0xAB], .plain [.int] []),
  -- returns
  ([0xAC], .plain [.int] []),
  ([0xAD], .plain [.long] []),
  ([0xAE], .plain [.float] []),
  ([0xAF], .plain [.double] []),
  ([0xB0], .plain [.reference] []),
  ([0xB1], .plain [] []),
  -- fields and methods
  ([0xB2], .field [] true),
  ([0xB3], .field [] false),
  ([0xB4], .field [.reference] true),
  ([0xB5], .field [.reference] false),
  ([0xB6, 0xB7, 0xB9], .call [.reference]),
  ([0xB8, 0xBA], .call []),
  -- new, newarray, anewarray and arraylength
  ([0xBB], .plain [] [.reference]),
  ([0xBC, 0xBD], .plain [.int] [.reference]),
  ([0xBE], .plain [.reference] [.int]),
  -- athrow, checkcast, instanceof, monitorenter and monitorexit
  ([0xBF], .plain [.reference] []),
  ([0xC0], .plain [.reference] [.reference]),
  ([0xC1], .plain [.reference] [.int]),
  ([0xC2, 0xC3], .plain [.reference] []),
  -- multianewarray
  ([0xC5], .arrays)]

/-- The form of an opcode. -/
def form? (code : Nat) : Option Form :=
  (forms.find? fun row => row.1.contains code).map Prod.snd

/-- How control leaves an instruction. -/
inductive Control where
  | next
  /-- To a target or to the next instruction. -/
  | branch
  /-- To one of the targets. -/
  | jump
  /-- To the target; a return leads back behind the call. -/
  | call
  /-- To the instruction after any call. -/
  | back
  | stop
  deriving Repr, DecidableEq

/-- How control leaves the instructions of an opcode. -/
def control (code : Nat) : Control :=
  if 0x99 ≤ code ∧ code ≤ 0xA6 ∨ code = 0xC6 ∨ code = 0xC7 then
    .branch
  else if code = 0xA7 ∨ code = 0xC8 ∨ code = 0xAA ∨ code = 0xAB then
    .jump
  else if code = 0xA8 ∨ code = 0xC9 then
    .call
  else if code = 0xA9 then
    .back
  else if 0xAC ≤ code ∧ code ≤ 0xB1 ∨ code = 0xBF then
    .stop
  else
    .next

/-- The slot that a short load or store names by its opcode. -/
def ownSlot? (code : Nat) : Option Nat :=
  if 0x1A ≤ code ∧ code ≤ 0x2D then
    some ((code - 0x1A) % 4)
  else if 0x3B ≤ code ∧ code ≤ 0x4E then
    some ((code - 0x3B) % 4)
  else
    none

/-- The slot that an instruction uses. -/
def slot? (instruction : Instruction) : Option Nat :=
  match ownSlot? instruction.opcode.code with
  | some slot => some slot
  | none => instruction.operand.slot?

/-- What an instruction does to slots and stack. -/
inductive Action where
  /-- Push the reference to a string literal. -/
  | literal (text : Text)
  /-- Take values of some types and give values of others. -/
  | exchange (takes gives : List ValueType)
  | load (slot : Nat) (type : ValueType)
  | store (slot : Nat) (type : ValueType)
  /-- Change the number in a slot. -/
  | increment (slot : Nat)
  /-- Read an address from a slot. -/
  | inspect (slot : Nat)
  | shuffle (kind : Shuffle)
  deriving Repr, DecidableEq

/-- The exchange of values when a field of a type is read or written. -/
def fieldAction
    (receiver : List ValueType)
    (reads : Bool)
    (type : FieldType) : Action :=
  if reads then
    .exchange receiver [.ofField type]
  else
    .exchange (receiver ++ [.ofField type]) []

/-- The exchange of values when a method of a type is called. -/
def callAction
    (receiver : List ValueType)
    (type : MethodType) : Action :=
  .exchange (receiver ++ type.parameters.map .ofField)
    (type.result.toList.map .ofField)

/-- The action of an instruction; one without has no meaning. -/
def action? (instruction : Instruction) : Option Action :=
  match form? instruction.opcode.code, instruction.operand with
  | some (.plain takes gives), _ => some (.exchange takes gives)
  | some .constant, .constant (.string text) => some (.literal text)
  | some .constant, .constant constant => some (.exchange [] [.ofConstant constant])
  | some (.load type), _ => (slot? instruction).map fun slot => .load slot type
  | some (.store type), _ => (slot? instruction).map fun slot => .store slot type
  | some .increment, _ => (slot? instruction).map .increment
  | some .subroutineReturn, _ => (slot? instruction).map .inspect
  | some (.shuffle kind), _ => some (.shuffle kind)
  | some (.field receiver reads), .member member =>
      ((FieldType.parse member.descriptor).map
        (fieldAction receiver reads)).toOption
  | some (.call receiver), .member member =>
      ((MethodType.parse member.descriptor).map
        (callAction receiver)).toOption
  | some .arrays, .arrayClass _ dimensions =>
      some (.exchange (List.replicate dimensions .int) [.reference])
  | _, _ => none

/-- A word of the machine. -/
inductive Word where
  /-- The reference to a string literal. -/
  | literal (text : Text)
  | other (content : Nat)
  deriving Repr, DecidableEq

/-- Local slots and the words on the stack, the top of the stack last. -/
structure Memory where
  locals : List Word
  stack : List Word
  deriving Repr, DecidableEq

/-- What a rearrangement makes of the uppermost words, the top last. -/
inductive Shuffle.Turns : Shuffle → List Word → List Word → Prop where
  | pop (first : Word) :
      Turns .pop [first] []
  | pop2 (second first : Word) :
      Turns .pop2 [second, first] []
  | dup (first : Word) :
      Turns .dup [first] [first, first]
  | dupX1 (second first : Word) :
      Turns .dupX1 [second, first] [first, second, first]
  | dupX2 (third second first : Word) :
      Turns .dupX2 [third, second, first] [first, third, second, first]
  | dup2 (second first : Word) :
      Turns .dup2 [second, first] [second, first, second, first]
  | dup2X1 (third second first : Word) :
      Turns .dup2X1 [third, second, first]
        [second, first, third, second, first]
  | dup2X2 (fourth third second first : Word) :
      Turns .dup2X2 [fourth, third, second, first]
        [second, first, fourth, third, second, first]
  | swap (second first : Word) :
      Turns .swap [second, first] [first, second]

/-- What an action makes of a memory; words that it gives are arbitrary. -/
inductive Action.Effect : Action → Memory → Memory → Prop where
  | literal
      (locals stack : List Word)
      (text : Text) :
      Effect (.literal text)
        ⟨locals, stack⟩
        ⟨locals, stack ++ [.literal text]⟩
  | exchange
      (locals below : List Word)
      {taken given : List Word}
      {takes gives : List ValueType}
      (takenWords : taken.length = words takes)
      (givenWords : given.length = words gives) :
      Effect (.exchange takes gives)
        ⟨locals, below ++ taken⟩
        ⟨locals, below ++ given⟩
  | load
      {lower value : List Word}
      (upper stack : List Word)
      {slot : Nat}
      {type : ValueType}
      (atSlot : lower.length = slot)
      (valueWords : value.length = type.words) :
      Effect (.load slot type)
        ⟨lower ++ value ++ upper, stack⟩
        ⟨lower ++ value ++ upper, stack ++ value⟩
  | store
      {lower old value : List Word}
      (upper below : List Word)
      {slot : Nat}
      {type : ValueType}
      (atSlot : lower.length = slot)
      (oldWords : old.length = type.words)
      (valueWords : value.length = type.words) :
      Effect (.store slot type)
        ⟨lower ++ old ++ upper, below ++ value⟩
        ⟨lower ++ value ++ upper, below⟩
  | increment
      {lower : List Word}
      (old new : Word)
      (upper stack : List Word)
      {slot : Nat}
      (atSlot : lower.length = slot) :
      Effect (.increment slot)
        ⟨lower ++ old :: upper, stack⟩
        ⟨lower ++ new :: upper, stack⟩
  | inspect
      {lower : List Word}
      (address : Word)
      (upper stack : List Word)
      {slot : Nat}
      (atSlot : lower.length = slot) :
      Effect (.inspect slot)
        ⟨lower ++ address :: upper, stack⟩
        ⟨lower ++ address :: upper, stack⟩
  | shuffle
      (locals below : List Word)
      {kind : Shuffle}
      {top changed : List Word}
      (turns : kind.Turns top changed) :
      Effect (.shuffle kind)
        ⟨locals, below ++ top⟩
        ⟨locals, below ++ changed⟩

/-- An instruction turns one memory into another. -/
def Runs (instruction : Instruction) (before after : Memory) : Prop :=
  ∃ action, action? instruction = some action ∧ action.Effect before after

/-- The instructions of a method, its exception table and its number of slots. -/
structure Program where
  instructions : List Instruction
  handlers : List Handler
  maxLocals : Nat
  deriving Repr, DecidableEq

namespace Program

open Code (StartsAt)

/-- Control may go from an instruction at an index to another index. -/
inductive Successor
    (program : Program)
    (index : Nat)
    (instruction : Instruction) :
    Nat → Prop where
  | next
      (goesOn :
        control instruction.opcode.code = .next ∨
          control instruction.opcode.code = .branch) :
      Successor program index instruction (index + 1)
  | target
      {target : Nat}
      {offset : Int}
      (jumps :
        control instruction.opcode.code = .branch ∨
          control instruction.opcode.code = .jump ∨
            control instruction.opcode.code = .call)
      (isTarget : offset ∈ instruction.operand.targets)
      (lands : StartsAt program.instructions target offset) :
      Successor program index instruction target
  | back
      {caller : Nat}
      {call : Instruction}
      (returns : control instruction.opcode.code = .back)
      (present : program.instructions[caller]? = some call)
      (calls : control call.opcode.code = .call)
      (follows : caller + 1 < program.instructions.length) :
      Successor program index instruction (caller + 1)

/-- An instruction may raise an exception that is handled at an index. -/
def Raises
    (program : Program)
    (instruction : Instruction)
    (target : Nat) : Prop :=
  ∃ handler ∈ program.handlers,
    handler.start ≤ instruction.offset ∧
      (instruction.offset : Int) < handler.stop ∧
        StartsAt program.instructions target handler.target

/-- One step of the machine at an index with a memory. -/
inductive Step (program : Program) : Nat × Memory → Nat × Memory → Prop where
  | run
      {index target : Nat}
      {instruction : Instruction}
      {before after : Memory}
      (present : program.instructions[index]? = some instruction)
      (runs : Runs instruction before after)
      (leads : program.Successor index instruction target) :
      Step program (index, before) (target, after)
  | raiseBefore
      {index target : Nat}
      {instruction : Instruction}
      {before : Memory}
      (thrown : Word)
      (present : program.instructions[index]? = some instruction)
      (raises : program.Raises instruction target) :
      Step program (index, before) (target, ⟨before.locals, [thrown]⟩)
  | raiseAfter
      {index target : Nat}
      {instruction : Instruction}
      {before after : Memory}
      (thrown : Word)
      (present : program.instructions[index]? = some instruction)
      (runs : Runs instruction before after)
      (raises : program.Raises instruction target) :
      Step program (index, before) (target, ⟨after.locals, [thrown]⟩)

/-- An execution from the entry comes to an index with a memory. -/
def Reaches (program : Program) (index : Nat) (memory : Memory) : Prop :=
  ∃ locals : List Word,
    locals.length = program.maxLocals ∧
      Relation.ReflTransGen program.Step (0, ⟨locals, []⟩) (index, memory)

/--
No execution gets stuck or leaves the code: where one comes to, there is an
instruction that can run, and all jumps and handlers lead to instructions.
-/
structure Safe (program : Program) : Prop where
  runs :
    ∀ {index memory},
      program.Reaches index memory →
      ∃ instruction after,
        program.instructions[index]? = some instruction ∧
          Runs instruction memory after
  targets :
    ∀ {instruction offset},
      instruction ∈ program.instructions →
      offset ∈ instruction.operand.targets →
      ∃ target, StartsAt program.instructions target offset
  handlers :
    ∀ {handler},
      handler ∈ program.handlers →
      ∃ target, StartsAt program.instructions target handler.target

end Program

end KeyAudit.Machine
