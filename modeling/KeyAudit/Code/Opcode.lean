namespace KeyAudit

/-!
# Opcodes

One row describes each opcode: its mnemonic, what kind of instruction it is,
how its operands are laid out and, where they are fixed, the numbers of words
that it pops and pushes.  The analysis takes the effect of every instruction
that it does not treat specially from here.
-/

/-- What an instruction does, coarsely. -/
inductive InstructionKind where
  | nop | constant | load | store | increment | stack | array | arithmetic | conversion
  | compare | branch | jump | call | callReturn | switch | exit | throwing | field | invoke
  | allocation | typeTest | monitor | wide
  deriving Repr, DecidableEq

namespace InstructionKind

/-- The name of a kind in listings. -/
def label : InstructionKind → String
  | .nop => "nop"
  | .constant => "constant"
  | .load => "load"
  | .store => "store"
  | .increment => "iinc"
  | .stack => "stack"
  | .array => "array"
  | .arithmetic => "arithmetic"
  | .conversion => "conversion"
  | .compare => "compare"
  | .branch => "branch"
  | .jump => "goto"
  | .call => "jsr"
  | .callReturn => "ret"
  | .switch => "switch"
  | .exit => "return"
  | .throwing => "throw"
  | .field => "field"
  | .invoke => "invoke"
  | .allocation => "new"
  | .typeTest => "type"
  | .monitor => "monitor"
  | .wide => "wide"

/-- Whether control may go on to the next instruction. -/
def fallsThrough : InstructionKind → Bool
  | .jump | .call | .callReturn | .switch | .exit | .throwing => false
  | _ => true

end InstructionKind

/-- How the operands of an opcode are laid out. -/
inductive Layout where
  /-- No operand. -/
  | none
  /-- No operand; the opcode itself names a local slot. -/
  | implied (slot : Nat)
  | signedByte
  | byte
  | signedShort
  | short
  | signedInt
  /-- A local slot and a signed amount. -/
  | slotAndByte
  /-- A pool index, a count and a zero byte. -/
  | interfaceCall
  /-- A pool index and two zero bytes. -/
  | dynamicCall
  /-- A pool index and a count. -/
  | shortAndByte
  /-- Padding, a default, the bounds of a range of keys and a target for each key. -/
  | tableSwitch
  /-- Padding, a default, a count and as many pairs of key and target. -/
  | lookupSwitch
  /-- Another opcode, whose slot and amount follow in two bytes each. -/
  | widened
  deriving Repr, DecidableEq

/-- The short form of a layout in listings. -/
def Layout.letters : Layout → String
  | .none | .implied _ => ""
  | .signedByte => "b"
  | .byte => "B"
  | .signedShort => "h"
  | .short => "H"
  | .signedInt => "i"
  | .slotAndByte => "Bb"
  | .interfaceCall => "HBB"
  | .dynamicCall => "HBx"
  | .shortAndByte => "HB"
  | .tableSwitch => "T"
  | .lookupSwitch => "L"
  | .widened => "W"

/--
The description of one opcode.  Words popped or pushed are absent where they
depend on the operand; `words` is the width of the value that a load, a store
or a return moves.
-/
structure Opcode where
  code : Nat
  mnemonic : String
  kind : InstructionKind
  layout : Layout
  pops : Option Nat
  pushes : Option Nat
  words : Nat
  deriving Repr, DecidableEq

namespace Opcode

/-- All opcodes in ascending order. -/
def table : List Opcode := [
  ⟨0x00, "nop", .nop, .none, some 0, some 0, 1⟩,
  ⟨0x01, "aconst_null", .constant, .none, some 0, some 1, 1⟩,
  ⟨0x02, "iconst_m1", .constant, .none, some 0, some 1, 1⟩,
  ⟨0x03, "iconst_0", .constant, .none, some 0, some 1, 1⟩,
  ⟨0x04, "iconst_1", .constant, .none, some 0, some 1, 1⟩,
  ⟨0x05, "iconst_2", .constant, .none, some 0, some 1, 1⟩,
  ⟨0x06, "iconst_3", .constant, .none, some 0, some 1, 1⟩,
  ⟨0x07, "iconst_4", .constant, .none, some 0, some 1, 1⟩,
  ⟨0x08, "iconst_5", .constant, .none, some 0, some 1, 1⟩,
  ⟨0x09, "lconst_0", .constant, .none, some 0, some 2, 1⟩,
  ⟨0x0A, "lconst_1", .constant, .none, some 0, some 2, 1⟩,
  ⟨0x0B, "fconst_0", .constant, .none, some 0, some 1, 1⟩,
  ⟨0x0C, "fconst_1", .constant, .none, some 0, some 1, 1⟩,
  ⟨0x0D, "fconst_2", .constant, .none, some 0, some 1, 1⟩,
  ⟨0x0E, "dconst_0", .constant, .none, some 0, some 2, 1⟩,
  ⟨0x0F, "dconst_1", .constant, .none, some 0, some 2, 1⟩,
  ⟨0x10, "bipush", .constant, .signedByte, some 0, some 1, 1⟩,
  ⟨0x11, "sipush", .constant, .signedShort, some 0, some 1, 1⟩,
  ⟨0x12, "ldc", .constant, .byte, some 0, none, 1⟩,
  ⟨0x13, "ldc_w", .constant, .short, some 0, none, 1⟩,
  ⟨0x14, "ldc2_w", .constant, .short, some 0, none, 1⟩,
  ⟨0x15, "iload", .load, .byte, some 0, some 0, 1⟩,
  ⟨0x16, "lload", .load, .byte, some 0, some 0, 2⟩,
  ⟨0x17, "fload", .load, .byte, some 0, some 0, 1⟩,
  ⟨0x18, "dload", .load, .byte, some 0, some 0, 2⟩,
  ⟨0x19, "aload", .load, .byte, some 0, some 0, 1⟩,
  ⟨0x1A, "iload_0", .load, (.implied 0), some 0, some 0, 1⟩,
  ⟨0x1B, "iload_1", .load, (.implied 1), some 0, some 0, 1⟩,
  ⟨0x1C, "iload_2", .load, (.implied 2), some 0, some 0, 1⟩,
  ⟨0x1D, "iload_3", .load, (.implied 3), some 0, some 0, 1⟩,
  ⟨0x1E, "lload_0", .load, (.implied 0), some 0, some 0, 2⟩,
  ⟨0x1F, "lload_1", .load, (.implied 1), some 0, some 0, 2⟩,
  ⟨0x20, "lload_2", .load, (.implied 2), some 0, some 0, 2⟩,
  ⟨0x21, "lload_3", .load, (.implied 3), some 0, some 0, 2⟩,
  ⟨0x22, "fload_0", .load, (.implied 0), some 0, some 0, 1⟩,
  ⟨0x23, "fload_1", .load, (.implied 1), some 0, some 0, 1⟩,
  ⟨0x24, "fload_2", .load, (.implied 2), some 0, some 0, 1⟩,
  ⟨0x25, "fload_3", .load, (.implied 3), some 0, some 0, 1⟩,
  ⟨0x26, "dload_0", .load, (.implied 0), some 0, some 0, 2⟩,
  ⟨0x27, "dload_1", .load, (.implied 1), some 0, some 0, 2⟩,
  ⟨0x28, "dload_2", .load, (.implied 2), some 0, some 0, 2⟩,
  ⟨0x29, "dload_3", .load, (.implied 3), some 0, some 0, 2⟩,
  ⟨0x2A, "aload_0", .load, (.implied 0), some 0, some 0, 1⟩,
  ⟨0x2B, "aload_1", .load, (.implied 1), some 0, some 0, 1⟩,
  ⟨0x2C, "aload_2", .load, (.implied 2), some 0, some 0, 1⟩,
  ⟨0x2D, "aload_3", .load, (.implied 3), some 0, some 0, 1⟩,
  ⟨0x2E, "iaload", .array, .none, some 2, some 1, 1⟩,
  ⟨0x2F, "laload", .array, .none, some 2, some 2, 1⟩,
  ⟨0x30, "faload", .array, .none, some 2, some 1, 1⟩,
  ⟨0x31, "daload", .array, .none, some 2, some 2, 1⟩,
  ⟨0x32, "aaload", .array, .none, some 2, some 1, 1⟩,
  ⟨0x33, "baload", .array, .none, some 2, some 1, 1⟩,
  ⟨0x34, "caload", .array, .none, some 2, some 1, 1⟩,
  ⟨0x35, "saload", .array, .none, some 2, some 1, 1⟩,
  ⟨0x36, "istore", .store, .byte, some 0, some 0, 1⟩,
  ⟨0x37, "lstore", .store, .byte, some 0, some 0, 2⟩,
  ⟨0x38, "fstore", .store, .byte, some 0, some 0, 1⟩,
  ⟨0x39, "dstore", .store, .byte, some 0, some 0, 2⟩,
  ⟨0x3A, "astore", .store, .byte, some 0, some 0, 1⟩,
  ⟨0x3B, "istore_0", .store, (.implied 0), some 0, some 0, 1⟩,
  ⟨0x3C, "istore_1", .store, (.implied 1), some 0, some 0, 1⟩,
  ⟨0x3D, "istore_2", .store, (.implied 2), some 0, some 0, 1⟩,
  ⟨0x3E, "istore_3", .store, (.implied 3), some 0, some 0, 1⟩,
  ⟨0x3F, "lstore_0", .store, (.implied 0), some 0, some 0, 2⟩,
  ⟨0x40, "lstore_1", .store, (.implied 1), some 0, some 0, 2⟩,
  ⟨0x41, "lstore_2", .store, (.implied 2), some 0, some 0, 2⟩,
  ⟨0x42, "lstore_3", .store, (.implied 3), some 0, some 0, 2⟩,
  ⟨0x43, "fstore_0", .store, (.implied 0), some 0, some 0, 1⟩,
  ⟨0x44, "fstore_1", .store, (.implied 1), some 0, some 0, 1⟩,
  ⟨0x45, "fstore_2", .store, (.implied 2), some 0, some 0, 1⟩,
  ⟨0x46, "fstore_3", .store, (.implied 3), some 0, some 0, 1⟩,
  ⟨0x47, "dstore_0", .store, (.implied 0), some 0, some 0, 2⟩,
  ⟨0x48, "dstore_1", .store, (.implied 1), some 0, some 0, 2⟩,
  ⟨0x49, "dstore_2", .store, (.implied 2), some 0, some 0, 2⟩,
  ⟨0x4A, "dstore_3", .store, (.implied 3), some 0, some 0, 2⟩,
  ⟨0x4B, "astore_0", .store, (.implied 0), some 0, some 0, 1⟩,
  ⟨0x4C, "astore_1", .store, (.implied 1), some 0, some 0, 1⟩,
  ⟨0x4D, "astore_2", .store, (.implied 2), some 0, some 0, 1⟩,
  ⟨0x4E, "astore_3", .store, (.implied 3), some 0, some 0, 1⟩,
  ⟨0x4F, "iastore", .array, .none, some 3, some 0, 1⟩,
  ⟨0x50, "lastore", .array, .none, some 4, some 0, 1⟩,
  ⟨0x51, "fastore", .array, .none, some 3, some 0, 1⟩,
  ⟨0x52, "dastore", .array, .none, some 4, some 0, 1⟩,
  ⟨0x53, "aastore", .array, .none, some 3, some 0, 1⟩,
  ⟨0x54, "bastore", .array, .none, some 3, some 0, 1⟩,
  ⟨0x55, "castore", .array, .none, some 3, some 0, 1⟩,
  ⟨0x56, "sastore", .array, .none, some 3, some 0, 1⟩,
  ⟨0x57, "pop", .stack, .none, none, none, 1⟩,
  ⟨0x58, "pop2", .stack, .none, none, none, 1⟩,
  ⟨0x59, "dup", .stack, .none, none, none, 1⟩,
  ⟨0x5A, "dup_x1", .stack, .none, none, none, 1⟩,
  ⟨0x5B, "dup_x2", .stack, .none, none, none, 1⟩,
  ⟨0x5C, "dup2", .stack, .none, none, none, 1⟩,
  ⟨0x5D, "dup2_x1", .stack, .none, none, none, 1⟩,
  ⟨0x5E, "dup2_x2", .stack, .none, none, none, 1⟩,
  ⟨0x5F, "swap", .stack, .none, none, none, 1⟩,
  ⟨0x60, "iadd", .arithmetic, .none, some 2, some 1, 1⟩,
  ⟨0x61, "ladd", .arithmetic, .none, some 4, some 2, 1⟩,
  ⟨0x62, "fadd", .arithmetic, .none, some 2, some 1, 1⟩,
  ⟨0x63, "dadd", .arithmetic, .none, some 4, some 2, 1⟩,
  ⟨0x64, "isub", .arithmetic, .none, some 2, some 1, 1⟩,
  ⟨0x65, "lsub", .arithmetic, .none, some 4, some 2, 1⟩,
  ⟨0x66, "fsub", .arithmetic, .none, some 2, some 1, 1⟩,
  ⟨0x67, "dsub", .arithmetic, .none, some 4, some 2, 1⟩,
  ⟨0x68, "imul", .arithmetic, .none, some 2, some 1, 1⟩,
  ⟨0x69, "lmul", .arithmetic, .none, some 4, some 2, 1⟩,
  ⟨0x6A, "fmul", .arithmetic, .none, some 2, some 1, 1⟩,
  ⟨0x6B, "dmul", .arithmetic, .none, some 4, some 2, 1⟩,
  ⟨0x6C, "idiv", .arithmetic, .none, some 2, some 1, 1⟩,
  ⟨0x6D, "ldiv", .arithmetic, .none, some 4, some 2, 1⟩,
  ⟨0x6E, "fdiv", .arithmetic, .none, some 2, some 1, 1⟩,
  ⟨0x6F, "ddiv", .arithmetic, .none, some 4, some 2, 1⟩,
  ⟨0x70, "irem", .arithmetic, .none, some 2, some 1, 1⟩,
  ⟨0x71, "lrem", .arithmetic, .none, some 4, some 2, 1⟩,
  ⟨0x72, "frem", .arithmetic, .none, some 2, some 1, 1⟩,
  ⟨0x73, "drem", .arithmetic, .none, some 4, some 2, 1⟩,
  ⟨0x74, "ineg", .arithmetic, .none, some 1, some 1, 1⟩,
  ⟨0x75, "lneg", .arithmetic, .none, some 2, some 2, 1⟩,
  ⟨0x76, "fneg", .arithmetic, .none, some 1, some 1, 1⟩,
  ⟨0x77, "dneg", .arithmetic, .none, some 2, some 2, 1⟩,
  ⟨0x78, "ishl", .arithmetic, .none, some 2, some 1, 1⟩,
  ⟨0x79, "lshl", .arithmetic, .none, some 3, some 2, 1⟩,
  ⟨0x7A, "ishr", .arithmetic, .none, some 2, some 1, 1⟩,
  ⟨0x7B, "lshr", .arithmetic, .none, some 3, some 2, 1⟩,
  ⟨0x7C, "iushr", .arithmetic, .none, some 2, some 1, 1⟩,
  ⟨0x7D, "lushr", .arithmetic, .none, some 3, some 2, 1⟩,
  ⟨0x7E, "iand", .arithmetic, .none, some 2, some 1, 1⟩,
  ⟨0x7F, "land", .arithmetic, .none, some 4, some 2, 1⟩,
  ⟨0x80, "ior", .arithmetic, .none, some 2, some 1, 1⟩,
  ⟨0x81, "lor", .arithmetic, .none, some 4, some 2, 1⟩,
  ⟨0x82, "ixor", .arithmetic, .none, some 2, some 1, 1⟩,
  ⟨0x83, "lxor", .arithmetic, .none, some 4, some 2, 1⟩,
  ⟨0x84, "iinc", .increment, .slotAndByte, some 0, some 0, 1⟩,
  ⟨0x85, "i2l", .conversion, .none, some 1, some 2, 1⟩,
  ⟨0x86, "i2f", .conversion, .none, some 1, some 1, 1⟩,
  ⟨0x87, "i2d", .conversion, .none, some 1, some 2, 1⟩,
  ⟨0x88, "l2i", .conversion, .none, some 2, some 1, 1⟩,
  ⟨0x89, "l2f", .conversion, .none, some 2, some 1, 1⟩,
  ⟨0x8A, "l2d", .conversion, .none, some 2, some 2, 1⟩,
  ⟨0x8B, "f2i", .conversion, .none, some 1, some 1, 1⟩,
  ⟨0x8C, "f2l", .conversion, .none, some 1, some 2, 1⟩,
  ⟨0x8D, "f2d", .conversion, .none, some 1, some 2, 1⟩,
  ⟨0x8E, "d2i", .conversion, .none, some 2, some 1, 1⟩,
  ⟨0x8F, "d2l", .conversion, .none, some 2, some 2, 1⟩,
  ⟨0x90, "d2f", .conversion, .none, some 2, some 1, 1⟩,
  ⟨0x91, "i2b", .conversion, .none, some 1, some 1, 1⟩,
  ⟨0x92, "i2c", .conversion, .none, some 1, some 1, 1⟩,
  ⟨0x93, "i2s", .conversion, .none, some 1, some 1, 1⟩,
  ⟨0x94, "lcmp", .compare, .none, some 4, some 1, 1⟩,
  ⟨0x95, "fcmpl", .compare, .none, some 2, some 1, 1⟩,
  ⟨0x96, "fcmpg", .compare, .none, some 2, some 1, 1⟩,
  ⟨0x97, "dcmpl", .compare, .none, some 4, some 1, 1⟩,
  ⟨0x98, "dcmpg", .compare, .none, some 4, some 1, 1⟩,
  ⟨0x99, "ifeq", .branch, .signedShort, some 1, some 0, 1⟩,
  ⟨0x9A, "ifne", .branch, .signedShort, some 1, some 0, 1⟩,
  ⟨0x9B, "iflt", .branch, .signedShort, some 1, some 0, 1⟩,
  ⟨0x9C, "ifge", .branch, .signedShort, some 1, some 0, 1⟩,
  ⟨0x9D, "ifgt", .branch, .signedShort, some 1, some 0, 1⟩,
  ⟨0x9E, "ifle", .branch, .signedShort, some 1, some 0, 1⟩,
  ⟨0x9F, "if_icmpeq", .branch, .signedShort, some 2, some 0, 1⟩,
  ⟨0xA0, "if_icmpne", .branch, .signedShort, some 2, some 0, 1⟩,
  ⟨0xA1, "if_icmplt", .branch, .signedShort, some 2, some 0, 1⟩,
  ⟨0xA2, "if_icmpge", .branch, .signedShort, some 2, some 0, 1⟩,
  ⟨0xA3, "if_icmpgt", .branch, .signedShort, some 2, some 0, 1⟩,
  ⟨0xA4, "if_icmple", .branch, .signedShort, some 2, some 0, 1⟩,
  ⟨0xA5, "if_acmpeq", .branch, .signedShort, some 2, some 0, 1⟩,
  ⟨0xA6, "if_acmpne", .branch, .signedShort, some 2, some 0, 1⟩,
  ⟨0xA7, "goto", .jump, .signedShort, some 0, some 0, 1⟩,
  ⟨0xA8, "jsr", .call, .signedShort, some 0, some 1, 1⟩,
  ⟨0xA9, "ret", .callReturn, .byte, some 0, some 0, 1⟩,
  ⟨0xAA, "tableswitch", .switch, .tableSwitch, some 1, some 0, 1⟩,
  ⟨0xAB, "lookupswitch", .switch, .lookupSwitch, some 1, some 0, 1⟩,
  ⟨0xAC, "ireturn", .exit, .none, some 1, some 0, 1⟩,
  ⟨0xAD, "lreturn", .exit, .none, some 2, some 0, 2⟩,
  ⟨0xAE, "freturn", .exit, .none, some 1, some 0, 1⟩,
  ⟨0xAF, "dreturn", .exit, .none, some 2, some 0, 2⟩,
  ⟨0xB0, "areturn", .exit, .none, some 1, some 0, 1⟩,
  ⟨0xB1, "return", .exit, .none, some 0, some 0, 0⟩,
  ⟨0xB2, "getstatic", .field, .short, none, none, 1⟩,
  ⟨0xB3, "putstatic", .field, .short, none, none, 1⟩,
  ⟨0xB4, "getfield", .field, .short, none, none, 1⟩,
  ⟨0xB5, "putfield", .field, .short, none, none, 1⟩,
  ⟨0xB6, "invokevirtual", .invoke, .short, none, none, 1⟩,
  ⟨0xB7, "invokespecial", .invoke, .short, none, none, 1⟩,
  ⟨0xB8, "invokestatic", .invoke, .short, none, none, 1⟩,
  ⟨0xB9, "invokeinterface", .invoke, .interfaceCall, none, none, 1⟩,
  ⟨0xBA, "invokedynamic", .invoke, .dynamicCall, none, none, 1⟩,
  ⟨0xBB, "new", .allocation, .short, some 0, some 1, 1⟩,
  ⟨0xBC, "newarray", .allocation, .byte, some 1, some 1, 1⟩,
  ⟨0xBD, "anewarray", .allocation, .short, some 1, some 1, 1⟩,
  ⟨0xBE, "arraylength", .array, .none, some 1, some 1, 1⟩,
  ⟨0xBF, "athrow", .throwing, .none, some 1, some 0, 1⟩,
  ⟨0xC0, "checkcast", .typeTest, .short, some 1, some 1, 1⟩,
  ⟨0xC1, "instanceof", .typeTest, .short, some 1, some 1, 1⟩,
  ⟨0xC2, "monitorenter", .monitor, .none, some 1, some 0, 1⟩,
  ⟨0xC3, "monitorexit", .monitor, .none, some 1, some 0, 1⟩,
  ⟨0xC4, "wide", .wide, .widened, some 0, some 0, 1⟩,
  ⟨0xC5, "multianewarray", .allocation, .shortAndByte, none, some 1, 1⟩,
  ⟨0xC6, "ifnull", .branch, .signedShort, some 1, some 0, 1⟩,
  ⟨0xC7, "ifnonnull", .branch, .signedShort, some 1, some 0, 1⟩,
  ⟨0xC8, "goto_w", .jump, .signedInt, some 0, some 0, 1⟩,
  ⟨0xC9, "jsr_w", .call, .signedInt, some 0, some 1, 1⟩]

/-- The opcode with a number. -/
def ofCode? (code : Nat) : Option Opcode :=
  table.find? fun opcode => opcode.code == code

/-- Whether an opcode has a form with a two-byte slot. -/
def isWidenable (opcode : Opcode) : Bool :=
  match opcode.kind, opcode.layout with
  | .load, .byte | .store, .byte | .callReturn, .byte | .increment, .slotAndByte => true
  | _, _ => false

/-- Whether an invocation has no receiver on the stack. -/
def isStaticCall (opcode : Opcode) : Bool :=
  opcode.code == 0xB8 || opcode.code == 0xBA

/--
What a rearrangement of the stack does: how many words it takes off and which
of them, counted from the deepest, it puts back.
-/
def rearrangement? (opcode : Opcode) : Option (Nat × List Nat) :=
  match opcode.code with
  | 0x57 => some (1, [])
  | 0x58 => some (2, [])
  | 0x59 => some (1, [0, 0])
  | 0x5A => some (2, [1, 0, 1])
  | 0x5B => some (3, [2, 0, 1, 2])
  | 0x5C => some (2, [0, 1, 0, 1])
  | 0x5D => some (3, [1, 2, 0, 1, 2])
  | 0x5E => some (4, [2, 3, 0, 1, 2, 3])
  | 0x5F => some (2, [1, 0])
  | _ => none

end Opcode

end KeyAudit
