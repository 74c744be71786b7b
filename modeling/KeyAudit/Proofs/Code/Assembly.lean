import KeyAudit.Code.Instruction
import KeyAudit.Proofs.Class.Cursor
import KeyAudit.Proofs.Class.Lookup

namespace KeyAudit.Assembly

/-!
# Assembled code

A command is an instruction before it is placed: an opcode with operands in the
range of their fields, pool indices that are not resolved and jump targets as
offsets from the start of the code.  The commands are those of the instruction
set by number; nothing is taken from the opcode table of the decoder.

Assembling places commands one after the other.  Numbers are big-endian, jumps
are relative to the offset of their command, and the operands of a switch begin
at a multiple of four.
-/

/-- The opcodes from a first to a last one. -/
def span (first last : Nat) : List UInt8 :=
  (List.range' first (last + 1 - first)).map UInt8.ofNat

/-- The opcodes that have neither an operand nor a slot of their own. -/
def plainCodes : List UInt8 :=
  span 0x00 0x0F ++ span 0x2E 0x35 ++ span 0x4F 0x83 ++ span 0x85 0x98 ++
    span 0xAC 0xB1 ++ [0xBE, 0xBF, 0xC2, 0xC3]

/-- Loads and stores of a named slot, and the return from a subroutine. -/
def slotCodes : List UInt8 :=
  span 0x15 0x19 ++ span 0x36 0x3A ++ [0xA9]

/-- Branches, goto and jsr with an operand of two bytes. -/
def branchCodes : List UInt8 :=
  span 0x99 0xA8 ++ [0xC6, 0xC7]

/-- The accesses to fields, and the calls by an index alone. -/
def memberCodes : List UInt8 :=
  span 0xB2 0xB8

/-- new, anewarray, checkcast and instanceof. -/
def classCodes : List UInt8 :=
  [0xBB, 0xBD, 0xC0, 0xC1]

/-- An instruction before it is placed. -/
inductive Command where
  | plain (code : UInt8) (known : code ∈ plainCodes)
  /-- A load or store of one of five types at one of the slots 0 to 3. -/
  | shortSlot (stores : Bool) (type : Fin 5) (slot : Fin 4)
  | namedSlot (code : UInt8) (known : code ∈ slotCodes) (slot : UInt8)
  | wideSlot (code : UInt8) (known : code ∈ slotCodes) (slot : UInt16)
  | increment (slot : UInt8) (amount : Int8)
  | wideIncrement (slot : UInt16) (amount : Int16)
  | pushByte (value : Int8)
  | pushShort (value : Int16)
  | constant (index : UInt8)
  | wideConstant (code : UInt8) (known : code ∈ [0x13, 0x14]) (index : UInt16)
  | branch (code : UInt8) (known : code ∈ branchCodes) (target : Nat)
  /-- goto or jsr with an operand of four bytes. -/
  | farBranch (code : UInt8) (known : code ∈ [0xC8, 0xC9]) (target : Nat)
  /-- A target for each key from the lowest to the highest. -/
  | tableSwitch
      (padding : Vector UInt8 3)
      (default : Nat)
      (low high : Int32)
      (targets : List Nat)
      (ordered : low.toInt ≤ high.toInt)
      (full : (targets.length : Int) = high.toInt - low.toInt + 1)
  | lookupSwitch
      (padding : Vector UInt8 3)
      (default : Nat)
      (cases : List (Int32 × Nat))
      (few : cases.length < 0x80000000)
  | member (code : UInt8) (known : code ∈ memberCodes) (index : UInt16)
  | interfaceCall (index : UInt16) (count zero : UInt8)
  | dynamicCall (index : UInt16) (zero secondZero : UInt8)
  | classRef (code : UInt8) (known : code ∈ classCodes) (index : UInt16)
  /-- An array of numbers or truth values. -/
  | newArray (elements : UInt8)
  | newArrays (index : UInt16) (dimensions : UInt8)

/-- The opcode of a load or store of one of the slots 0 to 3. -/
def shortSlotCode (stores : Bool) (type : Fin 5) (slot : Fin 4) : UInt8 :=
  UInt8.ofNat ((if stores then 0x3B else 0x1A) + 4 * type.val + slot.val)

/-- An integer in so many bytes. -/
def signedBytes (width : Nat) (value : Int) : Bytes :=
  Bytes.ofNat width (Bytes.unsigned width value)

/-- The relative form of a jump from an offset to a target. -/
def jumpBytes (width offset target : Nat) : Bytes :=
  signedBytes width ((target : Int) - offset)

/-- As many bytes of padding as lead from behind an opcode to a multiple of four. -/
def paddingBytes (padding : Vector UInt8 3) (offset : Nat) : Bytes :=
  padding.toList.take (3 - offset % 4)

namespace Command

/-- The opcode that does the work; the one that only widens another is none. -/
def code : Command → UInt8
  | .plain code _ | .namedSlot code _ _ | .wideSlot code _ _ => code
  | .shortSlot stores type slot => shortSlotCode stores type slot
  | .increment .. | .wideIncrement .. => 0x84
  | .pushByte _ => 0x10
  | .pushShort _ => 0x11
  | .constant _ => 0x12
  | .wideConstant code _ _ | .branch code _ _ | .farBranch code _ _ => code
  | .tableSwitch .. => 0xAA
  | .lookupSwitch .. => 0xAB
  | .member code _ _ | .classRef code _ _ => code
  | .interfaceCall .. => 0xB9
  | .dynamicCall .. => 0xBA
  | .newArray _ => 0xBC
  | .newArrays .. => 0xC5

/-- Whether the slot is written in two bytes. -/
def isWide : Command → Bool
  | .wideSlot .. | .wideIncrement .. => true
  | _ => false

/-- The bytes behind the opcode of a command at an offset. -/
def operandBytes (offset : Nat) : Command → Bytes
  | .plain .. | .shortSlot .. => []
  | .namedSlot _ _ slot => [slot]
  | .wideSlot _ _ slot => Bytes.ofNat 2 slot.toNat
  | .increment slot amount => slot :: signedBytes 1 amount.toInt
  | .wideIncrement slot amount =>
      Bytes.ofNat 2 slot.toNat ++ signedBytes 2 amount.toInt
  | .pushByte value => signedBytes 1 value.toInt
  | .pushShort value => signedBytes 2 value.toInt
  | .constant index => [index]
  | .wideConstant _ _ index => Bytes.ofNat 2 index.toNat
  | .branch _ _ target => jumpBytes 2 offset target
  | .farBranch _ _ target => jumpBytes 4 offset target
  | .tableSwitch padding default low high targets _ _ =>
      paddingBytes padding offset ++ (jumpBytes 4 offset default ++
        (signedBytes 4 low.toInt ++ (signedBytes 4 high.toInt ++
          targets.flatMap (jumpBytes 4 offset))))
  | .lookupSwitch padding default cases _ =>
      paddingBytes padding offset ++ (jumpBytes 4 offset default ++
        (Bytes.ofNat 4 cases.length ++
          cases.flatMap fun (key, target) =>
            signedBytes 4 key.toInt ++ jumpBytes 4 offset target))
  | .member _ _ index | .classRef _ _ index => Bytes.ofNat 2 index.toNat
  | .interfaceCall index count zero => Bytes.ofNat 2 index.toNat ++ [count, zero]
  | .dynamicCall index zero secondZero =>
      Bytes.ofNat 2 index.toNat ++ [zero, secondZero]
  | .newArray elements => [elements]
  | .newArrays index dimensions => Bytes.ofNat 2 index.toNat ++ [dimensions]

/-- The bytes of a command at an offset. -/
def encode (offset : Nat) (command : Command) : Bytes :=
  if command.isWide then
    0xC4 :: command.code :: command.operandBytes offset
  else
    command.code :: command.operandBytes offset

/-- All jump targets, the default one first. -/
def targets : Command → List Nat
  | .branch _ _ target | .farBranch _ _ target => [target]
  | .tableSwitch _ default _ _ targets _ _ => default :: targets
  | .lookupSwitch _ default cases _ => default :: cases.map Prod.snd
  | _ => []

/-- The number of bytes of a relative jump. -/
def jumpWidth : Command → Nat
  | .branch .. => 2
  | _ => 4

/-- Every relative jump of a command at an offset fits its field. -/
def JumpsFit (command : Command) (offset : Nat) : Prop :=
  ∀ target ∈ command.targets,
    Bytes.FitsSigned command.jumpWidth ((target : Int) - offset)

instance
    (command : Command)
    (offset : Nat) :
    Decidable (command.JumpsFit offset) :=
  inferInstanceAs (Decidable (∀ target ∈ command.targets, _))

/-- The operand that a command stands for under a pool that resolves its index. -/
inductive Denotes (pool : Pool) : Command → Operand → Prop where
  | plain {code known} :
      Denotes pool (.plain code known) .none
  | shortSlot {stores type slot} :
      Denotes pool (.shortSlot stores type slot) (.slot slot)
  | namedSlot {code known slot} :
      Denotes pool (.namedSlot code known slot) (.slot slot.toNat)
  | wideSlot {code known slot} :
      Denotes pool (.wideSlot code known slot) (.slot slot.toNat)
  | increment {slot amount} :
      Denotes pool (.increment slot amount)
        (.increment slot.toNat amount.toInt)
  | wideIncrement {slot amount} :
      Denotes pool (.wideIncrement slot amount)
        (.increment slot.toNat amount.toInt)
  | pushByte {value} :
      Denotes pool (.pushByte value) (.immediate value.toInt)
  | pushShort {value} :
      Denotes pool (.pushShort value) (.immediate value.toInt)
  | constant {index value}
      (has : pool.HasConstant index.toNat value) :
      Denotes pool (.constant index) (.constant value)
  | wideConstant {code known index value}
      (has : pool.HasConstant index.toNat value) :
      Denotes pool (.wideConstant code known index) (.constant value)
  | branch {code known target} :
      Denotes pool (.branch code known target) (.jump target)
  | farBranch {code known target} :
      Denotes pool (.farBranch code known target) (.jump target)
  | tableSwitch {padding default low high targets ordered full} :
      Denotes pool
        (.tableSwitch padding default low high targets ordered full)
        (.switch default
          (targets.mapIdx fun position (target : Nat) =>
            (low.toInt + position, (target : Int))))
  | lookupSwitch {padding default cases few} :
      Denotes pool (.lookupSwitch padding default cases few)
        (.switch default
          (cases.map fun (key, target) => (key.toInt, (target : Int))))
  | member {code known index member}
      (has : pool.HasMember index.toNat member) :
      Denotes pool (.member code known index) (.member member)
  | interfaceCall {index count zero member}
      (has : pool.HasMember index.toNat member) :
      Denotes pool (.interfaceCall index count zero) (.member member)
  | dynamicCall {index zero secondZero member}
      (has : pool.HasDynamicMember index.toNat member) :
      Denotes pool (.dynamicCall index zero secondZero) (.member member)
  | classRef {code known index name}
      (has : pool.HasClass index.toNat name) :
      Denotes pool (.classRef code known index) (.classRef name)
  | newArray {elements} :
      Denotes pool (.newArray elements) (.immediate elements.toNat)
  | newArrays {index dimensions name}
      (has : pool.HasClass index.toNat name) :
      Denotes pool (.newArrays index dimensions)
        (.arrayClass name dimensions.toNat)

/-- An instruction is what a command is as the one with an index at an offset. -/
structure Describes
    (pool : Pool)
    (command : Command)
    (index offset : Nat)
    (instruction : Instruction) : Prop where
  indexEq : instruction.index = index
  offsetEq : instruction.offset = offset
  lengthEq : instruction.length = (command.encode offset).length
  row : instruction.opcode ∈ Opcode.table
  codeEq : instruction.opcode.code = command.code.toNat
  denotes : command.Denotes pool instruction.operand
  wideEq : instruction.wide = command.isWide

theorem encode_ne_nil
    (command : Command)
    (offset : Nat) :
    command.encode offset ≠ [] := by
  unfold encode
  split <;> simp

/-- The targets of an operand are those of its command. -/
theorem Denotes.targets
    {pool : Pool}
    {command : Command}
    {operand : Operand}
    (denotes : command.Denotes pool operand) :
    operand.targets = command.targets.map fun (target : Nat) => (target : Int) := by
  cases denotes with
  | tableSwitch =>
      rename_i default low high targets ordered full
      have seconds :
          (targets.mapIdx fun position (target : Nat) =>
            (low.toInt + position, (target : Int))).map Prod.snd =
              targets.map fun (target : Nat) => (target : Int) := by
        apply List.ext_getElem?
        intro position
        simp only [List.getElem?_map, List.getElem?_mapIdx, Option.map_map]
        rfl
      simp [Operand.targets, Command.targets, seconds]
  | lookupSwitch =>
      simp [Operand.targets, Command.targets]
  | _ =>
      rfl

end Command

/-- Commands with the offsets at which they come to lie. -/
def placed : (offset : Nat) → List Command → List (Nat × Command)
  | _, [] => []
  | offset, command :: commands =>
      (offset, command) ::
        placed (offset + (command.encode offset).length) commands

/-- The bytes of placed commands. -/
def bytesOf (commands : List (Nat × Command)) : Bytes :=
  commands.flatMap fun (offset, command) => command.encode offset

/-- The code array of commands. -/
def assemble (commands : List Command) : Bytes :=
  bytesOf (placed 0 commands)

theorem assemble_ne_nil
    {commands : List Command}
    (nonempty : commands ≠ []) :
    assemble commands ≠ [] := by
  obtain ⟨command, others, rfl⟩ := List.exists_cons_of_ne_nil nonempty
  exact List.append_ne_nil_of_left_ne_nil (command.encode_ne_nil 0) _

/-- The offsets at which commands begin. -/
def starts (commands : List Command) : List Nat :=
  (placed 0 commands).map Prod.fst

/-- Instructions are what placed commands are, one by one and in order. -/
def Lists
    (pool : Pool)
    (index : Nat)
    (commands : List (Nat × Command))
    (instructions : List Instruction) : Prop :=
  List.Forall₂
    (fun ((offset, command), index) instruction =>
      command.Describes pool index offset instruction)
    (commands.zipIdx index) instructions

end KeyAudit.Assembly
