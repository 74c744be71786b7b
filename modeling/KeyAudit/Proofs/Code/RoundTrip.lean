import KeyAudit.Proofs.Code.Assembly
import KeyAudit.Proofs.Code.Decoded

namespace KeyAudit

/-!
# Decoding undoes assembling

Each field is read back where it was written, so each command is read back as
the instruction that it is at its place, whatever follows it.  The decoder then
finds exactly the commands that were assembled.
-/

namespace Decoding

open Cursor

theorem bytes_read
    (bytes : Bytes)
    (offset : Nat) :
    Reads (number bytes.length) offset bytes bytes.toNat := by
  intro rest
  simp only [number, Bytes.split?_append]

theorem byte_read
    (byte : UInt8)
    (offset : Nat) :
    Reads (number 1) offset [byte] byte.toNat := by
  have read := bytes_read [byte] offset
  rwa [show Bytes.toNat [byte] = byte.toNat by simp [Bytes.toNat]] at read

theorem number_reads
    {width number : Nat}
    (fits : number < Nat.pow 256 width)
    (offset : Nat) :
    Reads (Decoding.number width) offset (Bytes.ofNat width number)
      number := by
  have read := bytes_read (Bytes.ofNat width number) offset
  rwa [Bytes.length_ofNat, Bytes.toNat_ofNat fits] at read

theorem short_read
    (value : UInt16)
    (offset : Nat) :
    Reads (number 2) offset (Bytes.ofNat 2 value.toNat) value.toNat :=
  number_reads value.toNat_lt offset

theorem signed_read
    {width : Nat}
    {value : Int}
    (fits : Bytes.FitsSigned width value)
    (offset : Nat) :
    Reads (signedNumber width) offset (Assembly.signedBytes width value)
      value := by
  have read :=
    (number_reads (Bytes.unsigned_lt width value) offset).map
      (Bytes.signed width)
  rwa [Bytes.signed_unsigned fits] at read

theorem jump_back
    (base target : Nat) :
    (base : Int) + ((target : Int) - base) = target := by
  omega

/-- A jump is read relative to its instruction and counted from the start again. -/
theorem jump_read
    {Value : Type}
    {width base target : Nat}
    (fits : Bytes.FitsSigned width ((target : Int) - base))
    (use : Int → Value)
    (offset : Nat) :
    Reads (signedNumber width >>= fun jump => pure (use (base + jump)))
      offset (Assembly.jumpBytes width base target) (use target) := by
  have read :=
    (signed_read fits offset).map fun jump => use ((base : Int) + jump)
  rwa [jump_back] at read

theorem resolved_read
    {Value : Type}
    {result : Except ClassFault Value}
    {value : Value}
    (resolved : result = .ok value)
    (offset : Nat) :
    Reads (resolve result) offset [] value := by
  intro rest
  subst resolved
  rfl

theorem aligned_read
    (padding : Vector UInt8 3)
    (offset : Nat) :
    Reads align (offset + 1) (Assembly.paddingBytes padding offset) () := by
  have length :
      (Assembly.paddingBytes padding offset).length =
        (4 - (offset + 1) % 4) % 4 := by
    simp only [Assembly.paddingBytes, List.length_take,
      Vector.length_toList]
    omega
  intro rest
  simp only [align, ← length, List.drop_left]

theorem times_read
    {Item Value : Type}
    {step : Decoding Value}
    {write : Item → Bytes}
    {items : List Item}
    {values : List Value}
    (each :
      List.Forall₂
        (fun item value =>
          ∀ offset, Reads step offset (write item) value)
        items values)
    (offset : Nat) :
    Reads (times items.length step) offset (items.flatMap write) values :=
  Reads.repeated (fun count => times count step) rfl (fun _ => rfl) each
    offset

/-- Asking how much is left reads nothing, and what is to be read is left. -/
theorem remaining_bind
    {Value : Type}
    {next : Nat → Decoding Value}
    {offset : Nat}
    {bytes : Bytes}
    {value : Value}
    (reads :
      ∀ left,
        bytes.length ≤ left →
        Reads (next left) offset bytes value) :
    Reads (remaining >>= next) offset bytes value := by
  intro rest
  change next (bytes ++ rest).length ⟨bytes ++ rest, offset⟩ = _
  exact reads _ (by simp) rest

/-- Asking for the place reached so far reads nothing. -/
theorem place_bind
    {Value : Type}
    {next : Cursor → Decoding Value}
    {offset : Nat}
    {bytes : Bytes}
    {value : Value}
    (reads :
      ∀ cursor : Cursor,
        cursor.offset = offset →
        Reads (next cursor) offset bytes value) :
    Reads (get >>= next) offset bytes value := by
  intro rest
  exact reads ⟨bytes ++ rest, offset⟩ rfl rest

end Decoding

namespace Assembly

open Decoding Cursor

theorem fits_byte (value : Int8) : Bytes.FitsSigned 1 value.toInt :=
  ⟨value.le_toInt, value.toInt_lt⟩

theorem fits_short (value : Int16) : Bytes.FitsSigned 2 value.toInt :=
  ⟨value.le_toInt, value.toInt_lt⟩

theorem fits_int (value : Int32) : Bytes.FitsSigned 4 value.toInt :=
  ⟨value.le_toInt, value.toInt_lt⟩

section Rows

/-- A property of the rows of some opcodes that was checked for all of them. -/
theorem row_of_known
    (Holds : Opcode → Prop)
    [DecidablePred Holds]
    {codes : List UInt8}
    (checked :
      (codes.all fun code =>
        (Opcode.ofCode? code.toNat).any fun opcode =>
          decide (Holds opcode)) = true)
    {code : UInt8}
    (known : code ∈ codes) :
    ∃ opcode, Opcode.ofCode? code.toNat = some opcode ∧ Holds opcode := by
  have isRow := List.all_eq_true.mp checked code known
  obtain ⟨opcode, found, holds⟩ := (Option.any_eq_true ..).mp isRow
  exact ⟨opcode, found, of_decide_eq_true holds⟩

/-- The row of an opcode has one of some kinds and a given layout. -/
def RowOf
    (kinds : List InstructionKind)
    (layout : Layout)
    (opcode : Opcode) : Prop :=
  opcode.kind ∈ kinds ∧ opcode.layout = layout

instance
    (kinds : List InstructionKind)
    (layout : Layout) :
    DecidablePred (RowOf kinds layout) :=
  fun _ => inferInstanceAs (Decidable (_ ∧ _))

/-- What the row of a command has to be for its operand to be read. -/
def Command.Expects : Command → Opcode → Prop
  | .plain .. => fun opcode => opcode.layout = .none
  | .shortSlot _ _ slot => fun opcode => opcode.layout = .implied slot
  | .namedSlot .. | .wideSlot .. => RowOf [.load, .store, .callReturn] .byte
  | .increment .. | .wideIncrement .. => RowOf [.increment] .slotAndByte
  | .pushByte _ => RowOf [.constant] .signedByte
  | .pushShort _ => RowOf [.constant] .signedShort
  | .constant _ => RowOf [.constant] .byte
  | .wideConstant .. => RowOf [.constant] .short
  | .branch .. => RowOf [.branch, .jump, .call] .signedShort
  | .farBranch .. => RowOf [.jump, .call] .signedInt
  | .tableSwitch .. => RowOf [.switch] .tableSwitch
  | .lookupSwitch .. => RowOf [.switch] .lookupSwitch
  | .member .. => RowOf [.field, .invoke] .short
  | .interfaceCall .. => RowOf [.invoke] .interfaceCall
  | .dynamicCall .. => RowOf [.invoke] .dynamicCall
  | .classRef .. => RowOf [.allocation, .typeTest] .short
  | .newArray _ => RowOf [.allocation] .byte
  | .newArrays .. => RowOf [.allocation] .shortAndByte

/-- Every command has a row of its own in the opcode table. -/
theorem row_of_command
    (command : Command) :
    ∃ opcode,
      Opcode.ofCode? command.code.toNat = some opcode ∧
        command.Expects opcode := by
  cases command with
  | plain code known =>
      exact row_of_known (fun opcode => opcode.layout = .none)
        (by decide +kernel) known
  | shortSlot stores type slot =>
      have checked :
          ∀ stores type slot,
            ((Opcode.ofCode? (shortSlotCode stores type slot).toNat).any
              fun opcode =>
                decide (opcode.layout = .implied slot.val)) = true := by
        decide +kernel
      obtain ⟨opcode, found, layout⟩ :=
        (Option.any_eq_true ..).mp (checked stores type slot)
      have implied : opcode.layout = .implied slot.val :=
        of_decide_eq_true layout
      exact ⟨opcode, found, implied⟩
  | namedSlot code known slot =>
      exact row_of_known (RowOf _ _) (by decide +kernel) known
  | wideSlot code known slot =>
      exact row_of_known (RowOf _ _) (by decide +kernel) known
  | wideConstant code known index =>
      exact row_of_known (RowOf _ _) (by decide +kernel) known
  | branch code known target =>
      exact row_of_known (RowOf _ _) (by decide +kernel) known
  | farBranch code known target =>
      exact row_of_known (RowOf _ _) (by decide +kernel) known
  | member code known index =>
      exact row_of_known (RowOf _ _) (by decide +kernel) known
  | classRef code known index =>
      exact row_of_known (RowOf _ _) (by decide +kernel) known
  | _ =>
      exact ⟨_, rfl, List.mem_singleton.mpr rfl, rfl⟩

/-- A command for each opcode, and the wide form of each that has one. -/
def samples : List Command :=
  List.flatten [
    plainCodes.attach.map fun code => .plain code.1 code.2,
    [false, true].flatMap fun stores =>
      (List.finRange 5).flatMap fun type =>
        (List.finRange 4).map fun slot => .shortSlot stores type slot,
    slotCodes.attach.map fun code => .namedSlot code.1 code.2 0,
    slotCodes.attach.map fun code => .wideSlot code.1 code.2 0,
    [.increment 0 0, .wideIncrement 0 0, .pushByte 0, .pushShort 0,
      .constant 0],
    [.wideConstant 0x13 (by decide) 0, .wideConstant 0x14 (by decide) 0],
    branchCodes.attach.map fun code => .branch code.1 code.2 0,
    [.farBranch 0xC8 (by decide) 0, .farBranch 0xC9 (by decide) 0],
    [.tableSwitch #v[0, 0, 0] 0 0 0 [0] (by decide) (by decide),
      .lookupSwitch #v[0, 0, 0] 0 [] (by decide)],
    memberCodes.attach.map fun code => .member code.1 code.2 0,
    [.interfaceCall 0 0 0, .dynamicCall 0 0 0],
    classCodes.attach.map fun code => .classRef code.1 code.2 0,
    [.newArray 0, .newArrays 0 0]]

/-- An opcode stands alone unless it widens another, and some can be widened. -/
def hasForm (opcode : Opcode) (wide : Bool) : Bool :=
  if wide then opcode.isWidenable else decide (opcode.layout ≠ .widened)

/-- There is a command for each form of each opcode. -/
theorem command_of_row
    {opcode : Opcode}
    (isRow : opcode ∈ Opcode.table)
    {wide : Bool}
    (isForm : hasForm opcode wide = true) :
    ∃ command : Command,
      command.isWide = wide ∧ command.code.toNat = opcode.code := by
  have checked :
      ∀ wide,
        (Opcode.table.all fun opcode =>
          !hasForm opcode wide ||
            samples.any fun command =>
              command.isWide == wide &&
                command.code.toNat == opcode.code) = true := by
    decide +kernel
  have found := List.all_eq_true.mp (checked wide) opcode isRow
  simp only [isForm, Bool.not_true, Bool.false_or, List.any_eq_true,
    Bool.and_eq_true, beq_iff_eq] at found
  obtain ⟨command, _, sameForm, sameCode⟩ := found
  exact ⟨command, sameForm, sameCode⟩

end Rows

section Operands

variable {pool : Pool}
variable {offset : Nat}
variable {opcode : Opcode}

@[simp] theorem length_signedBytes
    (width : Nat)
    (value : Int) :
    (signedBytes width value).length = width :=
  Bytes.length_ofNat _ _

@[simp] theorem length_jumpBytes
    (width offset target : Nat) :
    (jumpBytes width offset target).length = width :=
  length_signedBytes _ _

/-- A number that fits is written as the integer that it is. -/
theorem signedBytes_natCast
    {width number : Nat}
    (fits : number < Nat.pow 256 width) :
    signedBytes width (number : Int) = Bytes.ofNat width number := by
  have small : ((number : Int) % (Nat.pow 256 width : Nat)).toNat = number := by
    rw [← Int.natCast_emod, Nat.mod_eq_of_lt fits, Int.toNat_natCast]
  rw [signedBytes, Bytes.unsigned, small]

theorem length_flatMap_const
    {Item : Type}
    {write : Item → Bytes}
    {width : Nat}
    (items : List Item)
    (even : ∀ item, (write item).length = width) :
    (items.flatMap write).length = width * items.length := by
  induction items with
  | nil =>
      rfl
  | cons item items inductionHypothesis =>
      rw [List.flatMap_cons, List.length_append, even, inductionHypothesis,
        List.length_cons, Nat.mul_succ, Nat.add_comm]

/-- The jumps of a table next to its keys are the targets in their order. -/
theorem consecutive_zip
    (low base : Int)
    (targets : List Nat) :
    (Code.consecutive targets.length low).zip
        ((targets.map fun (target : Nat) => (target : Int) - base).map
          fun jump => base + jump) =
      targets.mapIdx fun position (target : Nat) =>
        (low + position, (target : Int)) := by
  induction targets generalizing low with
  | nil =>
      rfl
  | cons target targets inductionHypothesis =>
      have rest := inductionHypothesis (low + 1)
      simp only [Code.consecutive, List.length_cons, List.map_cons,
        List.zip_cons_cons, List.mapIdx_cons, rest]
      congr 1
      · grind
      · congr 1
        funext position target
        grind

theorem tableSwitch_reads
    {padding : Vector UInt8 3}
    {default : Nat}
    {low high : Int32}
    {targets : List Nat}
    (ordered : low.toInt ≤ high.toInt)
    (full : (targets.length : Int) = high.toInt - low.toInt + 1)
    (fits :
      ∀ target ∈ default :: targets,
        Bytes.FitsSigned 4 ((target : Int) - offset)) :
    Reads (Code.tableSwitch offset) (offset + 1)
      (paddingBytes padding offset ++ (jumpBytes 4 offset default ++
        (signedBytes 4 low.toInt ++ (signedBytes 4 high.toInt ++
          targets.flatMap (jumpBytes 4 offset)))))
      (.switch default
        (targets.mapIdx fun position (target : Nat) =>
          (low.toInt + position, (target : Int)))) := by
  have count : (high.toInt - low.toInt + 1).toNat = targets.length := by
    omega
  have each :
      List.Forall₂
        (fun target jump =>
          ∀ place,
            Reads (signedNumber 4) place (jumpBytes 4 offset target) jump)
        targets
        (targets.map fun (target : Nat) => (target : Int) - offset) := by
    rw [List.forall₂_map_right_iff, List.forall₂_same]
    intro target isTarget place
    exact signed_read (fits target (List.mem_cons_of_mem _ isTarget)) place
  unfold Code.tableSwitch
  refine (aligned_read padding offset).bind ?_
  refine (signed_read (fits default List.mem_cons_self) _).bind ?_
  refine (signed_read (fits_int low) _).bind ?_
  refine (signed_read (fits_int high) _).bind ?_
  rw [if_neg (by omega)]
  -- The reader asks how many bytes are left, and all targets are among them.
  refine remaining_bind fun left enough => ?_
  have long : ¬left < 4 * targets.length := by
    rw [length_flatMap_const targets (length_jumpBytes 4 offset)] at enough
    omega
  simp only [count, if_neg long]
  rw [← consecutive_zip low.toInt offset targets, jump_back]
  exact (times_read each _).map _

theorem lookupSwitch_reads
    {padding : Vector UInt8 3}
    {default : Nat}
    {cases : List (Int32 × Nat)}
    (few : cases.length < 0x80000000)
    (fits :
      ∀ target ∈ default :: cases.map Prod.snd,
        Bytes.FitsSigned 4 ((target : Int) - offset)) :
    Reads (Code.lookupSwitch offset) (offset + 1)
      (paddingBytes padding offset ++ (jumpBytes 4 offset default ++
        (Bytes.ofNat 4 cases.length ++
          cases.flatMap fun (key, target) =>
            signedBytes 4 key.toInt ++ jumpBytes 4 offset target)))
      (.switch default
        (cases.map fun (key, target) => (key.toInt, (target : Int)))) := by
  have each :
      List.Forall₂
        (fun item value =>
          ∀ place,
            Reads
              (do
                let key ← signedNumber 4
                let target ← signedNumber 4
                return (key, (offset : Int) + target))
              place
              (signedBytes 4 item.1.toInt ++ jumpBytes 4 offset item.2)
              value)
        cases
        (cases.map fun (key, target) => (key.toInt, (target : Int))) := by
    rw [List.forall₂_map_right_iff, List.forall₂_same]
    intro (key, target) isCase place
    have fitsTarget :=
      fits target
        (List.mem_cons_of_mem _ (List.mem_map_of_mem isCase))
    refine (signed_read (fits_int key) place).bind ?_
    exact jump_read fitsTarget (fun target => (key.toInt, target)) _
  have count : Bytes.FitsSigned 4 (cases.length : Int) := by
    constructor
    · omega
    · exact_mod_cast few
  rw [← signedBytes_natCast (Nat.lt_trans few (by decide))]
  unfold Code.lookupSwitch
  refine (aligned_read padding offset).bind ?_
  refine (signed_read (fits default List.mem_cons_self) _).bind ?_
  refine (signed_read count _).bind ?_
  rw [if_neg (by omega)]
  refine remaining_bind fun left enough => ?_
  have long : ¬left < 8 * cases.length := by
    have eight := length_flatMap_const cases fun item =>
      show
        (signedBytes 4 item.1.toInt ++ jumpBytes 4 offset item.2).length = 8
        by simp
    rw [eight] at enough
    omega
  simp only [Int.toNat_natCast, if_neg long, jump_back]
  exact (times_read each _).map _

/-- The operand of a command without a wide form is read back. -/
theorem operand_reads
    {command : Command}
    {operand : Operand}
    (denotes : command.Denotes pool operand)
    (narrow : command.isWide = false)
    (expects : command.Expects opcode)
    (fits : command.JumpsFit offset) :
    Reads (Code.operand pool offset opcode) (offset + 1)
      (command.operandBytes offset) operand := by
  obtain ⟨code, mnemonic, kind, layout, pops, pushes, words⟩ := opcode
  cases denotes <;>
    simp only [Command.Expects, RowOf, List.mem_cons, List.not_mem_nil,
      or_false] at expects
  case plain =>
    subst layout
    exact Reads.value _ _
  case shortSlot =>
    subst layout
    exact Reads.value _ _
  case namedSlot =>
    obtain ⟨rfl | rfl | rfl, rfl⟩ := expects <;>
      exact (byte_read _ _).map _
  case wideSlot =>
    contradiction
  case increment =>
    obtain ⟨rfl, rfl⟩ := expects
    exact (byte_read _ _).bind ((signed_read (fits_byte _) _).map _)
  case wideIncrement =>
    contradiction
  case pushByte =>
    obtain ⟨rfl, rfl⟩ := expects
    exact (signed_read (fits_byte _) _).map _
  case pushShort =>
    obtain ⟨rfl, rfl⟩ := expects
    exact (signed_read (fits_short _) _).map _
  case constant has =>
    obtain ⟨rfl, rfl⟩ := expects
    exact (byte_read _ _).andThen
      ((resolved_read (Pool.loadable_eq_ok.mpr has) _).map _)
  case wideConstant has =>
    obtain ⟨rfl, rfl⟩ := expects
    exact (short_read _ _).andThen
      ((resolved_read (Pool.loadable_eq_ok.mpr has) _).map _)
  case branch target =>
    have near := fits target List.mem_cons_self
    obtain ⟨rfl | rfl | rfl, rfl⟩ := expects <;>
      exact jump_read near Operand.jump _
  case farBranch target =>
    have near := fits target List.mem_cons_self
    obtain ⟨rfl | rfl, rfl⟩ := expects <;>
      exact jump_read near Operand.jump _
  case tableSwitch ordered full =>
    obtain ⟨rfl, rfl⟩ := expects
    exact tableSwitch_reads ordered full fits
  case lookupSwitch few =>
    obtain ⟨rfl, rfl⟩ := expects
    exact lookupSwitch_reads few fits
  case member has =>
    obtain ⟨rfl | rfl, rfl⟩ := expects <;>
      exact (short_read _ _).andThen
        ((resolved_read (Pool.member_eq_ok.mpr has) _).map _)
  case interfaceCall has =>
    obtain ⟨rfl, rfl⟩ := expects
    exact (short_read _ _).bind
      ((resolved_read (Pool.member_eq_ok.mpr has) _).bindNothing
        ((byte_read _ _).bind ((byte_read _ _).map _)))
  case dynamicCall has =>
    obtain ⟨rfl, rfl⟩ := expects
    exact (short_read _ _).bind
      ((resolved_read (Pool.dynamicMember_eq_ok.mpr has) _).bindNothing
        ((bytes_read [_, _] _).map _))
  case classRef has =>
    obtain ⟨rfl | rfl, rfl⟩ := expects <;>
      exact (short_read _ _).andThen
        ((resolved_read (Pool.className_eq_ok.mpr has) _).map _)
  case newArray =>
    obtain ⟨rfl, rfl⟩ := expects
    exact (byte_read _ _).map _
  case newArrays has =>
    obtain ⟨rfl, rfl⟩ := expects
    exact (short_read _ _).bind
      ((resolved_read (Pool.className_eq_ok.mpr has) _).bindNothing
        ((byte_read _ _).map _))

end Operands

section Commands

variable {pool : Pool}
variable {offset : Nat}
variable {command : Command}
variable {operand : Operand}

/-- The opcode and the operand of a command in its wide form are read back. -/
theorem widened_reads
    {opcode : Opcode}
    (denotes : command.Denotes pool operand)
    (wide : command.isWide = true)
    (found : Opcode.ofCode? command.code.toNat = some opcode)
    (expects : command.Expects opcode) :
    Reads (Code.widened offset) (offset + 1)
      (command.code :: command.operandBytes offset) (opcode, operand) := by
  obtain ⟨code, mnemonic, kind, layout, pops, pushes, words⟩ := opcode
  unfold Code.widened
  refine (byte_read command.code _).bind ?_
  rw [found]
  cases denotes <;> try contradiction
  case wideSlot =>
    simp only [Command.Expects, RowOf, List.mem_cons, List.not_mem_nil,
      or_false] at expects
    obtain ⟨rfl | rfl | rfl, rfl⟩ := expects <;>
      exact (short_read _ _).map _
  case wideIncrement =>
    simp only [Command.Expects, RowOf, List.mem_singleton] at expects
    obtain ⟨rfl, rfl⟩ := expects
    exact (short_read _ _).bind ((signed_read (fits_short _) _).map _)

theorem not_widened
    {opcode : Opcode}
    (expects : command.Expects opcode) :
    opcode.layout ≠ .widened := by
  intro widened
  cases command <;> simp [Command.Expects, RowOf, widened] at expects

/-- One command is read back as the instruction that it is at its place. -/
theorem instruction_reads
    (denotes : command.Denotes pool operand)
    (fits : command.JumpsFit offset)
    (index : Nat) :
    ∃ instruction,
      command.Describes pool index offset instruction ∧
        Reads (Code.instruction pool index) offset (command.encode offset)
          instruction := by
  obtain ⟨opcode, found, expects⟩ := row_of_command command
  have codeEq : opcode.code = command.code.toNat := by
    simpa using List.find?_some found
  refine
    ⟨⟨index, offset, (command.encode offset).length, opcode, operand,
      command.isWide⟩,
      ⟨rfl, rfl, rfl, List.mem_of_find?_eq_some found, codeEq, denotes, rfl⟩,
      ?_⟩
  have length
      {lead : UInt8}
      {rest : Bytes}
      (written : command.encode offset = [lead] ++ rest) :
      (command.encode offset).length =
        offset + 1 + rest.length - offset := by
    rw [written, List.length_append, List.length_singleton]
    omega
  unfold Code.instruction
  refine place_bind fun cursor start => ?_
  cases wide : command.isWide with
  | false =>
      have written :
          command.encode offset =
            [command.code] ++ command.operandBytes offset := by
        simp [Command.encode, wide]
      rw [length written, written]
      refine (byte_read command.code _).bind ?_
      simp only [found, if_neg (not_widened expects), start]
      refine (operand_reads denotes wide expects fits).andThen ?_
      refine place_bind fun reached finish => ?_
      rw [finish]
      exact Reads.value _ _
  | true =>
      have written :
          command.encode offset =
            [0xC4] ++ (command.code :: command.operandBytes offset) := by
        simp [Command.encode, wide]
      obtain ⟨widening, isRow, isWidened⟩ :
          ∃ row,
            Opcode.ofCode? (0xC4 : UInt8).toNat = some row ∧
              row.layout = .widened :=
        ⟨_, rfl, rfl⟩
      rw [length written, written]
      refine (byte_read 0xC4 _).bind ?_
      simp only [isRow, if_pos isWidened, start]
      refine (widened_reads denotes wide found expects).andThen ?_
      refine place_bind fun reached finish => ?_
      rw [finish]
      exact Reads.value _ _

end Commands

section Runs

variable {pool : Pool}

/-- All commands are read back in their order, by enough steps. -/
theorem instructions_read
    {commands : List Command}
    {bound index offset : Nat}
    (resolves :
      ∀ command ∈ commands, ∃ operand, command.Denotes pool operand)
    (fits :
      ∀ place ∈ placed offset commands, place.2.JumpsFit place.1)
    (enough : (bytesOf (placed offset commands)).length ≤ bound) :
    ∃ instructions final,
      Lists pool index (placed offset commands) instructions ∧
        Code.instructions pool bound index
            ⟨bytesOf (placed offset commands), offset⟩ =
          .ok (instructions, final) := by
  induction commands generalizing bound index offset with
  | nil =>
      refine ⟨[], ⟨[], offset⟩, .nil, ?_⟩
      cases bound <;> rfl
  | cons command commands inductionHypothesis =>
      obtain ⟨operand, denotes⟩ := resolves command List.mem_cons_self
      obtain ⟨first, describes, reads⟩ :=
        instruction_reads denotes (fits _ List.mem_cons_self) index
      have written :
          bytesOf (placed offset (command :: commands)) =
            command.encode offset ++
              bytesOf
                (placed (offset + (command.encode offset).length)
                  commands) :=
        rfl
      -- Each command has a byte at least, so the bound outlasts the commands.
      have someByte := command.encode_ne_nil offset
      have oneByte := List.length_pos_of_ne_nil someByte
      rw [written, List.length_append] at enough
      obtain ⟨bound, rfl⟩ := Nat.exists_eq_add_one.mpr
        (show 0 < bound by omega)
      obtain ⟨others, final, lists, readsOthers⟩ :=
        inductionHypothesis
          (fun other isLater =>
            resolves other (List.mem_cons_of_mem _ isLater))
          (fun place isLater => fits place (List.mem_cons_of_mem _ isLater))
          (show _ ≤ bound by omega)
      refine ⟨first :: others, final, .cons describes lists, ?_⟩
      rw [written, Code.instructions]
      refine bind_eq_ok.mpr ⟨_, _, rfl, ?_⟩
      rw [if_neg (by simp [someByte])]
      refine bind_eq_ok.mpr ⟨first, _, reads _, ?_⟩
      exact bind_eq_ok.mpr ⟨others, final, readsOthers, rfl⟩

/-- Listed instructions begin where their commands were placed. -/
theorem Lists.offsets
    {index : Nat}
    {commands : List (Nat × Command)}
    {instructions : List Instruction}
    (lists : Lists pool index commands instructions) :
    instructions.map (·.offset) = commands.map Prod.fst := by
  induction commands generalizing index instructions with
  | nil =>
      cases lists
      rfl
  | cons place commands inductionHypothesis =>
      cases lists with
      | cons describes later =>
          rw [List.map_cons, List.map_cons, describes.offsetEq,
            inductionHypothesis later]

/-- Every listed instruction is what a placed command is. -/
theorem Lists.command
    {index : Nat}
    {commands : List (Nat × Command)}
    {instructions : List Instruction}
    (lists : Lists pool index commands instructions)
    {instruction : Instruction}
    (member : instruction ∈ instructions) :
    ∃ place ∈ commands,
      place.2.Denotes pool instruction.operand := by
  induction commands generalizing index instructions with
  | nil =>
      cases lists
      cases member
  | cons place commands inductionHypothesis =>
      cases lists with
      | cons describes later =>
          rcases List.mem_cons.mp member with rfl | isLater
          · exact ⟨place, List.mem_cons_self, describes.denotes⟩
          · obtain ⟨other, isPlaced, denotes⟩ :=
              inductionHypothesis later isLater
            exact ⟨other, List.mem_cons_of_mem _ isPlaced, denotes⟩

/-- No listed instruction jumps beside the others if no command does. -/
theorem Lists.noStray
    {commands : List Command}
    {instructions : List Instruction}
    (lists : Lists pool 0 (placed 0 commands) instructions)
    (lands :
      ∀ place ∈ placed 0 commands,
        ∀ target ∈ place.2.targets, target ∈ starts commands) :
    Code.strayTarget? instructions = none := by
  refine List.findSome?_eq_none_iff.mpr fun instruction member => ?_
  rw [Option.map_eq_none_iff, List.find?_eq_none]
  intro target isTarget
  obtain ⟨place, isPlaced, denotes⟩ := lists.command member
  rw [denotes.targets] at isTarget
  obtain ⟨goal, isGoal, rfl⟩ := List.mem_map.mp isTarget
  have started := lands place isPlaced goal isGoal
  rw [starts, ← lists.offsets] at started
  obtain ⟨landing, isIn, atGoal⟩ := List.mem_map.mp started
  have isStart : Code.isStart instructions (goal : Int) = true :=
    List.any_eq_true.mpr ⟨landing, isIn, by simp [atGoal]⟩
  simp [isStart]

/--
Decoding an assembled code array gives back the commands in their order, each
with its offset, its length, its opcode and its resolved operand.
-/
theorem decode_assemble
    {commands : List Command}
    (nonempty : commands ≠ [])
    (resolves :
      ∀ command ∈ commands, ∃ operand, command.Denotes pool operand)
    (lands :
      ∀ place ∈ placed 0 commands,
        ∀ target ∈ place.2.targets, target ∈ starts commands)
    (fits :
      ∀ place ∈ placed 0 commands, place.2.JumpsFit place.1) :
    ∃ instructions,
      Lists pool 0 (placed 0 commands) instructions ∧
        Code.decode (assemble commands) pool = .ok instructions := by
  obtain ⟨instructions, final, lists, reads⟩ :=
    instructions_read resolves fits (Nat.le_refl _)
  refine ⟨instructions, lists, ?_⟩
  unfold Code.decode
  rw [if_neg (by simp [assemble_ne_nil nonempty])]
  refine Outcome.bind_eq_ok.mpr ⟨_, reads, ?_⟩
  simp only [lists.noStray lands]
  rfl

/-- A literal, and a switch with a jump back to what it switches over. -/
def switchLoop : List Command :=
  [.constant 1,
    .plain 0x57 (by decide),
    .plain 0x03 (by decide),
    .tableSwitch #v[1, 2, 3] 37 (-1) 0 [28, 37] (by decide) (by decide),
    .wideIncrement 300 (-5),
    .branch 0xA7 (by decide) 3,
    .plain 0xB1 (by decide)]

theorem decode_assemble_switchLoop :
    ∃ instructions,
      Lists ⟨[none, some (.string 2), some (.utf8 "title")]⟩ 0
          (placed 0 switchLoop) instructions ∧
        Code.decode (assemble switchLoop)
            ⟨[none, some (.string 2), some (.utf8 "title")]⟩ =
          .ok instructions := by
  refine decode_assemble (by decide) ?_ (by decide) (by decide)
  simp only [switchLoop, List.forall_mem_cons]
  refine
    ⟨⟨_, .constant (.string ⟨by decide, rfl⟩ ⟨by decide, rfl⟩)⟩, ⟨_, .plain⟩,
      ⟨_, .plain⟩, ⟨_, .tableSwitch⟩, ⟨_, .wideIncrement⟩, ⟨_, .branch⟩,
      ⟨_, .plain⟩, ?_⟩
  simp

end Runs

end Assembly

end KeyAudit
