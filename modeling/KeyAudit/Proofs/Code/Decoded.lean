import KeyAudit.Code.Decode
import KeyAudit.Proofs.Outcome

namespace KeyAudit

/-!
# What decoding yields

Decoding only reads on.  So the instructions of a decoded code array lie one
after the other, each has its position as index, and each operand is of the kind
that the row of the opcode asks for.
-/

namespace Decoding

variable {First Second : Type}

theorem bind_eq_ok
    {decoding : Decoding First}
    {next : First → Decoding Second}
    {cursor : Cursor}
    {result : Second × Cursor} :
    (decoding >>= next) cursor = .ok result ↔
      ∃ value middle,
        decoding cursor = .ok (value, middle) ∧
          next value middle = .ok result :=
  Outcome.bindState_eq_ok

/-- A step never goes back, and every value that it gives has a property. -/
def Yields
    (decoding : Decoding First)
    (Holds : First → Prop) : Prop :=
  ∀ cursor value next,
    decoding cursor = .ok (value, next) →
    cursor.offset ≤ next.offset ∧ Holds value

namespace Yields

variable {decoding : Decoding First}
variable {Holds : First → Prop}

theorem value
    {value : First}
    (holds : Holds value) :
    Yields (pure value) Holds := by
  intro cursor _ _ read
  cases read
  exact ⟨Nat.le_refl _, holds⟩

theorem bind
    {Middle : First → Prop}
    {Last : Second → Prop}
    {next : First → Decoding Second}
    (first : Yields decoding Middle)
    (later : ∀ {value}, Middle value → Yields (next value) Last) :
    Yields (decoding >>= next) Last := by
  intro cursor value final read
  obtain ⟨middle, between, readFirst, readLater⟩ := bind_eq_ok.mp read
  obtain ⟨onward, holds⟩ := first cursor middle between readFirst
  obtain ⟨further, holdsLast⟩ := later holds between value final readLater
  exact ⟨Nat.le_trans onward further, holdsLast⟩

theorem choice
    {condition : Prop}
    [Decidable condition]
    {other : Decoding First}
    (first : Yields decoding Holds)
    (second : Yields other Holds) :
    Yields (if condition then decoding else other) Holds := by
  split
  · exact first
  · exact second

theorem refuse
    (cause : DecodeCause)
    (offset : Nat) :
    Yields (Decoding.refuse cause offset) Holds := by
  intro cursor value next read
  cases read

/-- Nothing is read after a refusal. -/
theorem refused
    (cause : DecodeCause)
    (offset : Nat)
    (next : Unit → Decoding First) :
    Yields (Decoding.refuse cause offset >>= next) Holds := by
  intro cursor value final read
  cases read

theorem number (width : Nat) :
    Yields (Decoding.number width) fun _ => True := by
  intro cursor value next read
  unfold Decoding.number at read
  split at read
  · cases read
  · cases read
    exact ⟨Nat.le_add_right .., trivial⟩

theorem signedNumber (width : Nat) :
    Yields (Decoding.signedNumber width) fun _ => True :=
  (number width).bind fun _ => value trivial

theorem resolve (result : Except ClassFault First) :
    Yields (Decoding.resolve result) fun _ => True := by
  intro cursor value next read
  unfold Decoding.resolve at read
  split at read
  · cases read
  · cases read
    exact ⟨Nat.le_refl _, trivial⟩

theorem align :
    Yields Decoding.align fun _ => True := by
  intro cursor value next read
  cases read
  exact ⟨Nat.le_add_right .., trivial⟩

theorem remaining :
    Yields Decoding.remaining fun _ => True := by
  intro cursor value next read
  cases read
  exact ⟨Nat.le_refl _, trivial⟩

theorem times
    (repeated : Yields decoding Holds)
    (count : Nat) :
    Yields (Decoding.times count decoding) fun _ => True := by
  induction count with
  | zero =>
      exact value trivial
  | succ count inductionHypothesis =>
      exact repeated.bind fun _ =>
        inductionHypothesis.bind fun _ => value trivial

end Yields

end Decoding

namespace Opcode

/-- Whether an operand is of the kind that an opcode asks for. -/
def Accepts (opcode : Opcode) (operand : Operand) : Prop :=
  match opcode.kind, opcode.layout with
  | _, .implied slot => operand = .slot slot
  | _, .signedByte => ∃ value, operand = .immediate value
  | .constant, .byte => ∃ value, operand = .constant value
  | .allocation, .byte => ∃ value, operand = .immediate value
  | _, .byte => ∃ slot, operand = .slot slot
  | _, .slotAndByte => ∃ slot amount, operand = .increment slot amount
  | .constant, .signedShort => ∃ value, operand = .immediate value
  | _, .signedShort => ∃ target, operand = .jump target
  | _, .signedInt => ∃ target, operand = .jump target
  | .constant, .short => ∃ value, operand = .constant value
  | .field, .short | .invoke, .short => ∃ member, operand = .member member
  | _, .short => ∃ name, operand = .classRef name
  | _, .interfaceCall => ∃ member, operand = .member member
  | _, .dynamicCall => ∃ member, operand = .member member
  | _, .shortAndByte => ∃ name dimensions, operand = .arrayClass name dimensions
  | _, .tableSwitch => ∃ default cases, operand = .switch default cases
  | _, .lookupSwitch => ∃ default cases, operand = .switch default cases
  | _, .none | _, .widened => operand = .none

end Opcode

namespace Code

open Decoding

theorem tableSwitch_yields (offset : Nat) :
    Yields (tableSwitch offset) fun operand =>
      ∃ default cases, operand = .switch default cases := by
  unfold tableSwitch
  refine Yields.align.bind fun _ => ?_
  refine (Yields.signedNumber 4).bind fun _ => ?_
  refine (Yields.signedNumber 4).bind fun _ => ?_
  refine (Yields.signedNumber 4).bind fun _ => ?_
  refine Yields.choice (Yields.refused _ _ _) ?_
  refine Yields.remaining.bind fun _ => ?_
  refine Yields.choice (Yields.refused _ _ _) ?_
  exact ((Yields.signedNumber 4).times _).bind fun _ =>
    Yields.value ⟨_, _, rfl⟩

theorem lookupSwitch_yields (offset : Nat) :
    Yields (lookupSwitch offset) fun operand =>
      ∃ default cases, operand = .switch default cases := by
  have pair :
      Yields
        (do
          let key ← signedNumber 4
          let target ← signedNumber 4
          return (key, (offset : Int) + target))
        fun _ => True :=
    (Yields.signedNumber 4).bind fun _ =>
      (Yields.signedNumber 4).bind fun _ => Yields.value trivial
  unfold lookupSwitch
  refine Yields.align.bind fun _ => ?_
  refine (Yields.signedNumber 4).bind fun _ => ?_
  refine (Yields.signedNumber 4).bind fun _ => ?_
  refine Yields.choice (Yields.refused _ _ _) ?_
  refine Yields.remaining.bind fun _ => ?_
  refine Yields.choice (Yields.refused _ _ _) ?_
  exact (pair.times _).bind fun _ => Yields.value ⟨_, _, rfl⟩

/-- The operand of an instruction is of the kind that its opcode asks for. -/
theorem operand_yields
    (pool : Pool)
    (offset : Nat)
    (opcode : Opcode) :
    Yields (operand pool offset opcode) opcode.Accepts := by
  have slotOperand :
      Yields (do return Operand.slot (← number 1)) fun operand =>
        ∃ slot, operand = .slot slot :=
    (Yields.number 1).bind fun _ => Yields.value ⟨_, rfl⟩
  have jumpOperand
      (width : Nat) :
      Yields (do return Operand.jump (offset + (← signedNumber width)))
        fun operand => ∃ target, operand = .jump target :=
    (Yields.signedNumber width).bind fun _ => Yields.value ⟨_, rfl⟩
  have pooledOperand
      {First : Type}
      (width : Nat)
      (lookup : Int → Except ClassFault First)
      (make : First → Operand) :
      Yields
        (do
          let index ← number width
          return make (← resolve (lookup index)))
        fun operand => ∃ found, operand = make found :=
    (Yields.number width).bind fun _ =>
      (Yields.resolve _).bind fun _ => Yields.value ⟨_, rfl⟩
  unfold operand Opcode.Accepts
  -- The layout alone tells the operand except for slots, jumps and pool indices.
  cases layout : opcode.layout with
  | none =>
      simp only
      exact Yields.value rfl
  | implied slot =>
      simp only
      exact Yields.value rfl
  | signedByte =>
      simp only
      exact (Yields.signedNumber 1).bind fun _ => Yields.value ⟨_, rfl⟩
  | byte =>
      cases kind : opcode.kind <;> simp only
      case constant => exact pooledOperand 1 pool.loadable .constant
      case allocation =>
        exact (Yields.number 1).bind fun _ => Yields.value ⟨_, rfl⟩
      all_goals exact slotOperand
  | signedShort =>
      cases kind : opcode.kind <;> simp only
      case constant =>
        exact (Yields.signedNumber 2).bind fun _ => Yields.value ⟨_, rfl⟩
      all_goals exact jumpOperand 2
  | short =>
      cases kind : opcode.kind <;> simp only
      case constant => exact pooledOperand 2 pool.loadable .constant
      case field => exact pooledOperand 2 pool.member .member
      case invoke => exact pooledOperand 2 pool.member .member
      all_goals exact pooledOperand 2 pool.className .classRef
  | signedInt =>
      simp only
      exact jumpOperand 4
  | slotAndByte =>
      simp only
      exact (Yields.number 1).bind fun _ =>
        (Yields.signedNumber 1).bind fun _ => Yields.value ⟨_, _, rfl⟩
  | interfaceCall =>
      simp only
      exact (Yields.number 2).bind fun _ =>
        (Yields.resolve _).bind fun _ =>
          (Yields.number 1).bind fun _ =>
            (Yields.number 1).bind fun _ => Yields.value ⟨_, rfl⟩
  | dynamicCall =>
      simp only
      exact (Yields.number 2).bind fun _ =>
        (Yields.resolve _).bind fun _ =>
          (Yields.number 2).bind fun _ => Yields.value ⟨_, rfl⟩
  | shortAndByte =>
      simp only
      exact (Yields.number 2).bind fun _ =>
        (Yields.resolve _).bind fun _ =>
          (Yields.number 1).bind fun _ => Yields.value ⟨_, _, rfl⟩
  | tableSwitch =>
      simp only
      exact tableSwitch_yields offset
  | lookupSwitch =>
      simp only
      exact lookupSwitch_yields offset
  | widened =>
      simp only
      exact Yields.value rfl

/-- An opcode in its wide form has the same kind of operand. -/
theorem widened_yields (offset : Nat) :
    Yields (widened offset) fun (opcode, operand) =>
      opcode ∈ Opcode.table ∧
        opcode.layout ≠ .widened ∧ opcode.Accepts operand := by
  unfold widened
  refine (Yields.number 1).bind fun {code} _ => ?_
  split
  · exact Yields.refuse _ _
  · rename_i opcode found
    obtain ⟨isRow, widenable⟩ := Option.filter_eq_some_iff.mp found
    have member : opcode ∈ Opcode.table :=
      List.mem_of_find?_eq_some isRow
    refine (Yields.number 2).bind fun _ => ?_
    unfold Opcode.isWidenable at widenable
    split
    · rename_i isIncrement
      refine (Yields.signedNumber 2).bind fun _ => Yields.value ⟨member, ?_⟩
      split at widenable <;> simp_all [Opcode.Accepts]
    · rename_i isSlot
      refine Yields.value ⟨member, ?_⟩
      split at widenable <;> simp_all [Opcode.Accepts]

end Code

/-- A row of the opcode table with an operand of the right kind. -/
structure Instruction.Fits (instruction : Instruction) : Prop where
  row : instruction.opcode ∈ Opcode.table
  notWide : instruction.opcode.layout ≠ .widened
  accepts : instruction.opcode.Accepts instruction.operand

namespace Code

open Decoding

/-- What an instruction is when it was read between two places. -/
theorem instruction_eq_ok
    {pool : Pool}
    {index : Nat}
    {cursor next : Cursor}
    {decoded : Instruction}
    (read : instruction pool index cursor = .ok (decoded, next)) :
    decoded.index = index ∧
      decoded.offset = cursor.offset ∧
        cursor.offset < next.offset ∧
          decoded.next = next.offset ∧
            decoded.Fits := by
  unfold instruction at read
  obtain ⟨_, _, started, read⟩ := bind_eq_ok.mp read
  cases started
  obtain ⟨code, afterCode, readCode, read⟩ := bind_eq_ok.mp read
  have opcodeByte : afterCode.offset = cursor.offset + 1 := by
    unfold number at readCode
    split at readCode
    · cases readCode
    · cases readCode
      rfl
  cases found : Opcode.ofCode? code with
  | none =>
      rw [found] at read
      cases read
  | some opcode =>
      have member : opcode ∈ Opcode.table :=
        List.mem_of_find?_eq_some found
      simp only [found] at read
      by_cases isWide : opcode.layout = .widened
      · rw [if_pos isWide] at read
        obtain ⟨⟨inner, operand⟩, afterOperand, readOperand, read⟩ :=
          bind_eq_ok.mp read
        cases read
        obtain ⟨onward, innerMember, notWide, accepted⟩ :=
          widened_yields _ _ _ _ readOperand
        refine ⟨rfl, rfl, by omega, ?_, ⟨innerMember, notWide, accepted⟩⟩
        simp only [Instruction.next]
        omega
      · rw [if_neg isWide] at read
        obtain ⟨operand, afterOperand, readOperand, read⟩ :=
          bind_eq_ok.mp read
        cases read
        obtain ⟨onward, accepted⟩ :=
          operand_yields _ _ _ _ _ _ readOperand
        refine ⟨rfl, rfl, by omega, ?_, ⟨member, isWide, accepted⟩⟩
        simp only [Instruction.next]
        omega

/-- The instruction at an index begins at an offset. -/
def StartsAt
    (instructions : List Instruction)
    (index : Nat)
    (offset : Int) : Prop :=
  ∃ instruction,
    instructions[index]? = some instruction ∧
      (instruction.offset : Int) = offset

theorem StartsAt.lt_length
    {instructions : List Instruction}
    {index : Nat}
    {offset : Int}
    (starts : StartsAt instructions index offset) :
    index < instructions.length := by
  obtain ⟨instruction, present, _⟩ := starts
  exact (List.getElem?_eq_some_iff.mp present).1

/-- Instructions that lie one after the other from an index and an offset on. -/
inductive Consecutive : Nat → Nat → List Instruction → Prop where
  | nil (index offset : Nat) :
      Consecutive index offset []
  | cons
      {first : Instruction}
      {others : List Instruction}
      (fits : first.Fits)
      (longer : first.offset < first.next)
      (later : Consecutive (first.index + 1) first.next others) :
      Consecutive first.index first.offset (first :: others)

namespace Consecutive

variable {index offset : Nat}
variable {decoded : List Instruction}

theorem index_eq
    (consecutive : Consecutive index offset decoded)
    {position : Nat}
    {instruction : Instruction}
    (present : decoded[position]? = some instruction) :
    instruction.index = index + position := by
  induction consecutive generalizing position with
  | nil index offset =>
      simp at present
  | cons fits longer later inductionHypothesis =>
      cases position with
      | zero =>
          simp only [List.getElem?_cons_zero, Option.some.injEq] at present
          rw [present, Nat.add_zero]
      | succ position =>
          have atPosition := inductionHypothesis present
          omega

/-- Instructions that begin the code are numbered by their positions. -/
theorem index_eq_position
    (consecutive : Consecutive 0 0 decoded)
    {position : Nat}
    {instruction : Instruction}
    (present : decoded[position]? = some instruction) :
    instruction.index = position := by
  rw [consecutive.index_eq present, Nat.zero_add]

theorem fits
    (consecutive : Consecutive index offset decoded)
    {instruction : Instruction}
    (member : instruction ∈ decoded) :
    instruction.Fits := by
  induction consecutive with
  | nil index offset =>
      cases member
  | cons firstFits longer later inductionHypothesis =>
      rcases List.mem_cons.mp member with rfl | inRest
      · exact firstFits
      · exact inductionHypothesis inRest

theorem offset_le
    (consecutive : Consecutive index offset decoded)
    {instruction : Instruction}
    (member : instruction ∈ decoded) :
    offset ≤ instruction.offset := by
  induction consecutive with
  | nil index offset =>
      cases member
  | cons firstFits longer later inductionHypothesis =>
      rcases List.mem_cons.mp member with rfl | inRest
      · exact Nat.le_refl _
      · exact Nat.le_trans (Nat.le_of_lt longer)
          (inductionHypothesis inRest)

/-- No two instructions begin at one offset. -/
theorem offset_injective
    (consecutive : Consecutive index offset decoded)
    {first second : Instruction}
    (firstMember : first ∈ decoded)
    (secondMember : second ∈ decoded)
    (sameOffset : first.offset = second.offset) :
    first = second := by
  induction consecutive with
  | nil index offset =>
      cases firstMember
  | cons firstFits longer later inductionHypothesis =>
      -- Every later instruction begins behind the head.
      rcases List.mem_cons.mp firstMember with rfl | firstInRest <;>
        rcases List.mem_cons.mp secondMember with rfl | secondInRest
      · rfl
      · have behind := later.offset_le secondInRest
        omega
      · have behind := later.offset_le firstInRest
        omega
      · exact inductionHypothesis firstInRest secondInRest

end Consecutive

/-- Instructions that were read lie one after the other. -/
theorem instructions_consecutive
    {pool : Pool}
    {bound index : Nat}
    {cursor next : Cursor}
    {decoded : List Instruction}
    (read : instructions pool bound index cursor = .ok (decoded, next)) :
    Consecutive index cursor.offset decoded := by
  induction bound generalizing index cursor decoded with
  | zero =>
      cases read
      exact .nil index _
  | succ bound inductionHypothesis =>
      unfold instructions at read
      obtain ⟨_, _, looked, read⟩ := bind_eq_ok.mp read
      cases looked
      split at read
      · cases read
        exact .nil index _
      · obtain ⟨first, middle, readFirst, read⟩ := bind_eq_ok.mp read
        obtain ⟨others, after, readOthers, read⟩ := bind_eq_ok.mp read
        cases read
        obtain ⟨indexEq, offsetEq, onward, nextEq, fits⟩ :=
          instruction_eq_ok readFirst
        have later := inductionHypothesis readOthers
        subst indexEq
        rw [← offsetEq] at onward ⊢
        rw [← nextEq] at onward later
        exact .cons fits onward later

theorem decode_eq_ok
    {code : Bytes}
    {pool : Pool}
    {decoded : List Instruction}
    (success : decode code pool = .ok decoded) :
    code ≠ [] ∧
      strayTarget? decoded = none ∧
        ∃ final,
          instructions pool code.length 0 ⟨code, 0⟩ =
            .ok (decoded, final) := by
  unfold decode at success
  split at success
  · cases success
  · rename_i someByte
    obtain ⟨⟨read, final⟩, readAll, success⟩ :=
      Outcome.bind_eq_ok.mp success
    cases stray : strayTarget? read with
    | some fault =>
        simp only [stray] at success
        cases success
    | none =>
        simp only [stray] at success
        cases success
        exact ⟨by simpa using someByte, stray, final, readAll⟩

/-- Decoded instructions lie one after the other from the start of the code on. -/
theorem decode_consecutive
    {code : Bytes}
    {pool : Pool}
    {decoded : List Instruction}
    (success : decode code pool = .ok decoded) :
    Consecutive 0 0 decoded := by
  obtain ⟨_, _, final, readAll⟩ := decode_eq_ok success
  exact instructions_consecutive readAll

theorem decode_nonempty
    {code : Bytes}
    {pool : Pool}
    {decoded : List Instruction}
    (success : decode code pool = .ok decoded) :
    0 < decoded.length := by
  obtain ⟨nonempty, _, final, readAll⟩ := decode_eq_ok success
  obtain ⟨byte, rest, rfl⟩ := List.exists_cons_of_ne_nil nonempty
  rw [List.length_cons] at readAll
  unfold instructions at readAll
  obtain ⟨_, _, looked, readAll⟩ := bind_eq_ok.mp readAll
  cases looked
  rw [if_neg (by simp)] at readAll
  obtain ⟨first, _, _, readAll⟩ := bind_eq_ok.mp readAll
  obtain ⟨others, _, _, readAll⟩ := bind_eq_ok.mp readAll
  cases readAll
  exact Nat.succ_pos _

/-- Every jump in decoded code lands on an instruction. -/
theorem decode_targets
    {code : Bytes}
    {pool : Pool}
    {decoded : List Instruction}
    (success : decode code pool = .ok decoded)
    {instruction : Instruction}
    (member : instruction ∈ decoded)
    {offset : Int}
    (isTarget : offset ∈ instruction.operand.targets) :
    ∃ index, StartsAt decoded index offset := by
  obtain ⟨_, stray, _⟩ := decode_eq_ok success
  have noneStray := List.findSome?_eq_none_iff.mp stray instruction member
  rw [Option.map_eq_none_iff, List.find?_eq_none] at noneStray
  have starts := noneStray offset isTarget
  simp only [isStart, Bool.not_eq_true', Bool.not_eq_false,
    List.any_eq_true, beq_iff_eq] at starts
  obtain ⟨target, isIn, atOffset⟩ := starts
  obtain ⟨index, present⟩ := List.mem_iff_getElem?.mp isIn
  exact ⟨index, target, present, atOffset⟩

end Code

end KeyAudit
