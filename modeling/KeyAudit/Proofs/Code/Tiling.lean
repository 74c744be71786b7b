import KeyAudit.Proofs.Code.Complete
import KeyAudit.Proofs.Code.Consumption
import KeyAudit.Proofs.Code.Refusals

namespace KeyAudit

/-!
# Decoded instructions fill the code

Each instruction takes its bytes from the front of what is left.  So the
instructions of a code array lie one after the other from its first byte to its
last, and a switch is long enough for its keys.
-/

namespace Code

open Decoding

theorem operand_consumes
    (pool : Pool)
    (offset : Nat)
    (opcode : Opcode) :
    Consumes (operand pool offset opcode) := by
  have inherited : Inherited Consumes :=
    { value := fun first => (Sized.value first).consumes
      bind := Consumes.bind
      number := fun width => (Sized.number width).consumes
      resolve := fun _ => Consumes.resolve _
      tableSwitch := tableSwitch_consumes
      lookupSwitch := lookupSwitch_consumes }
  exact inherited.operand pool offset opcode

theorem widened_consumes (offset : Nat) : Consumes (widened offset) := by
  unfold widened
  refine (Sized.number 1).consumes.bind fun code => ?_
  split
  · exact .refuse _ _
  · refine (Sized.number 2).consumes.bind fun slot => ?_
    refine Consumes.choice ?_ (Sized.value _).consumes
    exact ((Sized.signedNumber 2).bind fun _ => Sized.value _).consumes

theorem instruction_consumes
    (pool : Pool)
    (index : Nat) :
    Consumes (instruction pool index) := by
  unfold instruction
  refine Consumes.place.bind fun start => ?_
  refine (Sized.number 1).consumes.bind fun code => ?_
  split
  · exact .refuse _ _
  · refine Consumes.choice ?_ ?_
    · exact (widened_consumes _).bind fun _ =>
        Consumes.place.bind fun _ => (Sized.value _).consumes
    · exact (operand_consumes _ _ _).bind fun _ =>
        Consumes.place.bind fun _ => (Sized.value _).consumes

/-- A switch has no wide form. -/
theorem widened_not_switch (offset : Nat) :
    Yields (widened offset) fun result => result.1.kind ≠ .switch := by
  unfold widened
  refine (Yields.number 1).bind fun {code} _ => ?_
  split
  · exact Yields.refuse _ _
  · rename_i opcode found
    have widenable := (Option.filter_eq_some_iff.mp found).2
    have notSwitch : opcode.kind ≠ .switch := by
      intro isSwitch
      simp [Opcode.isWidenable, isSwitch] at widenable
    refine (Yields.number 2).bind fun _ => ?_
    refine Yields.choice ?_ (Yields.value notSwitch)
    exact (Yields.signedNumber 2).bind fun _ => Yields.value notSwitch

/-- A switch is read as the operand of its opcode. -/
theorem switch_of_instruction
    {pool : Pool}
    {index : Nat}
    {cursor next : Cursor}
    {decoded : Instruction}
    (read : instruction pool index cursor = .ok (decoded, next))
    (isSwitch : decoded.kind = .switch) :
    ∃ middle,
      cursor.offset < middle.offset ∧
        operand pool cursor.offset decoded.opcode middle =
          .ok (decoded.operand, next) := by
  unfold instruction at read
  obtain ⟨_, _, started, read⟩ := bind_eq_ok.mp read
  cases started
  obtain ⟨code, afterCode, readCode, read⟩ := bind_eq_ok.mp read
  have behindCode := (Sized.number 1).offset_eq readCode
  cases found : Opcode.ofCode? code with
  | none =>
      rw [found] at read
      cases read
  | some opcode =>
      simp only [found] at read
      by_cases isWide : opcode.layout = .widened
      · rw [if_pos isWide] at read
        obtain ⟨⟨inner, operand⟩, _, readOperand, read⟩ := bind_eq_ok.mp read
        cases read
        obtain ⟨_, notSwitch⟩ := widened_not_switch _ _ _ _ readOperand
        exact (notSwitch isSwitch).elim
      · rw [if_neg isWide] at read
        obtain ⟨operand, afterOperand, readOperand, read⟩ := bind_eq_ok.mp read
        cases read
        exact ⟨afterCode, by omega, readOperand⟩

/-- Each instruction of a list was read at some place. -/
theorem instruction_of_mem
    {pool : Pool}
    {bound index : Nat}
    {cursor final : Cursor}
    {decoded : List Instruction}
    (read : instructions pool bound index cursor = .ok (decoded, final))
    {member : Instruction}
    (isMember : member ∈ decoded) :
    ∃ index start next, instruction pool index start = .ok (member, next) := by
  induction bound generalizing index cursor decoded with
  | zero =>
      cases read
      cases isMember
  | succ bound inductionHypothesis =>
      unfold instructions at read
      obtain ⟨_, _, looked, read⟩ := bind_eq_ok.mp read
      cases looked
      split at read
      · cases read
        cases isMember
      · obtain ⟨first, _, readFirst, read⟩ := bind_eq_ok.mp read
        obtain ⟨others, _, readOthers, read⟩ := bind_eq_ok.mp read
        cases read
        rcases List.mem_cons.mp isMember with rfl | inRest
        · exact ⟨_, _, _, readFirst⟩
        · exact inductionHypothesis readOthers inRest

/-- Instructions are read until no byte is left, and the last one ends there. -/
theorem instructions_end
    {pool : Pool}
    {bound index : Nat}
    {cursor final : Cursor}
    {decoded : List Instruction}
    (read : instructions pool bound index cursor = .ok (decoded, final))
    (enough : cursor.rest.length ≤ bound) :
    cursor.Onward final ∧
      final.rest = [] ∧
        (decoded.getLast?.map Instruction.next).getD cursor.offset =
          final.offset := by
  induction bound generalizing index cursor decoded with
  | zero =>
      cases read
      exact
        ⟨.refl _, List.length_eq_zero_iff.mp (Nat.le_zero.mp enough), rfl⟩
  | succ bound inductionHypothesis =>
      unfold instructions at read
      obtain ⟨_, _, looked, read⟩ := bind_eq_ok.mp read
      cases looked
      split at read
      · rename_i isEmpty
        cases read
        exact ⟨.refl _, List.isEmpty_iff.mp isEmpty, rfl⟩
      · obtain ⟨first, middle, readFirst, read⟩ := bind_eq_ok.mp read
        obtain ⟨others, after, readOthers, read⟩ := bind_eq_ok.mp read
        cases read
        have onward := instruction_consumes _ _ _ _ _ readFirst
        obtain ⟨_, _, further, nextEq, _⟩ := instruction_eq_ok readFirst
        have fewer : middle.rest.length ≤ bound := by
          have total := onward.total
          omega
        obtain ⟨later, atEnd, lastEnds⟩ :=
          inductionHypothesis readOthers fewer
        refine ⟨onward.trans later, atEnd, ?_⟩
        rw [← lastEnds, List.getLast?_cons, ← nextEq]
        cases others.getLast? <;> rfl

/-- A switch is of one of two forms, and its length leaves room for its keys. -/
def RoomForKeys (instruction : Instruction) : Prop :=
  instruction.kind = .switch →
    (instruction.opcode.layout = .tableSwitch ∧
        4 * instruction.operand.keys.length ≤ instruction.length) ∨
      (instruction.opcode.layout = .lookupSwitch ∧
        8 * instruction.operand.keys.length ≤ instruction.length)

theorem instruction_roomForKeys
    {pool : Pool}
    {index : Nat}
    {cursor next : Cursor}
    {decoded : Instruction}
    (read : instruction pool index cursor = .ok (decoded, next)) :
    RoomForKeys decoded := by
  intro isSwitch
  obtain ⟨_, offsetEq, onward, nextEq, fits⟩ := instruction_eq_ok read
  obtain ⟨middle, behind, readOperand⟩ := switch_of_instruction read isSwitch
  have complete := List.all_eq_true.mp Opcode.table_isComplete _ fits.row
  have layouts := (of_decide_eq_true complete).2.2.2.2.1 isSwitch
  simp only [Instruction.next] at nextEq
  simp only [List.mem_cons, List.not_mem_nil, or_false] at layouts
  unfold operand at readOperand
  rcases layouts with isTable | isLookup
  · simp only [isTable] at readOperand
    have room := tableSwitch_keys readOperand
    exact Or.inl ⟨isTable, by omega⟩
  · simp only [isLookup] at readOperand
    have room := lookupSwitch_keys readOperand
    exact Or.inr ⟨isLookup, by omega⟩

/-- The instructions of a code array of so many bytes lie in it without a gap. -/
structure Tiles (total : Nat) (decoded : List Instruction) : Prop where
  nonempty : decoded ≠ []
  index_eq :
    ∀ {position : Nat} {instruction : Instruction},
      decoded[position]? = some instruction →
      instruction.index = position
  first :
    ∀ {instruction : Instruction},
      decoded[0]? = some instruction →
      instruction.offset = 0
  length_pos : ∀ instruction ∈ decoded, 1 ≤ instruction.length
  next :
    ∀ {position : Nat} {instruction following : Instruction},
      decoded[position]? = some instruction →
      decoded[position + 1]? = some following →
      following.offset = instruction.offset + instruction.length
  last :
    ∀ {instruction : Instruction},
      decoded.getLast? = some instruction →
      instruction.offset + instruction.length = total

/-- All jumps land on instructions, and every jump has as many targets as it should. -/
structure Lands (decoded : List Instruction) : Prop where
  starts :
    ∀ instruction ∈ decoded,
      ∀ target ∈ instruction.operand.targets,
        ∃ other ∈ decoded, (other.offset : Int) = target
  jump :
    ∀ instruction ∈ decoded,
      instruction.kind ∈ [.branch, .jump, .call] →
      instruction.operand.targets.length = 1
  switch :
    ∀ instruction ∈ decoded,
      instruction.kind = .switch →
      instruction.operand.targets.length =
        instruction.operand.keys.length + 1
  roomForKeys : ∀ instruction ∈ decoded, RoomForKeys instruction

namespace Consecutive

variable {index offset : Nat}
variable {decoded : List Instruction}

theorem head_offset
    (consecutive : Consecutive index offset decoded)
    {instruction : Instruction}
    (present : decoded[0]? = some instruction) :
    instruction.offset = offset := by
  cases consecutive with
  | nil index offset =>
      simp at present
  | cons fits longer later =>
      cases present
      rfl

theorem offset_eq_next
    (consecutive : Consecutive index offset decoded)
    {position : Nat}
    {instruction following : Instruction}
    (present : decoded[position]? = some instruction)
    (follows : decoded[position + 1]? = some following) :
    following.offset = instruction.next := by
  induction consecutive generalizing position with
  | nil index offset =>
      simp at present
  | cons fits longer later inductionHypothesis =>
      cases position with
      | zero =>
          cases present
          exact later.head_offset follows
      | succ position =>
          exact inductionHypothesis present follows

theorem longer
    (consecutive : Consecutive index offset decoded)
    {instruction : Instruction}
    (member : instruction ∈ decoded) :
    instruction.offset < instruction.next := by
  induction consecutive with
  | nil index offset =>
      cases member
  | cons fits firstLonger later inductionHypothesis =>
      rcases List.mem_cons.mp member with rfl | inRest
      · exact firstLonger
      · exact inductionHypothesis inRest

end Consecutive

theorem decode_tiled
    {code : Bytes}
    {pool : Pool}
    {decoded : List Instruction}
    (success : decode code pool = .ok decoded) :
    Tiles code.length decoded := by
  have consecutive := decode_consecutive success
  refine
    { nonempty := List.length_pos_iff.mp (decode_nonempty success)
      index_eq := consecutive.index_eq_position
      first := consecutive.head_offset
      length_pos := ?_
      next := consecutive.offset_eq_next
      last := ?_ }
  · intro instruction member
    have longer := consecutive.longer member
    simp only [Instruction.next] at longer
    omega
  · intro instruction isLast
    obtain ⟨_, _, final, readAll⟩ := decode_eq_ok success
    obtain ⟨onward, atEnd, lastEnds⟩ :=
      instructions_end readAll (Nat.le_refl _)
    have total := onward.total
    rw [isLast] at lastEnds
    simp only [Option.map_some, Option.getD_some, Instruction.next] at lastEnds
    rw [atEnd] at total
    simp only [List.length_nil] at total
    omega

theorem decode_lands
    {code : Bytes}
    {pool : Pool}
    {decoded : List Instruction}
    (success : decode code pool = .ok decoded) :
    Lands decoded := by
  have consecutive := decode_consecutive success
  obtain ⟨_, _, final, readAll⟩ := decode_eq_ok success
  refine
    { starts := ?_
      jump := ?_
      switch := ?_
      roomForKeys := ?_ }
  · intro instruction member target isTarget
    obtain ⟨index, other, present, starts⟩ :=
      decode_targets success member isTarget
    exact ⟨other, List.mem_of_getElem? present, starts⟩
  · intro instruction member isJump
    obtain ⟨target, operand⟩ :=
      (consecutive.fits member).complete.target isJump
    rw [operand]
    rfl
  · intro instruction member isSwitch
    obtain ⟨default, cases, operand⟩ :=
      (consecutive.fits member).complete.targets isSwitch
    rw [operand]
    simp [Operand.targets, Operand.keys]
  · intro instruction member
    obtain ⟨_, _, _, read⟩ := instruction_of_mem readAll member
    exact instruction_roomForKeys read

/--
Code is refused with a regular fault, or its instructions fill it from the first
byte to the last and all their jumps land.  A switch that passed the check of its
size is read to its end.
-/
theorem decode_tiles_or_refuses
    (code : Bytes)
    (pool : Pool) :
    ((∃ fault, decode code pool = .error fault ∧ fault.Regular) ∨
      ∃ decoded,
        decode code pool = .ok decoded ∧
          Tiles code.length decoded ∧ Lands decoded) ∧
      (∀ {offset : Nat} {cursor : Cursor} {default low high : Int} {middle : Cursor},
        tableHeader cursor = .ok ((default, low, high), middle) →
        low ≤ high →
        4 * (high - low + 1).toNat ≤ middle.rest.length →
        ∃ operand next,
          tableSwitch offset cursor = .ok (operand, next)) ∧
        ∀ {offset : Nat} {cursor : Cursor} {default count : Int} {middle : Cursor},
          lookupHeader cursor = .ok ((default, count), middle) →
          0 ≤ count →
          8 * count.toNat ≤ middle.rest.length →
          ∃ operand next,
            lookupSwitch offset cursor = .ok (operand, next) := by
  refine ⟨?_, ?_, ?_⟩
  · cases outcome : decode code pool with
    | error fault =>
        exact Or.inl ⟨fault, rfl, decode_fails code pool fault outcome⟩
    | ok decoded =>
        exact Or.inr
          ⟨decoded, rfl, decode_tiled outcome, decode_lands outcome⟩
  · intro offset cursor default low high middle
    exact tableSwitch_ok
  · intro offset cursor default count middle
    exact lookupSwitch_ok

/-- A switch over one key that goes back to the start, with two bytes of padding. -/
def backSwitch : Bytes :=
  [0x03, 0xAA, 0, 0, 0, 0, 0, 19, 0, 0, 0, 7, 0, 0, 0, 7, 255, 255, 255, 255, 0xB1]

/-- The switch ends where the next instruction starts; cut short, it is refused. -/
theorem decode_tiles_backSwitch :
    ∃ decoded,
      decode backSwitch ⟨[]⟩ = .ok decoded ∧
        decoded.map Instruction.offset = [0, 1, 20] ∧
          Tiles 21 decoded ∧
            Lands decoded ∧
              decode (backSwitch.take 18) ⟨[]⟩ =
                .error ⟨.tableTooLong, some 1⟩ := by
  obtain ⟨decoded, success, offsets⟩ :
      ∃ decoded,
        decode backSwitch ⟨[]⟩ = .ok decoded ∧
          decoded.map Instruction.offset = [0, 1, 20] :=
    ⟨_, rfl, rfl⟩
  refine ⟨decoded, success, offsets, ?_⟩
  rcases (decode_tiles_or_refuses backSwitch ⟨[]⟩).1 with
    ⟨fault, refused, _⟩ | ⟨other, decodes, tiles, lands⟩
  · rw [success] at refused
    cases refused
  · cases success.symm.trans decodes
    exact ⟨tiles, lands, rfl⟩

end Code

end KeyAudit
