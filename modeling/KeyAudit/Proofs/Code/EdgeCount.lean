import KeyAudit.Proofs.Code.Complete
import KeyAudit.Proofs.Flow.Adjacency
import Mathlib.Data.List.Count
import Mathlib.Data.List.Nodup

namespace KeyAudit

/-!
# How often an edge occurs

The edges of a flow are known with their multiplicities: for two instructions
and a kind of edge it is told by the instructions and the exception table how
many edges of the kind lead from the one to the other.  A flow through decoded
instructions is refused only when control falls off the end or a handler is no
instruction.
-/

namespace Code.Consecutive

variable {index offset : Nat}
variable {decoded : List Instruction}

/-- The indices of instructions count up. -/
theorem map_index
    (consecutive : Consecutive index offset decoded) :
    decoded.map Instruction.index = List.range' index decoded.length := by
  induction consecutive with
  | nil index offset =>
      rfl
  | cons fits longer later inductionHypothesis =>
      rw [List.map_cons, inductionHypothesis, List.length_cons, List.range'_succ]

theorem index_nodup
    (consecutive : Consecutive index offset decoded) :
    (decoded.map Instruction.index).Nodup := by
  rw [consecutive.map_index]
  exact List.nodup_range'

theorem index_injective
    (consecutive : Consecutive index offset decoded)
    {first second : Instruction}
    (firstMember : first ∈ decoded)
    (secondMember : second ∈ decoded)
    (sameIndex : first.index = second.index) :
    first = second :=
  List.inj_on_of_nodup_map consecutive.index_nodup firstMember secondMember
    sameIndex

/-- What is made of some instructions, and tells their indices, is made once. -/
theorem nodup_map_filter
    (consecutive : Consecutive index offset decoded)
    {Image : Type}
    {make : Instruction → Image}
    (tells : ∀ {first second}, make first = make second → first.index = second.index)
    (chosen : Instruction → Bool) :
    ((decoded.filter chosen).map make).Nodup := by
  apply List.Nodup.map_on
  · intro first firstMember second secondMember same
    exact consecutive.index_injective (List.mem_of_mem_filter firstMember)
      (List.mem_of_mem_filter secondMember) (tells same)
  · exact consecutive.index_nodup.of_map.filter chosen

/-- Instructions that begin the code are told apart by their positions. -/
theorem startsAt_iff
    (consecutive : Consecutive 0 0 decoded)
    {start : Int}
    {position other : Nat}
    {instruction : Instruction}
    (present : decoded[position]? = some instruction)
    (starts : StartsAt decoded other start) :
    other = position ↔ start = instruction.offset := by
  obtain ⟨found, isFound, rfl⟩ := starts
  constructor
  · rintro rfl
    cases present.symm.trans isFound
    rfl
  · intro sameOffset
    have same : found = instruction :=
      consecutive.offset_injective (List.mem_of_getElem? isFound)
        (List.mem_of_getElem? present) (by omega)
    rw [← consecutive.index_eq_position isFound, same,
      consecutive.index_eq_position present]

end Code.Consecutive

namespace CodeFlow

open Code (StartsAt)
open Outcome

/-- The kinds of instructions after which control does not go on to the next one. -/
def departing : List InstructionKind :=
  [.jump, .call, .callReturn, .switch, .exit, .throwing]

theorem fallsThrough_iff
    (source : Instruction) :
    source.fallsThrough = true ↔ source.kind ∉ departing := by
  unfold Instruction.fallsThrough departing
  cases source.kind <;> decide

/-- One way leads from an instruction of a kind to its only target. -/
def jumpWays (kind : InstructionKind) (source target : Instruction) : Nat :=
  if source.kind = kind ∧ source.operand.targets = [(target.offset : Int)] then 1 else 0

/-- The number of ways of a kind that control can take from one instruction to another. -/
def ways
    (instructions : List Instruction)
    (handlers : List Handler)
    (source target : Instruction) :
    EdgeKind → Nat
  | .fallThrough =>
      if source.kind ∉ departing ∧ target.index = source.index + 1 then 1 else 0
  | .branchTaken => jumpWays .branch source target
  | .jump => jumpWays .jump source target
  | .call => jumpWays .call source target
  | .switchDefault =>
      if source.kind = .switch ∧
          source.operand.targets.head? = some (target.offset : Int) then 1 else 0
  | .switchCase key =>
      if source.kind = .switch then
        (source.operand.keys.zip source.operand.targets.tail).count
          (key, (target.offset : Int))
      else 0
  | .callReturn =>
      if source.kind = .callReturn ∧
          ∃ call ∈ instructions, call.kind = .call ∧ target.index = call.index + 1
      then 1 else 0
  | .exception catchType =>
      handlers.countP fun row =>
        row.catchType = catchType ∧ row.target = (target.offset : Int) ∧
          row.start ≤ (source.offset : Int) ∧ (source.offset : Int) < row.stop

section Decoded

variable {instructions : List Instruction}
variable {source target : Instruction}
variable {index : Nat}
variable {kind : EdgeKind}

theorem count_jumpEdges
    (consecutive : Code.Consecutive 0 0 instructions)
    (present : instructions[index]? = some target)
    {jumps : List (EdgeKind × Int)}
    {edges : List Edge}
    (jumped : jumpEdges instructions source jumps = .ok edges) :
    edges.count ⟨source.index, index, kind⟩ =
      jumps.count (kind, (target.offset : Int)) := by
  induction mapM_eq_ok.mp jumped with
  | nil =>
      rfl
  | cons made later inductionHypothesis =>
      rename_i jump edge jumps edges
      obtain ⟨found, lands, made⟩ := bind_eq_ok.mp made
      cases made
      have sameTarget :=
        consecutive.startsAt_iff present
          ((targetIndex_eq_ok consecutive).mp lands)
      rw [List.count_cons, List.count_cons,
        inductionHypothesis (mapM_eq_ok.mpr later)]
      simp only [beq_iff_eq, Edge.mk.injEq, true_and, sameTarget, Prod.ext_iff]
      simp only [and_comm]

/-- Control goes on to the next instruction in at most one way. -/
theorem count_nextEdges
    (consecutive : Code.Consecutive 0 0 instructions)
    (present : instructions[index]? = some target)
    {edges : List Edge}
    (made : nextEdges instructions source = .ok edges) :
    edges.count ⟨source.index, index, kind⟩ =
      if kind = .fallThrough ∧ source.kind ∉ departing ∧
          target.index = source.index + 1 then 1 else 0 := by
  have once : edges.Nodup := by
    unfold nextEdges at made
    split at made
    · split at made
      · cases made
        exact List.nodup_singleton _
      · cases made
    · cases made
      exact List.nodup_nil
  have inside : index < instructions.length :=
    (List.getElem?_eq_some_iff.mp present).1
  rw [once.count]
  apply if_congr _ rfl rfl
  rw [mem_nextEdges made, fallsThrough_iff, consecutive.index_eq_position present]
  constructor
  · rintro ⟨_, isNext, isFollowing, falls, _⟩
    exact ⟨isNext, falls, isFollowing⟩
  · rintro ⟨isNext, falls, isFollowing⟩
    exact ⟨rfl, isNext, isFollowing, falls, isFollowing ▸ inside⟩

/-- Each call of a subroutine is followed by one instruction. -/
theorem count_callReturns
    (consecutive : Code.Consecutive 0 0 instructions)
    (present : instructions[index]? = some target) :
    (callReturns instructions).count index =
      if ∃ call ∈ instructions, call.kind = .call ∧ target.index = call.index + 1
      then 1 else 0 := by
  have once : (callReturns instructions).Nodup :=
    consecutive.nodup_map_filter Nat.succ.inj _
  have inside : index < instructions.length :=
    (List.getElem?_eq_some_iff.mp present).1
  rw [once.count]
  apply if_congr _ rfl rfl
  rw [mem_callReturns, consecutive.index_eq_position present]
  constructor
  · rintro ⟨call, member, isCall, _, rfl⟩
    exact ⟨call, member, isCall, rfl⟩
  · rintro ⟨call, member, isCall, rfl⟩
    exact ⟨call, member, isCall, inside, rfl⟩

/-- A jump with one target goes there in one way. -/
theorem count_jumpEdge
    (consecutive : Code.Consecutive 0 0 instructions)
    (present : instructions[index]? = some target)
    {taken : EdgeKind}
    {offset : Int}
    (operand : source.operand = .jump offset)
    {edges : List Edge}
    (jumped : jumpEdges instructions source [(taken, offset)] = .ok edges) :
    edges.count ⟨source.index, index, kind⟩ =
      if kind = taken then jumpWays source.kind source target else 0 := by
  rw [count_jumpEdges consecutive present jumped, List.count_singleton]
  by_cases isTaken : kind = taken
  · simp [isTaken, jumpWays, operand, Operand.targets]
  · simp [isTaken, Ne.symm isTaken]

/-- The jump of a switch case. -/
def caseJump (entry : Int × Int) : EdgeKind × Int :=
  (.switchCase entry.1, entry.2)

/-- A switch goes to its default target in one way and by each case in one way. -/
theorem count_switchEdges
    (consecutive : Code.Consecutive 0 0 instructions)
    (present : instructions[index]? = some target)
    (isSwitch : source.kind = .switch)
    {default : Int}
    {cases : List (Int × Int)}
    (operand : source.operand = .switch default cases)
    {edges : List Edge}
    (jumped :
      jumpEdges instructions source
        ((.switchDefault, default) :: cases.map caseJump) = .ok edges) :
    edges.count ⟨source.index, index, kind⟩ =
      if kind = .fallThrough then 0 else ways instructions [] source target kind := by
  have onlyCases
      (other : ∀ key, kind ≠ .switchCase key) :
      (cases.map caseJump).count (kind, (target.offset : Int)) = 0 := by
    rw [List.count_eq_zero]
    intro member
    obtain ⟨entry, _, same⟩ := List.mem_map.mp member
    exact other entry.1 (congrArg Prod.fst same).symm
  have injective : Function.Injective caseJump := by
    rintro ⟨key, offset⟩ ⟨otherKey, otherOffset⟩ same
    cases same
    rfl
  have parallel : (cases.map Prod.fst).zip (cases.map Prod.snd) = cases := by
    rw [List.zip_map', List.map_id']
  rw [count_jumpEdges consecutive present jumped, List.count_cons]
  cases kind with
  | switchCase key =>
      have counted :=
        List.count_map_of_injective cases caseJump injective
          (key, (target.offset : Int))
      rw [caseJump] at counted
      simp [ways, isSwitch, operand, Operand.targets, Operand.keys, parallel, counted]
  | switchDefault =>
      rw [onlyCases (by simp)]
      simp [ways, isSwitch, operand, Operand.targets]
  | _ =>
      rw [onlyCases (by simp)]
      simp [ways, jumpWays, isSwitch]

/-- The edges to jump targets occur as often as there are ways of their kinds. -/
theorem count_branchEdges
    (consecutive : Code.Consecutive 0 0 instructions)
    (complete : source.Complete)
    (present : instructions[index]? = some target)
    {edges : List Edge}
    (made : branchEdges instructions source = .ok edges) :
    edges.count ⟨source.index, index, kind⟩ =
      if kind = .fallThrough then 0 else ways instructions [] source target kind := by
  unfold branchEdges at made
  split at made
  · rename_i offset isBranch operand
    rw [count_jumpEdge consecutive present operand made]
    cases kind <;> simp [ways, jumpWays, isBranch]
  · rename_i offset isJump operand
    rw [count_jumpEdge consecutive present operand made]
    cases kind <;> simp [ways, jumpWays, isJump]
  · rename_i offset isCall operand
    rw [count_jumpEdge consecutive present operand made]
    cases kind <;> simp [ways, jumpWays, isCall]
  · rename_i isReturn
    cases made
    have counted := count_callReturns consecutive present
    have injective :
        Function.Injective fun following =>
          Edge.mk source.index following .callReturn := by
      intro first second same
      cases same
      rfl
    by_cases isCallReturn : kind = .callReturn
    · subst isCallReturn
      rw [List.count_map_of_injective _ _ injective, counted]
      simp [ways, isReturn]
    · rw [List.count_eq_zero.mpr (by simp [Ne.symm isCallReturn])]
      cases kind <;> simp_all [ways, jumpWays]
  · rename_i default cases isSwitch operand
    exact count_switchEdges consecutive present isSwitch operand made
  · -- Decoded jumps and switches have their targets, so this is no jump.
    rename_i notReturn notBranch notJump notCall notSwitch
    cases made
    have noJump : source.kind ∉ [.branch, .jump, .call] := by
      intro isJump
      obtain ⟨offset, operand⟩ := complete.target isJump
      simp only [List.mem_cons, List.not_mem_nil, or_false] at isJump
      rcases isJump with isBranch | isGoto | isCall
      · exact notBranch offset isBranch operand
      · exact notJump offset isGoto operand
      · exact notCall offset isCall operand
    have noSwitch : source.kind ≠ .switch := by
      intro isSwitch
      obtain ⟨default, cases, operand⟩ := complete.targets isSwitch
      exact notSwitch default cases isSwitch operand
    simp only [List.mem_cons, List.not_mem_nil, or_false, not_or] at noJump
    cases kind <;> simp_all [ways, jumpWays]

/-- The edges of an instruction occur as often as there are ways of their kinds. -/
theorem count_instructionEdges
    (consecutive : Code.Consecutive 0 0 instructions)
    (complete : source.Complete)
    (present : instructions[index]? = some target)
    {edges : List Edge}
    (made : instructionEdges instructions source = .ok edges) :
    edges.count ⟨source.index, index, kind⟩ =
      ways instructions [] source target kind := by
  obtain ⟨branches, madeBranches, made⟩ := bind_eq_ok.mp made
  obtain ⟨next, madeNext, made⟩ := bind_eq_ok.mp made
  cases made
  rw [List.count_append,
    count_branchEdges consecutive complete present madeBranches,
    count_nextEdges consecutive present madeNext]
  by_cases isNext : kind = .fallThrough
  · simp [isNext, ways]
  · simp [isNext]

/-- The number of rows that send an exception of a kind from one instruction to another. -/
def raised (handlers : List Handler) (source target : Instruction) (kind : EdgeKind) : Nat :=
  handlers.countP fun row =>
    kind = .exception row.catchType ∧ row.target = (target.offset : Int) ∧
      row.start ≤ (source.offset : Int) ∧ (source.offset : Int) < row.stop

theorem ways_eq_add
    (instructions : List Instruction)
    (handlers : List Handler)
    (source target : Instruction)
    (kind : EdgeKind) :
    ways instructions handlers source target kind =
      ways instructions [] source target kind +
        raised handlers source target kind := by
  cases kind <;> simp [ways, raised, eq_comm]

/-- A row of the exception table makes one edge from each instruction that it covers. -/
theorem count_handlerEdges
    (consecutive : Code.Consecutive 0 0 instructions)
    (isSource : source ∈ instructions)
    (present : instructions[index]? = some target)
    {row : Handler}
    {edges : List Edge}
    (made : handlerEdges instructions row = .ok edges) :
    edges.count ⟨source.index, index, kind⟩ = raised [row] source target kind := by
  have once : edges.Nodup := by
    unfold handlerEdges at made
    split at made
    · cases made
    · cases made
      exact consecutive.nodup_map_filter (congrArg Edge.source) _
  have lands :
      StartsAt instructions index row.target ↔ row.target = target.offset := by
    constructor
    · intro starts
      exact (consecutive.startsAt_iff present starts).mp rfl
    · intro sameOffset
      exact ⟨target, present, sameOffset.symm⟩
  rw [once.count, raised, List.countP_singleton]
  apply if_congr _ rfl rfl
  rw [mem_handlerEdges consecutive made, decide_eq_true_iff]
  simp only [lands, Handler.covers, Bool.and_eq_true, decide_eq_true_eq]
  constructor
  · rintro ⟨other, member, sameIndex, isException, covered, isTarget⟩
    obtain rfl := consecutive.index_injective isSource member sameIndex
    exact ⟨isException, isTarget, covered⟩
  · rintro ⟨isException, isTarget, covered⟩
    exact ⟨source, isSource, rfl, isException, covered, isTarget⟩

/-- The edges of a whole exception table occur as often as rows make them. -/
theorem count_exceptional
    (consecutive : Code.Consecutive 0 0 instructions)
    (isSource : source ∈ instructions)
    (present : instructions[index]? = some target)
    {handlers : List Handler}
    {lists : List (List Edge)}
    (made :
      List.Forall₂
        (fun row edges => handlerEdges instructions row = .ok edges)
        handlers lists) :
    lists.flatten.count ⟨source.index, index, kind⟩ =
      raised handlers source target kind := by
  induction made with
  | nil =>
      rfl
  | cons madeRow later inductionHypothesis =>
      rename_i row edges handlers lists
      rw [List.flatten_cons, List.count_append, inductionHypothesis,
        count_handlerEdges consecutive isSource present madeRow]
      simp only [raised]
      rw [← List.countP_append, List.singleton_append]

section Ordinary

variable {sources : List Instruction}
variable {lists : List (List Edge)}
variable {edge : Edge}

theorem source_of_mem_flatten
    (consecutive : Code.Consecutive 0 0 instructions)
    (made :
      List.Forall₂
        (fun source edges => instructionEdges instructions source = .ok edges)
        sources lists)
    (member : edge ∈ lists.flatten) :
    edge.source ∈ sources.map Instruction.index := by
  induction made with
  | nil =>
      cases member
  | cons madeFirst later inductionHypothesis =>
      rw [List.flatten_cons, List.mem_append] at member
      rw [List.map_cons, List.mem_cons]
      rcases member with inFirst | inRest
      · exact Or.inl ((mem_instructionEdges consecutive madeFirst).mp inFirst).1
      · exact Or.inr (inductionHypothesis inRest)

/-- An edge occurs among the edges of all sources as often as among those of its own. -/
theorem count_flatten
    (consecutive : Code.Consecutive 0 0 instructions)
    (made :
      List.Forall₂
        (fun source edges => instructionEdges instructions source = .ok edges)
        sources lists)
    (once : (sources.map Instruction.index).Nodup)
    (isSource : source ∈ sources)
    (edge : Edge)
    (leaves : edge.source = source.index) :
    ∃ edges,
      instructionEdges instructions source = .ok edges ∧
        lists.flatten.count edge = edges.count edge := by
  induction made with
  | nil =>
      cases isSource
  | cons madeFirst later inductionHypothesis =>
      rename_i first firstEdges sources lists
      rw [List.map_cons, List.nodup_cons] at once
      rw [List.flatten_cons, List.count_append]
      rcases List.mem_cons.mp isSource with rfl | inRest
      · have notLater : edge ∉ lists.flatten := by
          intro member
          apply once.1
          rw [← leaves]
          exact source_of_mem_flatten consecutive later member
        rw [List.count_eq_zero.mpr notLater, Nat.add_zero]
        exact ⟨firstEdges, madeFirst, rfl⟩
      · have notFirst : edge ∉ firstEdges := by
          intro member
          apply once.1
          rw [← ((mem_instructionEdges consecutive madeFirst).mp member).1, leaves]
          exact List.mem_map_of_mem inRest
        rw [List.count_eq_zero.mpr notFirst, Nat.zero_add]
        exact inductionHypothesis once.2 inRest

end Ordinary

variable {name : Text}
variable {handlers : List Handler}
variable {flow : CodeFlow}

/-- Each edge of a flow occurs as often as control can take its way. -/
theorem count_edges
    (consecutive : Code.Consecutive 0 0 instructions)
    (built : build name instructions handlers = .ok flow)
    (isSource : source ∈ instructions)
    (present : instructions[index]? = some target) :
    flow.edges.count ⟨source.index, index, kind⟩ =
      ways instructions handlers source target kind := by
  obtain ⟨ordinary, madeOrdinary, built⟩ := bind_eq_ok.mp built
  obtain ⟨exceptional, madeExceptional, built⟩ := bind_eq_ok.mp built
  cases built
  obtain ⟨edges, made, counted⟩ :=
    count_flatten consecutive (mapM_eq_ok.mp madeOrdinary)
      consecutive.index_nodup isSource ⟨source.index, index, kind⟩ rfl
  rw [List.count_append, counted,
    count_instructionEdges consecutive (consecutive.fits isSource).complete
      present made,
    count_exceptional consecutive isSource present
      (mapM_eq_ok.mp madeExceptional)]
  exact (ways_eq_add ..).symm

/-- Why a flow through decoded instructions is refused. -/
inductive Refused
    (instructions : List Instruction)
    (handlers : List Handler) :
    DecodeFault → Prop where
  | fallsOff
      {last : Instruction}
      (isLast : instructions.getLast? = some last)
      (goesOn : last.kind ∉ departing) :
      Refused instructions handlers ⟨.fallsOff, some last.offset⟩
  | badHandler
      {row : Handler}
      (member : row ∈ handlers)
      (misses : ∀ instruction ∈ instructions, (instruction.offset : Int) ≠ row.target) :
      Refused instructions handlers ⟨.badHandler row.target, some row.target⟩

theorem jumpEdges_landing
    (consecutive : Code.Consecutive 0 0 instructions)
    {Holds : DecodeFault → Prop}
    {jumps : List (EdgeKind × Int)}
    (land : ∀ jump ∈ jumps, ∃ index, StartsAt instructions index jump.2) :
    FailsOnly Holds (jumpEdges instructions source jumps) := by
  refine FailsOnly.mapM fun jump member => ?_
  obtain ⟨index, starts⟩ := land jump member
  dsimp only
  rw [(targetIndex_eq_ok consecutive).mpr starts]
  exact .value _

/-- All jumps of decoded instructions land, so no edge to a target is refused. -/
theorem branchEdges_landing
    (consecutive : Code.Consecutive 0 0 instructions)
    {Holds : DecodeFault → Prop}
    (land :
      ∀ target ∈ source.operand.targets,
        ∃ index, StartsAt instructions index target) :
    FailsOnly Holds (branchEdges instructions source) := by
  have single
      {taken : EdgeKind}
      {offset : Int}
      (operand : source.operand = .jump offset) :
      FailsOnly Holds (jumpEdges instructions source [(taken, offset)]) := by
    refine jumpEdges_landing consecutive fun jump member => ?_
    obtain rfl := List.mem_singleton.mp member
    exact land offset (by simp [operand, Operand.targets])
  unfold branchEdges
  split
  · exact single ‹_›
  · exact single ‹_›
  · exact single ‹_›
  · exact .value _
  · rename_i default cases _ operand
    refine jumpEdges_landing consecutive fun jump member => ?_
    apply land jump.2
    rw [operand, Operand.targets]
    rcases List.mem_cons.mp member with rfl | inCases
    · exact List.mem_cons_self
    · obtain ⟨entry, isCase, rfl⟩ := List.mem_map.mp inCases
      exact List.mem_cons_of_mem _ (List.mem_map_of_mem isCase)
  · exact .value _

/-- An instruction that no other one can follow is the last one. -/
theorem getLast?_of_atEnd
    (consecutive : Code.Consecutive 0 0 instructions)
    (member : source ∈ instructions)
    (atEnd : ¬ source.index + 1 < instructions.length) :
    instructions.getLast? = some source := by
  obtain ⟨position, present⟩ := List.mem_iff_getElem?.mp member
  have isIndex := consecutive.index_eq_position present
  have inside := (List.getElem?_eq_some_iff.mp present).1
  have isEnd : instructions.length - 1 = position := by omega
  rw [List.getLast?_eq_getElem?, isEnd, present]

theorem index_of_getLast?
    (consecutive : Code.Consecutive 0 0 instructions)
    (isLast : instructions.getLast? = some source) :
    source.index = instructions.length - 1 := by
  rw [List.getLast?_eq_getElem?] at isLast
  exact consecutive.index_eq_position isLast

theorem nextEdges_refused
    (consecutive : Code.Consecutive 0 0 instructions)
    (isSource : source ∈ instructions)
    (handlers : List Handler) :
    FailsOnly (Refused instructions handlers) (nextEdges instructions source) := by
  unfold nextEdges
  split
  · rename_i falls
    split
    · exact .value _
    · rename_i atEnd
      have isLast := getLast?_of_atEnd consecutive isSource atEnd
      exact .fault (.fallsOff isLast ((fallsThrough_iff source).mp falls))
  · exact .value _

theorem handlerEdges_refused
    (consecutive : Code.Consecutive 0 0 instructions)
    {row : Handler}
    (member : row ∈ handlers) :
    FailsOnly (Refused instructions handlers) (handlerEdges instructions row) := by
  unfold handlerEdges
  split
  · rename_i notFound
    refine .fault (.badHandler member fun instruction isMember starts => ?_)
    obtain ⟨index, present⟩ := List.mem_iff_getElem?.mp isMember
    have found := (indexAt?_eq_some consecutive).mpr ⟨instruction, present, starts⟩
    rw [notFound] at found
    cases found
  · exact .value _

/-- A flow is refused only because control falls off or a handler is no instruction. -/
theorem build_refused
    (consecutive : Code.Consecutive 0 0 instructions)
    (land :
      ∀ source ∈ instructions,
        ∀ target ∈ source.operand.targets,
          ∃ index, StartsAt instructions index target)
    (name : Text)
    (handlers : List Handler) :
    FailsOnly (Refused instructions handlers)
      (build name instructions handlers) := by
  unfold build
  refine (FailsOnly.mapM fun source isSource => ?_).bind fun _ => ?_
  · exact (branchEdges_landing consecutive (land source isSource)).bind fun _ =>
      (nextEdges_refused consecutive isSource handlers).bind fun _ => .value _
  · refine (FailsOnly.mapM fun row member => ?_).bind fun _ => .value _
    exact handlerEdges_refused consecutive member

theorem getLast?_of_built
    (consecutive : Code.Consecutive 0 0 instructions)
    (built : build name instructions handlers = .ok flow)
    {last : Instruction}
    (isLast : instructions.getLast? = some last) :
    last.kind ∈ departing := by
  by_contra goesOn
  have inside :=
    next_lt_length built (List.mem_of_getLast? isLast)
      ((fallsThrough_iff last).mpr goesOn)
  have isIndex := index_of_getLast? consecutive isLast
  omega

end Decoded

/-- The edges that were chosen are those with a property, in the order of all. -/
structure Selects
    (Chosen : Edge → Prop)
    [DecidablePred Chosen]
    (edges chosen : List Edge) : Prop where
  inOrder : chosen.Sublist edges
  counted : ∀ edge, chosen.count edge = if Chosen edge then edges.count edge else 0

theorem selects_filter
    {Chosen : Edge → Prop}
    [DecidablePred Chosen]
    (edges : List Edge) :
    Selects Chosen edges (edges.filter Chosen) where
  inOrder := List.filter_sublist
  counted edge := by
    split
    · rename_i isChosen
      exact List.count_filter (decide_eq_true isChosen)
    · rename_i notChosen
      apply List.count_eq_zero.mpr
      intro member
      exact notChosen (of_decide_eq_true (List.mem_filter.mp member).2)

/-- The edges of a flow are the ways between the instructions, with their multiplicities. -/
structure Exact
    (instructions : List Instruction)
    (handlers : List Handler)
    (flow : CodeFlow) : Prop where
  instructions_eq : flow.instructions = instructions
  inside :
    ∀ edge ∈ flow.edges,
      edge.source < instructions.length ∧ edge.target < instructions.length
  counted :
    ∀ {first second : Nat} {source target : Instruction},
      instructions[first]? = some source →
        instructions[second]? = some target →
          ∀ kind,
            flow.edges.count ⟨first, second, kind⟩ =
              ways instructions handlers source target kind
  outgoing :
    ∀ node,
      Selects (fun edge => edge.source = node) flow.edges (flow.graph.outgoing node)
  incoming :
    ∀ node,
      Selects (fun edge => edge.target = node) flow.edges (flow.graph.incoming node)
  /-- The lists that are kept while the edges are added are these. -/
  adjacency : Adjacency.ofGraph? flow.graph = some (.ofGraph flow.graph)

/-- The edges of a flow lead from instructions to instructions. -/
theorem edges_inside
    {name : Text}
    {instructions : List Instruction}
    {handlers : List Handler}
    {flow : CodeFlow}
    (consecutive : Code.Consecutive 0 0 instructions)
    (built : build name instructions handlers = .ok flow) :
    ∀ edge ∈ flow.edges, Adjacency.Inside instructions.length edge := by
  intro edge member
  obtain ⟨source, present, joins⟩ := (mem_edges_iff consecutive built).mp member
  exact ⟨(List.getElem?_eq_some_iff.mp present).1, joins.lt_length⟩

theorem build_exact
    {name : Text}
    {instructions : List Instruction}
    {handlers : List Handler}
    {flow : CodeFlow}
    (consecutive : Code.Consecutive 0 0 instructions)
    (built : build name instructions handlers = .ok flow) :
    Exact instructions handlers flow where
  instructions_eq := build_instructions built
  inside := edges_inside consecutive built
  counted atFirst atSecond kind := by
    rw [← consecutive.index_eq_position atFirst]
    exact count_edges consecutive built (List.mem_of_getElem? atFirst) atSecond
  outgoing _ := selects_filter flow.edges
  incoming _ := selects_filter flow.edges
  adjacency := by
    rw [Adjacency.ofGraph?_eq_some, graph, build_instructions built]
    exact ⟨edges_inside consecutive built, rfl⟩

/--
The flow through decoded instructions is refused exactly when control falls off
the end or a handler is no instruction, and never for a jump.  Otherwise its edges
are the ways that control can take, as often as there are such ways.
-/
theorem build_exact_or_refused
    {code : Bytes}
    {pool : Pool}
    {instructions : List Instruction}
    (decoded : Code.decode code pool = .ok instructions)
    (name : Text)
    (handlers : List Handler) :
    ((∃ fault, build name instructions handlers = .error fault) ↔
        (∃ last, instructions.getLast? = some last ∧ last.kind ∉ departing) ∨
          ∃ row ∈ handlers,
            ∀ instruction ∈ instructions, (instruction.offset : Int) ≠ row.target) ∧
      (∀ fault,
          build name instructions handlers = .error fault →
            Refused instructions handlers fault) ∧
        ∀ flow,
          build name instructions handlers = .ok flow →
            Exact instructions handlers flow := by
  have consecutive := Code.decode_consecutive decoded
  have refused :=
    build_refused consecutive
      (fun _ member _ isTarget => Code.decode_targets decoded member isTarget)
      name handlers
  refine ⟨⟨?_, ?_⟩, refused, fun flow built => build_exact consecutive built⟩
  · rintro ⟨fault, failed⟩
    rcases refused fault failed with ⟨isLast, goesOn⟩ | ⟨member, misses⟩
    · exact .inl ⟨_, isLast, goesOn⟩
    · exact .inr ⟨_, member, misses⟩
  · intro reason
    cases built : build name instructions handlers with
    | error fault =>
        exact ⟨fault, rfl⟩
    | ok flow =>
        rcases reason with ⟨last, isLast, goesOn⟩ | ⟨row, member, misses⟩
        · exact absurd (getLast?_of_built consecutive built isLast) goesOn
        · obtain ⟨_, instruction, present, starts⟩ :=
            handler_lands consecutive built member
          exact absurd starts (misses instruction (List.mem_of_getElem? present))

/-- Two calls of a subroutine that begins behind the second one. -/
def twoCalls : Bytes :=
  [0xA8, 0, 6, 0xA8, 0, 3, 0x4B, 0xA9, 0, 0xB1]

/-- Two rows of an exception table that say the same. -/
def twoRows : List Handler :=
  [⟨0, 7, 9, none⟩, ⟨0, 7, 9, none⟩]

set_option maxRecDepth 4000 in
/--
Two rows make two edges from a call to their handler, and the subroutine returns
behind both calls.  A handler inside an instruction is refused.
-/
theorem build_exact_twoCalls :
    ∃ instructions flow,
      Code.decode twoCalls ⟨[]⟩ = .ok instructions ∧
        build "calls" instructions twoRows = .ok flow ∧
          flow.edges.count ⟨0, 4, .exception none⟩ = 2 ∧
            flow.edges.count ⟨3, 1, .callReturn⟩ = 1 ∧
              flow.edges.count ⟨3, 2, .callReturn⟩ = 1 ∧
                ∃ fault,
                  build "calls" instructions [⟨0, 7, 8, none⟩] = .error fault := by
  obtain ⟨instructions, flow, first, second, third, back, last, decoded, built,
      atFirst, atSecond, atThird, atBack, atLast, caught, afterFirst, afterSecond,
      misses⟩ :
      ∃ instructions flow first second third back last,
        Code.decode twoCalls ⟨[]⟩ = .ok instructions ∧
          build "calls" instructions twoRows = .ok flow ∧
            instructions[0]? = some first ∧
              instructions[1]? = some second ∧
                instructions[2]? = some third ∧
                  instructions[3]? = some back ∧
                    instructions[4]? = some last ∧
                      ways instructions twoRows first last (.exception none) = 2 ∧
                        ways instructions twoRows back second .callReturn = 1 ∧
                          ways instructions twoRows back third .callReturn = 1 ∧
                            ∀ instruction ∈ instructions,
                              (instruction.offset : Int) ≠ 8 :=
    ⟨_, _, _, _, _, _, _, rfl, rfl, rfl, rfl, rfl, rfl, rfl, rfl, rfl, rfl, by decide⟩
  obtain ⟨_, _, isExact⟩ := build_exact_or_refused decoded "calls" twoRows
  obtain ⟨refused, _⟩ :=
    build_exact_or_refused decoded "calls" [⟨0, 7, 8, none⟩]
  have edges := isExact flow built
  refine ⟨instructions, flow, decoded, built, ?_, ?_, ?_, ?_⟩
  · exact (edges.counted atFirst atLast _).trans caught
  · exact (edges.counted atBack atSecond _).trans afterFirst
  · exact (edges.counted atBack atThird _).trans afterSecond
  · exact refused.mpr (.inr ⟨_, List.mem_singleton_self _, misses⟩)

end CodeFlow

end KeyAudit
