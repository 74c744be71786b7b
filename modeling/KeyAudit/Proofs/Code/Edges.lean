import KeyAudit.Code.Flow
import KeyAudit.Proofs.Code.Decoded
import KeyAudit.Proofs.Flow.Path

namespace KeyAudit

/-!
# The edges of a flow

The edges that leave a decoded instruction are told by its kind and its operand,
and the rows of the exception table tell the rest.  All of them lead to decoded
instructions.
-/

namespace CodeFlow

open Code (StartsAt)

/-- Where control can go from an instruction other than by an exception. -/
inductive Leads
    (instructions : List Instruction)
    (source : Instruction) :
    EdgeKind → Nat → Prop where
  | next
      (falls : source.fallsThrough = true)
      (inside : source.index + 1 < instructions.length) :
      Leads instructions source .fallThrough (source.index + 1)
  | branch
      {offset : Int}
      {target : Nat}
      (kind : source.kind = .branch)
      (operand : source.operand = .jump offset)
      (lands : StartsAt instructions target offset) :
      Leads instructions source .branchTaken target
  | jump
      {offset : Int}
      {target : Nat}
      (kind : source.kind = .jump)
      (operand : source.operand = .jump offset)
      (lands : StartsAt instructions target offset) :
      Leads instructions source .jump target
  | call
      {offset : Int}
      {target : Nat}
      (kind : source.kind = .call)
      (operand : source.operand = .jump offset)
      (lands : StartsAt instructions target offset) :
      Leads instructions source .call target
  | callReturn
      {call : Instruction}
      (kind : source.kind = .callReturn)
      (member : call ∈ instructions)
      (isCall : call.kind = .call)
      (inside : call.index + 1 < instructions.length) :
      Leads instructions source .callReturn (call.index + 1)
  | switchDefault
      {default : Int}
      {cases : List (Int × Int)}
      {target : Nat}
      (kind : source.kind = .switch)
      (operand : source.operand = .switch default cases)
      (lands : StartsAt instructions target default) :
      Leads instructions source .switchDefault target
  | switchCase
      {default key offset : Int}
      {cases : List (Int × Int)}
      {target : Nat}
      (kind : source.kind = .switch)
      (operand : source.operand = .switch default cases)
      (member : (key, offset) ∈ cases)
      (lands : StartsAt instructions target offset) :
      Leads instructions source (.switchCase key) target

section Decoded

variable {instructions : List Instruction}

theorem indexAt?_eq_some
    (consecutive : Code.Consecutive 0 0 instructions)
    {offset : Int}
    {index : Nat} :
    indexAt? instructions offset = some index ↔
      StartsAt instructions index offset := by
  unfold indexAt? StartsAt
  rw [Option.map_eq_some_iff]
  constructor
  · rintro ⟨instruction, found, rfl⟩
    have starts : (instruction.offset : Int) = offset := by
      simpa using List.find?_some found
    obtain ⟨position, present⟩ :=
      List.mem_iff_getElem?.mp (List.mem_of_find?_eq_some found)
    have atPosition := consecutive.index_eq_position present
    exact ⟨instruction, atPosition ▸ present, starts⟩
  · rintro ⟨instruction, present, starts⟩
    have member : instruction ∈ instructions :=
      List.mem_of_getElem? present
    have someStart :
        (instructions.find? fun other =>
          (other.offset : Int) == offset).isSome := by
      rw [List.find?_isSome]
      exact ⟨instruction, member, by simpa using starts⟩
    obtain ⟨found, isFound⟩ := Option.isSome_iff_exists.mp someStart
    have foundStarts : (found.offset : Int) = offset := by
      simpa using List.find?_some isFound
    -- Offsets are unique, so the first instruction found is this one.
    have same : found = instruction :=
      consecutive.offset_injective
        (List.mem_of_find?_eq_some isFound) member (by omega)
    refine ⟨found, isFound, ?_⟩
    rw [same, consecutive.index_eq_position present]

theorem targetIndex_eq_ok
    (consecutive : Code.Consecutive 0 0 instructions)
    {source : Instruction}
    {offset : Int}
    {index : Nat} :
    targetIndex instructions source offset = .ok index ↔
      StartsAt instructions index offset := by
  rw [← indexAt?_eq_some consecutive]
  unfold targetIndex
  split
  · rename_i found isFound
    simp [isFound]
  · rename_i notFound
    simp [notFound]

theorem mem_jumpEdges
    (consecutive : Code.Consecutive 0 0 instructions)
    {source : Instruction}
    {jumps : List (EdgeKind × Int)}
    {edges : List Edge}
    (jumped : jumpEdges instructions source jumps = .ok edges)
    {edge : Edge} :
    edge ∈ edges ↔
      edge.source = source.index ∧
        ∃ offset,
          (edge.kind, offset) ∈ jumps ∧
            StartsAt instructions edge.target offset := by
  unfold jumpEdges at jumped
  rw [Outcome.mem_of_mapM jumped]
  constructor
  · rintro ⟨⟨kind, offset⟩, member, made⟩
    obtain ⟨index, found, made⟩ := Outcome.bind_eq_ok.mp made
    cases made
    exact
      ⟨rfl, offset, member, (targetIndex_eq_ok consecutive).mp found⟩
  · rintro ⟨sourceEq, offset, member, starts⟩
    refine ⟨(edge.kind, offset), member, ?_⟩
    rw [Outcome.bind_eq_ok]
    refine
      ⟨edge.target, (targetIndex_eq_ok consecutive).mpr starts, ?_⟩
    rw [← sourceEq]
    rfl

theorem mem_callReturns
    {index : Nat} :
    index ∈ callReturns instructions ↔
      ∃ call ∈ instructions,
        call.kind = .call ∧
          call.index + 1 < instructions.length ∧
            call.index + 1 = index := by
  simp [callReturns, and_assoc]

theorem mem_nextEdges
    {source : Instruction}
    {edges : List Edge}
    (made : nextEdges instructions source = .ok edges)
    {edge : Edge} :
    edge ∈ edges ↔
      edge.source = source.index ∧
        edge.kind = .fallThrough ∧
          edge.target = source.index + 1 ∧
            source.fallsThrough = true ∧
              source.index + 1 < instructions.length := by
  unfold nextEdges at made
  split at made
  · rename_i falls
    split at made
    · rename_i inside
      cases made
      cases edge
      simp only [List.mem_singleton, Edge.mk.injEq, falls, inside, and_true]
      tauto
    · cases made
  · rename_i staysOut
    cases made
    simp [staysOut]

/-- The edges to jump targets are those that the kind and the operand tell. -/
theorem mem_branchEdges
    (consecutive : Code.Consecutive 0 0 instructions)
    {source : Instruction}
    {edges : List Edge}
    (made : branchEdges instructions source = .ok edges)
    {edge : Edge} :
    edge ∈ edges ↔
      edge.source = source.index ∧
        edge.kind ≠ .fallThrough ∧
          Leads instructions source edge.kind edge.target := by
  unfold branchEdges at made
  obtain ⟨edgeSource, edgeTarget, edgeKind⟩ := edge
  split at made
  · rename_i offset kind operand
    rw [mem_jumpEdges consecutive made]
    constructor
    · rintro ⟨rfl, _, member, starts⟩
      cases List.mem_singleton.mp member
      exact ⟨rfl, by simp, .branch kind operand starts⟩
    · rintro ⟨rfl, notNext, leads⟩
      cases leads <;> simp_all
  · rename_i offset kind operand
    rw [mem_jumpEdges consecutive made]
    constructor
    · rintro ⟨rfl, _, member, starts⟩
      cases List.mem_singleton.mp member
      exact ⟨rfl, by simp, .jump kind operand starts⟩
    · rintro ⟨rfl, notNext, leads⟩
      cases leads <;> simp_all
  · rename_i offset kind operand
    rw [mem_jumpEdges consecutive made]
    constructor
    · rintro ⟨rfl, _, member, starts⟩
      cases List.mem_singleton.mp member
      exact ⟨rfl, by simp, .call kind operand starts⟩
    · rintro ⟨rfl, notNext, leads⟩
      cases leads <;> simp_all
  · rename_i kind
    cases made
    simp only [List.mem_map, mem_callReturns, Edge.mk.injEq]
    constructor
    · rintro ⟨_, ⟨call, member, isCall, inside, rfl⟩, rfl, rfl, rfl⟩
      exact ⟨rfl, by simp, .callReturn kind member isCall inside⟩
    · rintro ⟨rfl, notNext, leads⟩
      cases leads with
      | callReturn _ member isCall inside =>
          exact ⟨_, ⟨_, member, isCall, inside, rfl⟩, rfl, rfl, rfl⟩
      | _ => simp_all
  · rename_i default cases kind operand
    rw [mem_jumpEdges consecutive made]
    constructor
    · rintro ⟨rfl, offset, member, starts⟩
      rcases List.mem_cons.mp member with isDefault | inCases
      · cases isDefault
        exact ⟨rfl, by simp, .switchDefault kind operand starts⟩
      · obtain ⟨⟨key, caseOffset⟩, inTable, same⟩ :=
          List.mem_map.mp inCases
        cases same
        exact ⟨rfl, by simp, .switchCase kind operand inTable starts⟩
    · rintro ⟨rfl, notNext, leads⟩
      cases leads with
      | switchCase _ sameOperand inTable starts =>
          cases operand.symm.trans sameOperand
          exact
            ⟨rfl, _, List.mem_cons_of_mem _
              (List.mem_map.mpr ⟨_, inTable, rfl⟩), starts⟩
      | _ => simp_all
  · cases made
    simp only [List.not_mem_nil, false_iff]
    rintro ⟨rfl, notNext, leads⟩
    cases leads <;> simp_all

theorem mem_instructionEdges
    (consecutive : Code.Consecutive 0 0 instructions)
    {source : Instruction}
    {edges : List Edge}
    (made : instructionEdges instructions source = .ok edges)
    {edge : Edge} :
    edge ∈ edges ↔
      edge.source = source.index ∧
        Leads instructions source edge.kind edge.target := by
  obtain ⟨branches, madeBranches, made⟩ := Outcome.bind_eq_ok.mp made
  obtain ⟨next, madeNext, made⟩ := Outcome.bind_eq_ok.mp made
  cases made
  rw [List.mem_append, mem_branchEdges consecutive madeBranches,
    mem_nextEdges madeNext]
  constructor
  · rintro (⟨sourceEq, _, leads⟩ |
      ⟨sourceEq, kindEq, targetEq, falls, inside⟩)
    · exact ⟨sourceEq, leads⟩
    · rw [kindEq, targetEq]
      exact ⟨sourceEq, .next falls inside⟩
  · rintro ⟨sourceEq, leads⟩
    by_cases isNext : edge.kind = .fallThrough
    · right
      obtain ⟨edgeSource, edgeTarget, edgeKind⟩ := edge
      cases isNext
      cases leads with
      | next falls inside =>
          exact ⟨sourceEq, rfl, rfl, falls, inside⟩
    · exact Or.inl ⟨sourceEq, isNext, leads⟩

theorem mem_handlerEdges
    (consecutive : Code.Consecutive 0 0 instructions)
    {handler : Handler}
    {edges : List Edge}
    (made : handlerEdges instructions handler = .ok edges)
    {edge : Edge} :
    edge ∈ edges ↔
      ∃ source ∈ instructions,
        edge.source = source.index ∧
          edge.kind = .exception handler.catchType ∧
            handler.covers source.offset = true ∧
              StartsAt instructions edge.target handler.target := by
  unfold handlerEdges at made
  split at made
  · cases made
  · rename_i target found
    cases made
    obtain ⟨edgeSource, edgeTarget, edgeKind⟩ := edge
    simp only [List.mem_map, List.mem_filter, Edge.mk.injEq,
      ← indexAt?_eq_some consecutive, found, Option.some.injEq]
    constructor
    · rintro ⟨source, ⟨member, covered⟩, rfl, rfl, rfl⟩
      exact ⟨source, member, rfl, rfl, covered, rfl⟩
    · rintro ⟨source, member, rfl, rfl, covered, rfl⟩
      exact ⟨source, ⟨member, covered⟩, rfl, rfl, rfl⟩

/-- Where control can go from one instruction to another, exceptions included. -/
inductive Joins
    (instructions : List Instruction)
    (handlers : List Handler)
    (source : Instruction) :
    EdgeKind → Nat → Prop where
  | leads
      {kind : EdgeKind}
      {target : Nat}
      (leads : Leads instructions source kind target) :
      Joins instructions handlers source kind target
  | raises
      {handler : Handler}
      {target : Nat}
      (member : handler ∈ handlers)
      (covered : handler.covers source.offset = true)
      (lands : StartsAt instructions target handler.target) :
      Joins instructions handlers source
        (.exception handler.catchType) target

variable {name : Text}
variable {handlers : List Handler}
variable {flow : CodeFlow}

theorem build_instructions
    (built : build name instructions handlers = .ok flow) :
    flow.instructions = instructions := by
  obtain ⟨_, _, built⟩ := Outcome.bind_eq_ok.mp built
  obtain ⟨_, _, built⟩ := Outcome.bind_eq_ok.mp built
  cases built
  rfl

/-- The edges of a flow are the ways that control can take between its instructions. -/
theorem mem_edges_iff
    (consecutive : Code.Consecutive 0 0 instructions)
    (built : build name instructions handlers = .ok flow)
    {edge : Edge} :
    edge ∈ flow.edges ↔
      ∃ source,
        instructions[edge.source]? = some source ∧
          Joins instructions handlers source edge.kind edge.target := by
  have sourcePosition
      {source : Instruction} :
      (source ∈ instructions ∧ edge.source = source.index) ↔
        instructions[edge.source]? = some source := by
    constructor
    · rintro ⟨member, sourceEq⟩
      obtain ⟨position, present⟩ := List.mem_iff_getElem?.mp member
      have atPosition := consecutive.index_eq_position present
      rw [sourceEq, atPosition]
      exact present
    · intro present
      have atPosition := consecutive.index_eq_position present
      exact ⟨List.mem_of_getElem? present, atPosition.symm⟩
  obtain ⟨ordinary, madeOrdinary, built⟩ := Outcome.bind_eq_ok.mp built
  obtain ⟨exceptional, madeExceptional, built⟩ :=
    Outcome.bind_eq_ok.mp built
  cases built
  simp only [List.mem_append, List.mem_flatten]
  constructor
  · rintro (⟨edges, made, member⟩ | ⟨edges, made, member⟩)
    · obtain ⟨source, isSource, made⟩ :=
        (Outcome.mem_of_mapM madeOrdinary).mp made
      obtain ⟨sourceEq, leads⟩ :=
        (mem_instructionEdges consecutive made).mp member
      exact
        ⟨source, sourcePosition.mp ⟨isSource, sourceEq⟩, .leads leads⟩
    · obtain ⟨handler, isHandler, made⟩ :=
        (Outcome.mem_of_mapM madeExceptional).mp made
      obtain ⟨source, isSource, sourceEq, kindEq, covered, lands⟩ :=
        (mem_handlerEdges consecutive made).mp member
      refine ⟨source, sourcePosition.mp ⟨isSource, sourceEq⟩, ?_⟩
      rw [kindEq]
      exact .raises isHandler covered lands
  · rintro ⟨source, present, joins⟩
    obtain ⟨isSource, sourceEq⟩ := sourcePosition.mpr present
    obtain ⟨edgeSource, edgeTarget, edgeKind⟩ := edge
    cases joins with
    | leads leads =>
        obtain ⟨edges, made⟩ :=
          Outcome.ok_of_mapM madeOrdinary isSource
        exact Or.inl
          ⟨edges, (Outcome.mem_of_mapM madeOrdinary).mpr
              ⟨source, isSource, made⟩,
            (mem_instructionEdges consecutive made).mpr
              ⟨sourceEq, leads⟩⟩
    | raises isHandler covered lands =>
        obtain ⟨edges, made⟩ :=
          Outcome.ok_of_mapM madeExceptional isHandler
        exact Or.inr
          ⟨edges, (Outcome.mem_of_mapM madeExceptional).mpr
              ⟨_, isHandler, made⟩,
            (mem_handlerEdges consecutive made).mpr
              ⟨source, isSource, sourceEq, rfl, covered, lands⟩⟩

/-- Control does not fall off the end of a flow. -/
theorem next_lt_length
    (built : build name instructions handlers = .ok flow)
    {source : Instruction}
    (member : source ∈ instructions)
    (falls : source.fallsThrough = true) :
    source.index + 1 < instructions.length := by
  obtain ⟨_, madeOrdinary, _⟩ := Outcome.bind_eq_ok.mp built
  obtain ⟨_, made⟩ := Outcome.ok_of_mapM madeOrdinary member
  obtain ⟨_, _, made⟩ := Outcome.bind_eq_ok.mp made
  obtain ⟨_, madeNext, _⟩ := Outcome.bind_eq_ok.mp made
  unfold nextEdges at madeNext
  rw [if_pos falls] at madeNext
  split at madeNext
  · assumption
  · cases madeNext

theorem handler_lands
    (consecutive : Code.Consecutive 0 0 instructions)
    (built : build name instructions handlers = .ok flow)
    {handler : Handler}
    (member : handler ∈ handlers) :
    ∃ target, StartsAt instructions target handler.target := by
  obtain ⟨_, _, built⟩ := Outcome.bind_eq_ok.mp built
  obtain ⟨_, madeExceptional, _⟩ := Outcome.bind_eq_ok.mp built
  obtain ⟨_, made⟩ := Outcome.ok_of_mapM madeExceptional member
  unfold handlerEdges at made
  cases found : indexAt? instructions handler.target with
  | none =>
      simp only [found] at made
      cases made
  | some target =>
      exact ⟨target, (indexAt?_eq_some consecutive).mp found⟩

theorem Leads.not_exception
    {source : Instruction}
    {kind : EdgeKind}
    {target : Nat}
    (leads : Leads instructions source kind target) :
    kind.isException = false := by
  cases leads <;> rfl

theorem Joins.lt_length
    {source : Instruction}
    {kind : EdgeKind}
    {target : Nat}
    (joins : Joins instructions handlers source kind target) :
    target < instructions.length := by
  cases joins with
  | raises _ _ lands => exact lands.lt_length
  | leads leads =>
      cases leads with
      | next _ inside => exact inside
      | callReturn _ _ _ inside => exact inside
      | branch _ _ lands => exact lands.lt_length
      | jump _ _ lands => exact lands.lt_length
      | call _ _ lands => exact lands.lt_length
      | switchDefault _ _ lands => exact lands.lt_length
      | switchCase _ _ _ lands => exact lands.lt_length

/-- Every edge of a flow through decoded instructions leads to one of them. -/
theorem build_closed
    (consecutive : Code.Consecutive 0 0 instructions)
    (built : build name instructions handlers = .ok flow) :
    flow.graph.Closed := by
  intro edge member
  obtain ⟨source, _, joins⟩ := (mem_edges_iff consecutive built).mp member
  change edge.target < flow.instructions.length
  rw [build_instructions built]
  exact joins.lt_length

end Decoded

end CodeFlow

end KeyAudit
