import KeyAudit.Proofs.Machine.Simulation

namespace KeyAudit.Machine

/-!
# Executions and frames

The edges of a flow are where control can go in the machine, so the executions
arrive at an instruction exactly with what its computed frame tells: the frame
is there when an execution comes to the instruction, and it knows a literal when
all of them bring it.  No execution gets stuck.
-/

open KeyAudit.Frame KeyAudit.MethodFrames

namespace Program

/-- An execution comes to an index with the words that a frame tells. -/
def Arrives (program : Program) (index : Nat) (frame : Frame) : Prop :=
  ∃ memory, program.Reaches index memory ∧ memory.frame = frame

variable {program : Program}

theorem Reaches.snoc
    {index target : Nat}
    {before after : Memory}
    (reaches : program.Reaches index before)
    (step : program.Step (index, before) (target, after)) :
    program.Reaches target after := by
  obtain ⟨locals, sized, steps⟩ := reaches
  exact ⟨locals, sized, steps.tail step⟩

section Flow

variable {name : Text}
variable {flow : CodeFlow}
variable {index target : Nat}
variable {instruction : Instruction}

theorem mem_outgoing_iff
    (consecutive : Code.Consecutive 0 0 program.instructions)
    (built :
      CodeFlow.build name program.instructions program.handlers = .ok flow)
    (present : program.instructions[index]? = some instruction)
    {edge : Edge} :
    edge ∈ flow.graph.outgoing index ↔
      edge.source = index ∧
        CodeFlow.Joins program.instructions program.handlers instruction
          edge.kind edge.target := by
  have inFlow :
      edge ∈ flow.edges ↔ _ :=
    CodeFlow.mem_edges_iff consecutive built
  rw [Graph.mem_outgoing]
  constructor
  · rintro ⟨member, rfl⟩
    obtain ⟨source, sourcePresent, joins⟩ := inFlow.mp member
    cases present.symm.trans sourcePresent
    exact ⟨rfl, joins⟩
  · rintro ⟨rfl, joins⟩
    exact ⟨inFlow.mpr ⟨instruction, present, joins⟩, rfl⟩

/-- Control goes from an instruction along its edges other than exceptions. -/
theorem successor_iff
    (consecutive : Code.Consecutive 0 0 program.instructions)
    (built :
      CodeFlow.build name program.instructions program.handlers = .ok flow)
    (present : program.instructions[index]? = some instruction) :
    program.Successor index instruction target ↔
      ∃ edge ∈ flow.graph.outgoing index,
        edge.kind.isException = false ∧ edge.target = target := by
  simp only [mem_outgoing_iff consecutive built present]
  constructor
  · intro successor
    have goesOn :=
      CodeFlow.next_lt_length built (List.mem_of_getElem? present)
    obtain ⟨kind, leads⟩ :=
      leads_of_successor consecutive present goesOn successor
    exact
      ⟨⟨index, target, kind⟩, ⟨rfl, .leads leads⟩, leads.not_exception, rfl⟩
  · rintro ⟨⟨source, _, kind⟩, ⟨_, joins⟩, ordinary, rfl⟩
    cases joins with
    | leads leads =>
        exact successor_of_leads consecutive present leads
    | raises =>
        cases ordinary

/-- Exceptions take control along the other edges. -/
theorem raises_iff
    (consecutive : Code.Consecutive 0 0 program.instructions)
    (built :
      CodeFlow.build name program.instructions program.handlers = .ok flow)
    (present : program.instructions[index]? = some instruction) :
    program.Raises instruction target ↔
      ∃ edge ∈ flow.graph.outgoing index,
        edge.kind.isException = true ∧ edge.target = target := by
  simp only [mem_outgoing_iff consecutive built present]
  constructor
  · rintro ⟨handler, member, started, notStopped, lands⟩
    have covered : handler.covers instruction.offset = true := by
      simp [Handler.covers, started, notStopped]
    exact
      ⟨⟨index, target, .exception handler.catchType⟩,
        ⟨rfl, .raises member covered lands⟩, rfl, rfl⟩
  · rintro ⟨⟨source, _, kind⟩, ⟨_, joins⟩, exceptional, rfl⟩
    cases joins with
    | leads leads =>
        rw [leads.not_exception] at exceptional
        cases exceptional
    | raises member covered lands =>
        simp only [Handler.covers, Bool.and_eq_true, decide_eq_true_eq]
          at covered
        exact ⟨_, member, covered.1, covered.2, lands⟩

/-- Executions go on along every edge. -/
theorem arrives_goesOn
    (consecutive : Code.Consecutive 0 0 program.instructions)
    (built :
      CodeFlow.build name program.instructions program.handlers =
        .ok flow) :
    GoesOn flow program.maxLocals program.Arrives where
  entry := by
    refine
      ⟨⟨List.replicate program.maxLocals (.other 0), []⟩,
        ⟨_, List.length_replicate, .refl⟩, ?_⟩
    simp [Memory.frame, Frame.entry, Word.value]
  edge := by
    rintro index instruction _ after edge present ⟨before, reaches, rfl⟩
      stepped leaves
    rw [CodeFlow.build_instructions built] at present
    have fits := consecutive.fits (List.mem_of_getElem? present)
    obtain ⟨after, runs, rfl⟩ := exists_runs fits stepped
    unfold along
    cases exceptional : edge.kind.isException with
    | false =>
        have arrives : program.Arrives edge.target after.frame :=
          ⟨after, reaches.snoc (.run present runs
            ((successor_iff consecutive built present).mpr
              ⟨edge, leaves, exceptional, rfl⟩)), rfl⟩
        exact ⟨⟨_, arrives⟩, fun known => known arrives⟩
    | true =>
        have raises : program.Raises instruction edge.target :=
          (raises_iff consecutive built present).mpr
            ⟨edge, leaves, exceptional, rfl⟩
        have early :
            program.Arrives edge.target
              (Memory.frame ⟨before.locals, [.other 0]⟩) :=
          ⟨_, reaches.snoc (.raiseBefore _ present raises), rfl⟩
        have late :
            program.Arrives edge.target
              (Memory.frame ⟨after.locals, [.other 0]⟩) :=
          ⟨_, reaches.snoc (.raiseAfter _ present runs raises), rfl⟩
        refine ⟨⟨_, early⟩, ?_⟩
        intro place text known
        refine atHandler_eq_literal.mpr ?_
        cases place with
        | slot slot =>
            have inBefore := known early
            have inAfter := known late
            exact ⟨slot, rfl, inBefore, inAfter⟩
        | word word =>
            -- The reference to the exception is no literal.
            have thrown := known early
            cases word <;> cases thrown

end Flow

theorem below_entry
    {locals : List Value}
    {maxLocals : Nat}
    (sized : locals.length = maxLocals) :
    Below ⟨locals, []⟩ (.entry maxLocals) := by
  refine ⟨⟨by simp [Frame.entry, sized], rfl⟩, ?_⟩
  intro place text known
  cases place with
  | slot slot =>
      rw [read_slot_eq_literal, Frame.entry, List.getElem?_replicate]
        at known
      split at known <;> cases known
  | word word =>
      cases known

/-- The slots of a frame before or after an instruction are below its handlers. -/
theorem raised_below
    {frame before after : Frame}
    (sized : after.locals.length = before.locals.length)
    (kept : Below frame before ∨ Below frame after)
    (thrown : Value) :
    Below ⟨frame.locals, [thrown]⟩ (atHandler before after) := by
  have slots : frame.locals.length = before.locals.length := by
    rcases kept with early | late
    · exact early.shape.locals
    · exact late.shape.locals.trans sized
  refine ⟨⟨?_, rfl⟩, ?_⟩
  · simp [atHandler, Value.joinAll, slots, sized]
  · intro place text known
    obtain ⟨slot, rfl, inBefore, inAfter⟩ :=
      atHandler_eq_literal.mp known
    rcases kept with early | late
    · exact early.literal inBefore
    · exact late.literal inAfter

section Solutions

variable {name : Text}
variable {flow : CodeFlow}
variable {facts : Nat → Option Frame}

/-- A step from a memory below a solution leads to one below it. -/
theorem Step.below
    (consecutive : Code.Consecutive 0 0 program.instructions)
    (built :
      CodeFlow.build name program.instructions program.handlers = .ok flow)
    (solution : (problem flow program.maxLocals).Solution facts)
    {state next : Nat × Memory}
    (step : program.Step state next)
    {frame : Frame}
    (reached : facts state.1 = some frame)
    (below : Below state.2.frame frame) :
    ∃ frame, facts next.1 = some frame ∧ Below next.2.frame frame := by
  -- What follows is below what the edge makes of the frame of the memory.
  have follows
      {index : Nat}
      {instruction : Instruction}
      {before : Memory}
      (present : program.instructions[index]? = some instruction)
      (reached : facts index = some frame)
      (below : Below before.frame frame) :=
    along_below solution
      (by rwa [CodeFlow.build_instructions built]) reached below
  cases step with
  | run present runs leads =>
      have fits := consecutive.fits (List.mem_of_getElem? present)
      obtain ⟨edge, leaves, ordinary, rfl⟩ :=
        (successor_iff consecutive built present).mp leads
      obtain ⟨after, stepped, carried⟩ := follows present reached below
      obtain ⟨target, targetReached, alongBelow⟩ := carried edge leaves
      have ranBelow := runs.below fits stepped
      rw [along, if_neg (by simp [ordinary])] at alongBelow
      exact ⟨target, targetReached, ranBelow.trans alongBelow⟩
  | raiseBefore thrown present raises =>
      obtain ⟨edge, leaves, exceptional, rfl⟩ :=
        (raises_iff consecutive built present).mp raises
      obtain ⟨after, stepped, carried⟩ := follows present reached below
      obtain ⟨target, targetReached, alongBelow⟩ := carried edge leaves
      rw [along, if_pos exceptional] at alongBelow
      have raised :=
        raised_below (after_locals_length stepped) (.inl (.refl _))
          thrown.value
      exact ⟨target, targetReached, raised.trans alongBelow⟩
  | raiseAfter thrown present runs raises =>
      have fits := consecutive.fits (List.mem_of_getElem? present)
      obtain ⟨edge, leaves, exceptional, rfl⟩ :=
        (raises_iff consecutive built present).mp raises
      obtain ⟨after, stepped, carried⟩ := follows present reached below
      obtain ⟨target, targetReached, alongBelow⟩ := carried edge leaves
      have ranBelow := runs.below fits stepped
      rw [along, if_pos exceptional] at alongBelow
      have raised :=
        raised_below (after_locals_length stepped) (.inr ranBelow)
          thrown.value
      exact ⟨target, targetReached, raised.trans alongBelow⟩

/-- Every execution stays below a solution. -/
theorem Reaches.below
    (consecutive : Code.Consecutive 0 0 program.instructions)
    (built :
      CodeFlow.build name program.instructions program.handlers = .ok flow)
    (solution : (problem flow program.maxLocals).Solution facts)
    {index : Nat}
    {memory : Memory}
    (reaches : program.Reaches index memory) :
    ∃ frame, facts index = some frame ∧ Below memory.frame frame := by
  obtain ⟨locals, sized, steps⟩ := reaches
  -- The induction is on the number of steps made.
  suffices stays :
      ∀ state,
        Relation.ReflTransGen program.Step (0, ⟨locals, []⟩) state →
        ∃ frame, facts state.1 = some frame ∧ Below state.2.frame frame from
    stays _ steps
  intro state steps
  induction steps with
  | refl =>
      obtain ⟨frame, reached, below⟩ :=
        below_some_iff.mp solution.initial_below
      have sizedValues :
          (locals.map Word.value).length = program.maxLocals := by
        rw [List.length_map, sized]
      exact ⟨frame, reached, (below_entry sizedValues).trans below⟩
  | tail _ step inductionHypothesis =>
      obtain ⟨frame, reached, below⟩ := inductionHypothesis
      exact step.below consecutive built solution reached below

end Solutions

section Converged

variable {name : Text}
variable {flow : CodeFlow}
variable {order : VisitOrder}
variable {limit : Nat}
variable {run : Run (Option Frame)}

/-- The facts of a converged run are what all executions have in common. -/
theorem arrives_exact
    (consecutive : Code.Consecutive 0 0 program.instructions)
    (built :
      CodeFlow.build name program.instructions program.handlers = .ok flow)
    (nonempty : 0 < program.instructions.length)
    (solved :
      (problem flow program.maxLocals).solve order limit = .ok run)
    (converged : run.converged = true) :
    Exact ((problem flow program.maxLocals).factAt run)
      program.Arrives := by
  have closed := CodeFlow.build_closed consecutive built
  rw [← CodeFlow.build_instructions built] at nonempty
  apply exact_of_covers closed nonempty solved converged
    (arrives_goesOn consecutive built)
  rintro index _ ⟨memory, reaches, rfl⟩
  have solution :=
    solution_of_converged closed nonempty solved converged
  exact reaches.below consecutive built solution

/-- Where an execution comes to, there is an instruction, and it can run. -/
theorem Reaches.runs
    (consecutive : Code.Consecutive 0 0 program.instructions)
    (built :
      CodeFlow.build name program.instructions program.handlers = .ok flow)
    (nonempty : 0 < program.instructions.length)
    (solved :
      (problem flow program.maxLocals).solve order limit = .ok run)
    (converged : run.converged = true)
    {index : Nat}
    {memory : Memory}
    (reaches : program.Reaches index memory) :
    ∃ instruction after,
      program.instructions[index]? = some instruction ∧
        Runs instruction memory after := by
  have closed := CodeFlow.build_closed consecutive built
  have sameInstructions := CodeFlow.build_instructions built
  rw [← sameInstructions] at nonempty
  have consistent :=
    Problem.solve_consistent lattice_lawful closed nonempty solved
  have solution := consistent.solution converged
  obtain ⟨frame, reached, below⟩ :=
    reaches.below consecutive built solution
  obtain ⟨instruction, present⟩ :
      ∃ instruction, flow.instructions[index]? = some instruction :=
    ⟨_, List.getElem?_eq_getElem
      (inside_of_factAt consistent.size_eq reached)⟩
  obtain ⟨next, stepped, _⟩ :=
    along_below solution present reached below
  rw [sameInstructions] at present
  have fits := consecutive.fits (List.mem_of_getElem? present)
  obtain ⟨after, runs, _⟩ := exists_runs fits stepped
  exact ⟨instruction, after, present, runs⟩

theorem safe_of_converged
    {code : Bytes}
    {pool : Pool}
    (decoded : Code.decode code pool = .ok program.instructions)
    (built :
      CodeFlow.build name program.instructions program.handlers = .ok flow)
    (solved :
      (problem flow program.maxLocals).solve order limit = .ok run)
    (converged : run.converged = true) :
    program.Safe where
  runs :=
    Reaches.runs (Code.decode_consecutive decoded) built
      (Code.decode_nonempty decoded) solved converged
  targets member isTarget := Code.decode_targets decoded member isTarget
  handlers member :=
    CodeFlow.handler_lands (Code.decode_consecutive decoded) built member

end Converged

end Program

end KeyAudit.Machine
