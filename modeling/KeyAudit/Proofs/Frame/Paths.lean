import KeyAudit.Proofs.Code.Edges
import KeyAudit.Proofs.Frame.Arrivals

namespace KeyAudit

/-!
# The frames of a method are the join over all paths

Following a path from the entry, each instruction changes the frame, and an
exception edge joins the frames before and after its source.  The analysis gives
an instruction a frame exactly when a path leads there.  No such path fails, all
of them end with frames of one shape, and the computed frame knows exactly the
literals with which all of them end.
-/

namespace MethodFrames

open KeyAudit.Frame

/-- The frame at the end of a path that begins with a frame. -/
def frameAlong
    (instructions : List Instruction) :
    List Edge → Frame → Except StepFault (Option Frame)
  | [], frame => .ok (some frame)
  | edge :: rest, frame =>
      match instructions[edge.source]? with
      | none => .ok none
      | some instruction => do
          let next ← frame.after instruction
          frameAlong instructions rest (along edge frame next)

/-- A path from the entry ends at an instruction with a frame. -/
def EndsWith
    (flow : CodeFlow)
    (maxLocals index : Nat)
    (frame : Frame) : Prop :=
  ∃ path,
    flow.graph.Path 0 path index ∧
      frameAlong flow.instructions path (.entry maxLocals) =
        .ok (some frame)

theorem frameAlong_snoc
    {instructions : List Instruction}
    {path : List Edge}
    {edge : Edge}
    {start before after : Frame}
    {instruction : Instruction}
    (ends : frameAlong instructions path start = .ok (some before))
    (present : instructions[edge.source]? = some instruction)
    (stepped : before.after instruction = .ok after) :
    frameAlong instructions (path ++ [edge]) start =
      .ok (some (along edge before after)) := by
  induction path generalizing start with
  | nil =>
      cases ends
      simp [frameAlong, present, stepped, bind, Except.bind]
  | cons first rest inductionHypothesis =>
      simp only [List.cons_append, frameAlong] at ends ⊢
      split at ends
      · cases ends
      · obtain ⟨next, steppedFirst, ends⟩ := Outcome.bind_eq_ok.mp ends
        rw [Outcome.bind_eq_ok]
        exact ⟨next, steppedFirst, inductionHypothesis ends⟩

/-- The ends of paths go on along every edge. -/
theorem endsWith_goesOn
    (flow : CodeFlow)
    (maxLocals : Nat) :
    GoesOn flow maxLocals (EndsWith flow maxLocals) where
  entry := ⟨[], .nil 0, rfl⟩
  edge := by
    intro index instruction before after edge present arrives stepped
      leaves
    obtain ⟨path, isPath, ends⟩ := arrives
    have fromIndex : edge.source = index :=
      (Graph.mem_outgoing.mp leaves).2
    have endsAfter :
        EndsWith flow maxLocals edge.target (along edge before after) := by
      refine ⟨path ++ [edge], isPath.snoc leaves, ?_⟩
      exact frameAlong_snoc ends (fromIndex ▸ present) stepped
    exact ⟨⟨_, endsAfter⟩, fun known => known endsAfter⟩

section Runs

variable {flow : CodeFlow}
variable {maxLocals : Nat}
variable {facts : Nat → Option Frame}

/-- A path that begins below a solution does not fail, and it ends below it. -/
theorem path_below
    (solution : (problem flow maxLocals).Solution facts)
    (inside :
      ∀ {index frame},
        facts index = some frame →
        index < flow.instructions.length)
    {start stop : Nat}
    {path : List Edge}
    (isPath : flow.graph.Path start path stop)
    {frame upper : Frame}
    (reached : facts start = some upper)
    (below : Below frame upper) :
    ∃ last,
      frameAlong flow.instructions path frame = .ok (some last) ∧
        ∃ target,
          facts stop = some target ∧ Below last target := by
  induction isPath generalizing frame upper with
  | nil node =>
      exact ⟨frame, rfl, upper, reached, below⟩
  | cons member later inductionHypothesis =>
      rename_i edge rest stop
      obtain ⟨instruction, present⟩ :
          ∃ instruction,
            flow.instructions[edge.source]? = some instruction :=
        ⟨_, List.getElem?_eq_getElem (inside reached)⟩
      obtain ⟨next, stepped, follows⟩ :=
        along_below solution present reached below
      obtain ⟨target, targetReached, alongBelow⟩ :=
        follows edge (Graph.mem_outgoing.mpr ⟨member, rfl⟩)
      obtain ⟨last, ends, lastBelow⟩ :=
        inductionHypothesis targetReached alongBelow
      refine ⟨last, ?_, lastBelow⟩
      simp [frameAlong, present, stepped, bind, Except.bind, ends]

variable {order : VisitOrder}
variable {limit : Nat}
variable {run : Run (Option Frame)}

/-- No path from the entry fails, and each ends below the fact of a converged run. -/
theorem path_from_entry_below
    (closed : flow.graph.Closed)
    (nonempty : 0 < flow.instructions.length)
    (solved : (problem flow maxLocals).solve order limit = .ok run)
    (converged : run.converged = true)
    {index : Nat}
    {path : List Edge}
    (isPath : flow.graph.Path 0 path index) :
    ∃ last,
      frameAlong flow.instructions path (.entry maxLocals) =
          .ok (some last) ∧
        ∃ frame,
          (problem flow maxLocals).factAt run index = some frame ∧
            Below last frame := by
  have consistent :=
    Problem.solve_consistent lattice_lawful closed nonempty solved
  have solution := consistent.solution converged
  obtain ⟨entryFrame, reached, below⟩ :=
    below_some_iff.mp solution.initial_below
  exact path_below solution (inside_of_factAt consistent.size_eq)
    isPath reached below

/-- The facts of a converged run are what the ends of all paths have in common. -/
theorem endsWith_exact
    (closed : flow.graph.Closed)
    (nonempty : 0 < flow.instructions.length)
    (solved : (problem flow maxLocals).solve order limit = .ok run)
    (converged : run.converged = true) :
    Exact ((problem flow maxLocals).factAt run)
      (EndsWith flow maxLocals) := by
  apply exact_of_covers closed nonempty solved converged
    (endsWith_goesOn flow maxLocals)
  rintro index arrival ⟨path, isPath, ends⟩
  obtain ⟨last, endsLast, below⟩ :=
    path_from_entry_below closed nonempty solved converged isPath
  cases ends.symm.trans endsLast
  exact below

end Runs

/--
An instruction has a frame exactly when a path leads to it.  No path to it
fails, all of them end with the shape of the frame, and the frame knows a
literal at a place exactly when all of them end with it.
-/
theorem frames_eq_join_over_paths
    {code : Bytes}
    {pool : Pool}
    {instructions : List Instruction}
    (decoded : Code.decode code pool = .ok instructions)
    {name : Text}
    {handlers : List Handler}
    {flow : CodeFlow}
    (built : CodeFlow.build name instructions handlers = .ok flow)
    {maxLocals : Nat}
    {order : VisitOrder}
    {limit : Nat}
    {result : MethodFrames}
    (analysed : ofFlow flow maxLocals order limit = .ok result) :
    result.frames.length = instructions.length ∧
      ∀ {index fact},
        result.frames[index]? = some fact →
        (fact ≠ none ↔ ∃ path, flow.graph.Path 0 path index) ∧
          ∀ {frame},
            fact = some frame →
            (∀ {path},
              flow.graph.Path 0 path index →
              ∃ last,
                frameAlong instructions path (.entry maxLocals) =
                    .ok (some last) ∧
                  SameShape last frame) ∧
              ∀ {place text},
                frame.read place = .literal text ↔
                  ∀ {path last},
                    flow.graph.Path 0 path index →
                    frameAlong instructions path (.entry maxLocals) =
                      .ok (some last) →
                    last.read place = .literal text := by
  have consecutive := Code.decode_consecutive decoded
  have closed := CodeFlow.build_closed consecutive built
  obtain rfl := CodeFlow.build_instructions built
  obtain ⟨run, solved, converged, rfl⟩ := ofFlow_eq_ok.mp analysed
  have nonempty := Code.decode_nonempty decoded
  have precise := endsWith_exact closed nonempty solved converged
  have pathsEnd
      {index : Nat}
      {path : List Edge}
      (isPath : flow.graph.Path 0 path index) :=
    path_from_entry_below closed nonempty solved converged isPath
  have sized : run.facts.size = flow.instructions.length :=
    (Problem.solve_consistent lattice_lawful closed nonempty
      solved).size_eq
  refine ⟨by simpa using sized, ?_⟩
  intro index fact present
  have atIndex : (problem flow maxLocals).factAt run index = fact := by
    simp only [Array.getElem?_toList] at present
    simp [Problem.factAt, Array.getD_eq_getD_getElem?, present]
  refine ⟨⟨?_, ?_⟩, ?_⟩
  · intro isReached
    obtain ⟨frame, isFrame⟩ := Option.ne_none_iff_exists'.mp isReached
    obtain ⟨_, path, isPath, _⟩ :=
      precise.arrives (atIndex.trans isFrame)
    exact ⟨path, isPath⟩
  · rintro ⟨path, isPath⟩
    obtain ⟨_, _, frame, reached, _⟩ := pathsEnd isPath
    rw [atIndex] at reached
    simp [reached]
  · rintro frame rfl
    refine ⟨?_, ?_⟩
    · intro path isPath
      obtain ⟨last, ends, other, reached, below⟩ := pathsEnd isPath
      cases atIndex.symm.trans reached
      exact ⟨last, ends, below.shape⟩
    · intro place text
      rw [precise.read_eq_literal atIndex]
      constructor
      · intro known path last isPath ends
        exact known ⟨path, isPath, ends⟩
      · rintro onAllPaths arrival ⟨path, isPath, ends⟩
        exact onAllPaths isPath ends

/--
A loop that loads a slot again and again after a literal was stored there, with
a handler for the store.
-/
def loopCode : Bytes :=
  [0x12, 0x02, 0x4B, 0x2A, 0xC6, 0xFF, 0xFF, 0xB1, 0x57, 0xB1]

/-- The literal that the loop stores. -/
def loopPool : Pool :=
  ⟨[none, some (.utf8 "menu.title"), some (.string 1)]⟩

/-- The exception table of the loop. -/
def loopHandlers : List Handler :=
  [⟨0, 3, 8, none⟩]

set_option maxRecDepth 4000 in
/-- On all paths around the loop the slot holds the literal, but not at the handler. -/
theorem frames_eq_join_over_paths_loop :
    ∃ instructions flow result,
      Code.decode loopCode loopPool = .ok instructions ∧
        CodeFlow.build "loop" instructions loopHandlers = .ok flow ∧
          ofFlow flow 1 .lastIn 20 = .ok result ∧
            (∀ {path last},
              flow.graph.Path 0 path 4 →
              frameAlong instructions path (.entry 1) =
                .ok (some last) →
              last.read (.slot 0) = .literal "menu.title") ∧
              ¬∀ {path last},
                flow.graph.Path 0 path 5 →
                frameAlong instructions path (.entry 1) =
                  .ok (some last) →
                last.read (.slot 0) = .literal "menu.title" := by
  obtain ⟨instructions, flow, result, decoded, built, analysed, atReturn,
      atHandler⟩ :
      ∃ instructions flow result,
        Code.decode loopCode loopPool = .ok instructions ∧
          CodeFlow.build "loop" instructions loopHandlers = .ok flow ∧
            ofFlow flow 1 .lastIn 20 = .ok result ∧
              result.frames[4]? =
                  some (some ⟨[.literal "menu.title"], []⟩) ∧
                result.frames[5]? =
                  some (some ⟨[.unknown], [.unknown]⟩) :=
    ⟨_, _, _, rfl, rfl, rfl, rfl, rfl⟩
  obtain ⟨_, joins⟩ := frames_eq_join_over_paths decoded built analysed
  refine
    ⟨instructions, flow, result, decoded, built, analysed, ?_, ?_⟩
  · exact (((joins atReturn).2 rfl).2).mp rfl
  · intro onAllPaths
    have known := (((joins atHandler).2 rfl).2).mpr onAllPaths
    cases known

end MethodFrames

end KeyAudit
