import KeyAudit.Code.Flow
import KeyAudit.Flow.Solver
import KeyAudit.Frame.Transfer

namespace KeyAudit

/-!
# The frames of a method

For each instruction that control can reach, the analysis computes what is
known before it, joined over all ways that lead to it.
-/

/-- Why a method cannot be analysed. -/
inductive MethodFault where
  | decode (fault : DecodeFault)
  | step (fault : StepFault)
  deriving Repr, DecidableEq

/-- The frames before the instructions of a method; unreached instructions have none. -/
structure MethodFrames where
  flow : CodeFlow
  frames : List (Option Frame)
  visits : Nat
  deriving Repr, DecidableEq

namespace MethodFrames

/-- The number of visits that an analysis is allowed unless told otherwise. -/
def defaultLimit : Nat := 100000

/-- Frames as facts of a dataflow problem. -/
def lattice : Lattice StepFault (Option Frame) where
  bottom := none
  join first second := Frame.checked (Frame.joinFacts first second)
  le first second := Frame.checked (Frame.factLe first second)
  same first second := first == second

/-- The frame after the instruction at an index. -/
def transfer (instructions : List Instruction) (index : Nat) :
    Option Frame → Except StepFault (Option Frame)
  | none => .ok none
  | some frame =>
      match instructions[index]? with
      | none => .ok none
      | some instruction => (frame.after instruction).map some

/-- What an edge carries: the frame at the handler for an exception, else the frame after. -/
def carry (edge : Edge) (before after : Option Frame) : Option Frame :=
  match before, after with
  | some before, some after =>
      if edge.kind.isException then some (Frame.atHandler before after) else some after
  | _, _ => none

/-- The dataflow problem of a flow with so many local slots. -/
def problem (flow : CodeFlow) (maxLocals : Nat) : Problem StepFault (Option Frame) where
  graph := flow.graph
  lattice := lattice
  transfer := transfer flow.instructions
  carry := carry
  initial := some (.entry maxLocals)

/-- Analyse a flow in a given order and with a limit on the number of visits. -/
def ofFlow
    (flow : CodeFlow)
    (maxLocals : Nat)
    (order : VisitOrder)
    (limit : Nat) :
    Except StepFault MethodFrames := do
  let run ← (problem flow maxLocals).solve order limit
  if run.converged then
    return ⟨flow, run.facts.toList, run.visits⟩
  else
    throw (.analysis (.noFixpoint flow.name run.visits))

/-- Analyse a method that has code. -/
def ofMethod (pool : Pool) (method : Method) (limit : Nat) : Except MethodFault MethodFrames := do
  let flow ← (CodeFlow.ofMethod pool method).mapError MethodFault.decode
  let maxLocals := match method.body with
    | none => 0
    | some body => body.maxLocals
  (ofFlow flow maxLocals .ranked limit).mapError MethodFault.step

/-- The reached invocations with the frames before them. -/
def invocations (result : MethodFrames) : List (Instruction × Frame) :=
  (result.flow.instructions.zip result.frames).filterMap fun (instruction, frame) =>
    if instruction.kind = .invoke then frame.map fun frame => (instruction, frame) else none

end MethodFrames

end KeyAudit
