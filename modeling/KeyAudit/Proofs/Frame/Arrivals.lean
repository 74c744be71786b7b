import KeyAudit.Proofs.Frame.VisitOrder

namespace KeyAudit

/-!
# Frames and arrivals

An arrival is a frame with which control comes to an instruction, along one path
or in one execution.  If all arrivals are below the computed frames, and if they
go on along every edge, then the computed frames are exact: an instruction has
one when something arrives there, and it knows a literal when all arrivals do.
-/

namespace MethodFrames

open KeyAudit.Frame

/-- What an edge makes of the frames before and after its source. -/
def along (edge : Edge) (before after : Frame) : Frame :=
  if edge.kind.isException then atHandler before after else after

theorem carry_some
    (edge : Edge)
    (before after : Frame) :
    carry edge (some before) (some after) =
      some (along edge before after) := by
  unfold carry along
  cases edge.kind.isException <;> rfl

/-- A frame that an edge carries comes from a frame before the source and its effect. -/
theorem carry_eq_some
    {instructions : List Instruction}
    {index : Nat}
    {before after : Option Frame}
    (transferred : transfer instructions index before = .ok after)
    {edge : Edge}
    {frame : Frame}
    (carried : carry edge before after = some frame) :
    ∃ instruction beforeFrame next,
      instructions[index]? = some instruction ∧
        before = some beforeFrame ∧
          beforeFrame.after instruction = .ok next ∧
            frame = along edge beforeFrame next := by
  cases before with
  | none =>
      cases carried
  | some beforeFrame =>
      cases present : instructions[index]? with
      | none =>
          simp only [transfer, present] at transferred
          cases transferred
          cases carried
      | some instruction =>
          obtain ⟨next, stepped, rfl⟩ :=
            (transfer_some_eq_ok present).mp transferred
          rw [carry_some] at carried
          exact
            ⟨instruction, beforeFrame, next, rfl, rfl, stepped,
              (Option.some.inj carried).symm⟩

/-- All arrivals at an instruction hold a literal at a place. -/
def Known
    (Arrives : Nat → Frame → Prop)
    (index : Nat)
    (place : Place)
    (text : Text) : Prop :=
  ∀ {arrival},
    Arrives index arrival →
    arrival.read place = .literal text

/-- Something arrives at the entry, and whatever arrives goes on along all edges. -/
structure GoesOn
    (flow : CodeFlow)
    (maxLocals : Nat)
    (Arrives : Nat → Frame → Prop) : Prop where
  entry : Arrives 0 (.entry maxLocals)
  edge :
    ∀ {index instruction before after edge},
      flow.instructions[index]? = some instruction →
      Arrives index before →
      before.after instruction = .ok after →
      edge ∈ flow.graph.outgoing index →
      (∃ arrival, Arrives edge.target arrival) ∧
        ∀ {place text},
          Known Arrives edge.target place text →
          (along edge before after).read place = .literal text

/-- Everything that arrives is below a fact. -/
def Covers
    (facts : Nat → Option Frame)
    (Arrives : Nat → Frame → Prop) : Prop :=
  ∀ {index arrival},
    Arrives index arrival →
    ∃ frame, facts index = some frame ∧ Below arrival frame

/-- A frame knows whatever all arrivals at an instruction hold. -/
structure Common
    (Arrives : Nat → Frame → Prop)
    (index : Nat)
    (frame : Frame) : Prop where
  arrives : ∃ arrival, Arrives index arrival
  known :
    ∀ {place text},
      Known Arrives index place text →
      frame.read place = .literal text

/-- The facts are exactly what all arrivals have in common. -/
structure Exact
    (facts : Nat → Option Frame)
    (Arrives : Nat → Frame → Prop) : Prop where
  covers : Covers facts Arrives
  arrives :
    ∀ {index frame},
      facts index = some frame →
      ∃ arrival, Arrives index arrival
  known :
    ∀ {index frame place text},
      facts index = some frame →
      Known Arrives index place text →
      frame.read place = .literal text

/-- An exact fact knows a literal exactly when all arrivals hold it. -/
theorem Exact.read_eq_literal
    {facts : Nat → Option Frame}
    {Arrives : Nat → Frame → Prop}
    (precise : Exact facts Arrives)
    {index : Nat}
    {frame : Frame}
    (reached : facts index = some frame)
    {place : Place}
    {text : Text} :
    frame.read place = .literal text ↔
      Known Arrives index place text := by
  constructor
  · intro known arrival arrives
    obtain ⟨other, otherReached, below⟩ := precise.covers arrives
    cases reached.symm.trans otherReached
    exact below.literal known
  · exact precise.known reached

section Solutions

variable {flow : CodeFlow}
variable {maxLocals : Nat}
variable {facts : Nat → Option Frame}

/-- A frame below a solution goes on along every edge and stays below it. -/
theorem along_below
    (solution : (problem flow maxLocals).Solution facts)
    {index : Nat}
    {instruction : Instruction}
    (present : flow.instructions[index]? = some instruction)
    {before frame : Frame}
    (reached : facts index = some frame)
    (below : Below before frame) :
    ∃ after,
      before.after instruction = .ok after ∧
        ∀ edge ∈ flow.graph.outgoing index,
          ∃ target,
            facts edge.target = some target ∧
              Below (along edge before after) target := by
  have inside : index < flow.instructions.length :=
    (List.getElem?_eq_some_iff.mp present).1
  have live : (problem flow maxLocals).Live index (facts index) := by
    right
    rw [reached]
    simp [problem, lattice]
  obtain ⟨frameAfter, transferred, carried⟩ :=
    solution.settled inside live
  rw [reached] at transferred carried
  obtain ⟨frameNext, stepped, rfl⟩ :=
    (transfer_some_eq_ok present).mp transferred
  obtain ⟨after, beforeStepped, afterBelow⟩ := after_below below stepped
  refine ⟨after, beforeStepped, ?_⟩
  intro edge leaves
  have carriedBelow :
      lattice.Below
        (carry edge (some before) (some after))
        (facts edge.target) :=
    lattice_lawful.trans
      (carry_below
        (below_some_iff.mpr ⟨frame, rfl, below⟩)
        (below_some_iff.mpr ⟨frameNext, rfl, afterBelow⟩))
      (carried edge leaves)
  rw [carry_some] at carriedBelow
  exact below_some_iff.mp carriedBelow

namespace Common

variable {Arrives : Nat → Frame → Prop}
variable {index : Nat}
variable {frame : Frame}
variable {text : Text}

theorem value_eq_literal
    (common : Common Arrives index frame)
    {source : Source}
    (everywhere :
      ∀ {arrival},
        Arrives index arrival →
        source.value arrival = .literal text) :
    source.value frame = .literal text := by
  obtain ⟨arrival, arrives⟩ := common.arrives
  have inArrival := everywhere arrives
  cases source with
  | literal other =>
      exact inArrival
  | unknown =>
      cases inArrival
  | copy place =>
      exact common.known everywhere

theorem apply_eq_literal
    (common : Common Arrives index frame)
    {plan : Plan}
    {place : Place}
    (everywhere :
      ∀ {arrival},
        Arrives index arrival →
        (plan.apply arrival).read place = .literal text) :
    (plan.apply frame).read place = .literal text := by
  rw [Plan.read_apply]
  apply common.value_eq_literal
  intro arrival arrives
  rw [← Plan.read_apply]
  exact everywhere arrives

/--
What all arrivals have in common at an instruction is what they have in common
after it, because every place after it comes from one place before it.
-/
theorem along
    (common : Common Arrives index frame)
    (goesOn : GoesOn flow maxLocals Arrives)
    {instruction : Instruction}
    (present : flow.instructions[index]? = some instruction)
    (sameShape :
      ∀ {arrival}, Arrives index arrival → SameShape arrival frame)
    {next : Frame}
    (stepped : frame.after instruction = .ok next)
    {edge : Edge}
    (leaves : edge ∈ flow.graph.outgoing index) :
    Common Arrives edge.target (MethodFrames.along edge frame next) := by
  obtain ⟨plan, planned, rfl⟩ := after_eq_ok.mp stepped
  have goes
      {arrival : Frame}
      (arrives : Arrives index arrival) :
      (∃ arrival, Arrives edge.target arrival) ∧
        ∀ {place text},
          Known Arrives edge.target place text →
          (MethodFrames.along edge arrival (plan.apply arrival)).read place =
            .literal text := by
    have shape := sameShape arrives
    refine goesOn.edge present arrives ?_ leaves
    rw [after_eq_ok, shape.locals, shape.stack]
    exact ⟨plan, planned, rfl⟩
  obtain ⟨arrival, arrives⟩ := common.arrives
  refine ⟨(goes arrives).1, ?_⟩
  intro place text known
  have alongArrival
      {arrival : Frame}
      (arrives : Arrives index arrival) :=
    (goes arrives).2 known
  unfold MethodFrames.along at alongArrival ⊢
  split at alongArrival
  · -- A handler knows a slot only when it is known before and after.
    rename_i isException
    rw [if_pos isException, atHandler_eq_literal]
    obtain ⟨slot, rfl, _, _⟩ :=
      atHandler_eq_literal.mp (alongArrival arrives)
    have both
        {arrival : Frame}
        (arrives : Arrives index arrival) :
        arrival.read (.slot slot) = .literal text ∧
          (plan.apply arrival).read (.slot slot) = .literal text := by
      obtain ⟨_, sameSlot, before, after⟩ :=
        atHandler_eq_literal.mp (alongArrival arrives)
      cases sameSlot
      exact ⟨before, after⟩
    exact
      ⟨slot, rfl, common.known fun arrives => (both arrives).1,
        common.apply_eq_literal fun arrives => (both arrives).2⟩
  · rename_i notException
    rw [if_neg notException]
    exact common.apply_eq_literal alongArrival

theorem join
    {first second joined : Option Frame}
    (firstCommon :
      ∀ {frame}, first = some frame → Common Arrives index frame)
    (secondCommon :
      ∀ {frame}, second = some frame → Common Arrives index frame)
    (joins : lattice.join first second = .ok joined)
    (isFrame : joined = some frame) :
    Common Arrives index frame := by
  subst isFrame
  cases first with
  | none =>
      obtain rfl : second = some frame := by
        simpa [lattice, joinFacts, checked, Except.mapError] using joins
      exact secondCommon rfl
  | some firstFrame =>
      cases second with
      | none =>
          obtain rfl : firstFrame = frame := by
            simpa [lattice, joinFacts, checked, Except.mapError] using joins
          exact firstCommon rfl
      | some secondFrame =>
          obtain ⟨_, isJoined⟩ := join_some_eq_ok.mp joins
          cases isJoined
          have inFirst := firstCommon rfl
          have inSecond := secondCommon rfl
          refine ⟨inFirst.arrives, ?_⟩
          intro place text known
          rw [read_joined, Value.join_eq_literal]
          exact ⟨inFirst.known known, inSecond.known known⟩

end Common

/-- A run keeps facts above what all arrivals have in common. -/
theorem keeps_common
    (solution : (problem flow maxLocals).Solution facts)
    {Arrives : Nat → Frame → Prop}
    (goesOn : GoesOn flow maxLocals Arrives)
    (covers : Covers facts Arrives) :
    (problem flow maxLocals).Keeps fun index fact =>
      lattice.Below fact (facts index) ∧
        ∀ {frame}, fact = some frame → Common Arrives index frame := by
  have keepsBelow := (secures_of_solution solution).toKeeps
  refine
    { bottom := ?_
      initial := ?_
      carried := ?_
      joined := ?_ }
  · intro index
    refine ⟨keepsBelow.bottom index, ?_⟩
    intro frame impossible
    cases impossible
  · refine ⟨keepsBelow.initial, ?_⟩
    intro frame isEntry
    cases isEntry
    exact ⟨⟨_, goesOn.entry⟩, fun known => known goesOn.entry⟩
  · intro index before after edge inside live holds transferred leaves
    obtain ⟨below, common⟩ := holds
    refine
      ⟨keepsBelow.carried inside live below transferred leaves, ?_⟩
    intro frame carried
    obtain ⟨instruction, beforeFrame, next, present, rfl, stepped, rfl⟩ :=
      carry_eq_some transferred carried
    refine (common rfl).along goesOn present ?_ stepped leaves
    intro arrival arrives
    obtain ⟨upper, reached, arrivalBelow⟩ := covers arrives
    rw [reached] at below
    obtain ⟨_, sameUpper, beforeBelow⟩ := below_some_iff.mp below
    cases sameUpper
    exact arrivalBelow.shape.trans beforeBelow.shape.symm
  · intro index first second joined firstHolds secondHolds joins
    refine
      ⟨keepsBelow.joined firstHolds.1 secondHolds.1 joins, ?_⟩
    exact Common.join firstHolds.2 secondHolds.2 joins

end Solutions

theorem getElem?_facts
    (flow : CodeFlow)
    (maxLocals : Nat)
    {run : Run (Option Frame)}
    {index : Nat}
    {frame : Frame} :
    run.facts.toList[index]? = some (some frame) ↔
      (problem flow maxLocals).factAt run index = some frame := by
  rw [Array.getElem?_toList, Problem.factAt, Array.getD_eq_getD_getElem?]
  cases run.facts[index]? <;> simp [problem, lattice]

theorem inside_of_factAt
    {flow : CodeFlow}
    {maxLocals : Nat}
    {run : Run (Option Frame)}
    (sized : run.facts.size = flow.instructions.length)
    {index : Nat}
    {frame : Frame}
    (reached : (problem flow maxLocals).factAt run index = some frame) :
    index < flow.instructions.length := by
  by_contra outside
  rw [Problem.factAt_outside sized outside] at reached
  cases reached

/-- The facts of a converged run are exact for arrivals that they cover. -/
theorem exact_of_covers
    {flow : CodeFlow}
    {maxLocals : Nat}
    (closed : flow.graph.Closed)
    (nonempty : 0 < flow.instructions.length)
    {order : VisitOrder}
    {limit : Nat}
    {run : Run (Option Frame)}
    (solved : (problem flow maxLocals).solve order limit = .ok run)
    (converged : run.converged = true)
    {Arrives : Nat → Frame → Prop}
    (goesOn : GoesOn flow maxLocals Arrives)
    (covers : Covers ((problem flow maxLocals).factAt run) Arrives) :
    Exact ((problem flow maxLocals).factAt run) Arrives := by
  have solution :=
    solution_of_converged closed nonempty solved converged
  have kept :=
    (keeps_common solution goesOn covers).factAt lattice_lawful closed
      solved
  exact
    { covers := covers
      arrives := fun reached => ((kept _).2 reached).arrives
      known := fun reached => ((kept _).2 reached).known }

end MethodFrames

end KeyAudit
