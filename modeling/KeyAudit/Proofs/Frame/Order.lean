import KeyAudit.Frame.Analysis
import KeyAudit.Proofs.Flow.Lattice
import KeyAudit.Proofs.Outcome

namespace KeyAudit

/-!
# The order of frames

A frame is below another one of its shape when it knows every literal that the
other one knows, at the same place.  Two frames have a join exactly when they
have one shape, and the join knows a literal exactly where both know it.
-/

namespace Value

/-- A join is a literal only where both values are that literal. -/
theorem join_eq_literal
    {first second : Value}
    {text : Text} :
    join first second = .literal text ↔
      first = .literal text ∧ second = .literal text := by
  unfold join
  split
  · rename_i same
    subst second
    simp
  · rename_i different
    constructor
    · intro isLiteral
      cases isLiteral
    · rintro ⟨rfl, rfl⟩
      exact (different rfl).elim

/-- Two values that are the same literals are the same. -/
theorem eq_of_literals
    {first second : Value}
    (same :
      ∀ text, first = .literal text ↔ second = .literal text) :
    first = second := by
  cases first with
  | literal text =>
      exact ((same text).mp rfl).symm
  | unknown =>
      cases second with
      | literal text =>
          exact (same text).mpr rfl
      | unknown =>
          rfl

end Value

namespace Frame

/-- A local slot or a word of the stack, counted from the lowest one. -/
inductive Place where
  | slot (index : Nat)
  | word (index : Nat)
  deriving Repr, DecidableEq

/-- What a frame knows of a place; nothing is known where there is none. -/
def read (frame : Frame) : Place → Value
  | .slot index => frame.locals.getD index .unknown
  | .word index => frame.stack.getD index .unknown

/-- A slot holds a literal when it is there and known to hold it. -/
theorem read_slot_eq_literal
    {frame : Frame}
    {index : Nat}
    {text : Text} :
    frame.read (.slot index) = .literal text ↔
      frame.locals[index]? = some (.literal text) := by
  simp only [read, List.getD_eq_getElem?_getD]
  cases frame.locals[index]? <;> simp

/-- A word holds a literal when it is there and known to hold it. -/
theorem read_word_eq_literal
    {frame : Frame}
    {index : Nat}
    {text : Text} :
    frame.read (.word index) = .literal text ↔
      frame.stack[index]? = some (.literal text) := by
  simp only [read, List.getD_eq_getElem?_getD]
  cases frame.stack[index]? <;> simp

/-- Two frames have as many slots and as many words. -/
structure SameShape (first second : Frame) : Prop where
  locals : first.locals.length = second.locals.length
  stack : first.stack.length = second.stack.length

namespace SameShape

/-- Every frame has its own shape. -/
theorem refl (frame : Frame) : SameShape frame frame :=
  ⟨rfl, rfl⟩

/-- Shapes can be compared in either direction. -/
theorem symm
    {first second : Frame}
    (same : SameShape first second) :
    SameShape second first :=
  ⟨same.locals.symm, same.stack.symm⟩

/-- Frames of one shape each have one shape together. -/
theorem trans
    {first second third : Frame}
    (earlier : SameShape first second)
    (later : SameShape second third) :
    SameShape first third :=
  ⟨earlier.locals.trans later.locals, earlier.stack.trans later.stack⟩

/-- Two frames of one shape that know the same of all places are the same. -/
theorem ext
    {first second : Frame}
    (shape : SameShape first second)
    (same : ∀ place, first.read place = second.read place) :
    first = second := by
  have sameLocals : first.locals = second.locals := by
    apply List.ext_getElem shape.locals
    intro index insideFirst insideSecond
    simpa [read, insideFirst, insideSecond] using same (.slot index)
  have sameStack : first.stack = second.stack := by
    apply List.ext_getElem shape.stack
    intro index insideFirst insideSecond
    simpa [read, insideFirst, insideSecond] using same (.word index)
  cases first
  cases second
  simp_all

end SameShape

/-- Position by position join of two frames. -/
def joined (first second : Frame) : Frame :=
  ⟨Value.joinAll first.locals second.locals,
    Value.joinAll first.stack second.stack⟩

/-- The join of two lists knows of a position what both know of it. -/
theorem getD_joinAll
    (first second : List Value)
    (index : Nat) :
    (Value.joinAll first second).getD index .unknown =
      Value.join
        (first.getD index .unknown)
        (second.getD index .unknown) := by
  simp only [Value.joinAll, List.getD_eq_getElem?_getD,
    List.getElem?_zipWith]
  -- A join with an unknown value is unknown, so lengths do not matter.
  cases first[index]? with
  | none =>
      cases second[index]? <;> simp [Value.join]
  | some value =>
      cases second[index]? with
      | none =>
          cases value <;> simp [Value.join]
      | some otherValue =>
          simp

/-- The join of two frames knows of a place what both know of it. -/
theorem read_joined
    (first second : Frame)
    (place : Place) :
    (joined first second).read place =
      Value.join (first.read place) (second.read place) := by
  cases place with
  | slot index =>
      exact getD_joinAll first.locals second.locals index
  | word index =>
      exact getD_joinAll first.stack second.stack index

/-- The join of two frames of one shape has their shape. -/
theorem joined_shape
    {first second : Frame}
    (shape : SameShape first second) :
    SameShape first (joined first second) := by
  constructor <;>
    simp [joined, Value.joinAll, shape.locals, shape.stack]

/-- Two frames have a join exactly when they have one shape. -/
theorem join_eq_ok
    {first second result : Frame} :
    first.join second = .ok result ↔
      SameShape first second ∧ result = joined first second := by
  unfold join
  split
  · rename_i otherDepth
    constructor
    · intro impossible
      cases impossible
    · rintro ⟨shape, _⟩
      exact (otherDepth shape.stack).elim
  · rename_i sameDepth
    split
    · rename_i otherCount
      constructor
      · intro impossible
        cases impossible
      · rintro ⟨shape, _⟩
        exact (otherCount shape.locals).elim
    · rename_i sameCount
      have shape : SameShape first second :=
        ⟨not_not.mp sameCount, not_not.mp sameDepth⟩
      have joinedSame
          (same : first = second) :
          first = joined first second := by
        subst second
        apply (joined_shape shape).ext
        intro place
        rw [read_joined]
        simp [Value.join]
      split
      · rename_i same
        rw [← joinedSame same]
        simp [shape, eq_comm]
      · simp [shape, joined, eq_comm]

/-- A frame knows every literal that another one of its shape knows. -/
structure Below (lower upper : Frame) : Prop where
  shape : SameShape lower upper
  literal :
    ∀ {place text},
      upper.read place = .literal text →
      lower.read place = .literal text

/-- A frame is below another one when their join is the other one. -/
theorem below_iff_join
    {lower upper : Frame} :
    Below lower upper ↔ lower.join upper = .ok upper := by
  rw [join_eq_ok]
  constructor
  · intro below
    refine ⟨below.shape, ?_⟩
    apply (below.shape.symm.trans (joined_shape below.shape)).ext
    intro place
    rw [read_joined]
    apply Value.eq_of_literals
    intro text
    rw [Value.join_eq_literal]
    exact
      ⟨fun known => ⟨below.literal known, known⟩,
        fun both => both.2⟩
  · rintro ⟨shape, same⟩
    refine ⟨shape, ?_⟩
    intro place text known
    rw [same, read_joined, Value.join_eq_literal] at known
    exact known.1

/-- A frame is below another one when the order of facts says so. -/
theorem factLe_iff_below
    {lower upper : Frame} :
    factLe (some lower) (some upper) = .ok true ↔ Below lower upper := by
  rw [below_iff_join, factLe, Outcome.map_eq_ok]
  constructor
  · rintro ⟨result, joins, same⟩
    rw [joins, beq_iff_eq.mp same]
  · intro joins
    exact ⟨upper, joins, beq_self_eq_true upper⟩

namespace Below

/-- Every frame is below itself. -/
theorem refl (frame : Frame) : Below frame frame :=
  ⟨.refl frame, fun known => known⟩

/-- A frame below a frame below a third one is below the third one. -/
theorem trans
    {first second third : Frame}
    (earlier : Below first second)
    (later : Below second third) :
    Below first third :=
  ⟨earlier.shape.trans later.shape,
    fun known => earlier.literal (later.literal known)⟩

/-- Two frames below each other are the same. -/
theorem antisymm
    {first second : Frame}
    (upwards : Below first second)
    (downwards : Below second first) :
    first = second := by
  apply upwards.shape.ext
  intro place
  apply Value.eq_of_literals
  intro text
  exact ⟨downwards.literal, upwards.literal⟩

/-- Two frames of one shape are below their join. -/
theorem joined_left
    {first second : Frame}
    (shape : SameShape first second) :
    Below first (joined first second) := by
  refine ⟨joined_shape shape, ?_⟩
  intro place text known
  rw [read_joined, Value.join_eq_literal] at known
  exact known.1

/-- Two frames of one shape are below their join. -/
theorem joined_right
    {first second : Frame}
    (shape : SameShape first second) :
    Below second (joined first second) := by
  refine ⟨shape.symm.trans (joined_shape shape), ?_⟩
  intro place text known
  rw [read_joined, Value.join_eq_literal] at known
  exact known.2

/-- The join of two frames is below every frame above both. -/
theorem joined_below
    {first second upper : Frame}
    (firstBelow : Below first upper)
    (secondBelow : Below second upper) :
    Below (joined first second) upper := by
  have shape : SameShape first second :=
    firstBelow.shape.trans secondBelow.shape.symm
  refine ⟨(joined_shape shape).symm.trans firstBelow.shape, ?_⟩
  intro place text known
  rw [read_joined, Value.join_eq_literal]
  exact ⟨firstBelow.literal known, secondBelow.literal known⟩

end Below

end Frame

namespace MethodFrames

open KeyAudit.Frame

/-- A step of frame arithmetic gives a value whether or not its fault is renamed. -/
@[simp] theorem checked_eq_ok
    {Result : Type}
    {result : Except AnalysisFault Result}
    {value : Result} :
    checked result = .ok value ↔ result = .ok value := by
  simp [checked]

/-- Nothing is above a frame but a frame above it. -/
theorem below_some_iff
    {lower : Frame}
    {upper : Option Frame} :
    lattice.Below (some lower) upper ↔
      ∃ frame, upper = some frame ∧ Frame.Below lower frame := by
  cases upper with
  | none =>
      simp [Lattice.Below, lattice, factLe]
  | some frame =>
      simp only [Lattice.Below, lattice, checked_eq_ok, factLe_iff_below,
        Option.some.injEq, exists_eq_left']

/-- A point not reached yet is below every fact. -/
theorem none_below (fact : Option Frame) : lattice.Below none fact := by
  simp [Lattice.Below, lattice, factLe]

/-- Only a point not reached yet is below a point not reached yet. -/
theorem below_none_iff
    {fact : Option Frame} :
    lattice.Below fact none ↔ fact = none := by
  cases fact with
  | none =>
      simp [none_below]
  | some frame =>
      simp [below_some_iff]

/-- The frames at two points have a join as facts exactly when they have one shape. -/
theorem join_some_eq_ok
    {first second : Frame}
    {result : Option Frame} :
    lattice.join (some first) (some second) = .ok result ↔
      SameShape first second ∧ result = some (joined first second) := by
  simp only [lattice, joinFacts, checked_eq_ok, Outcome.map_eq_ok,
    join_eq_ok]
  constructor
  · rintro ⟨frame, ⟨shape, rfl⟩, rfl⟩
    exact ⟨shape, rfl⟩
  · rintro ⟨shape, rfl⟩
    exact ⟨joined first second, ⟨shape, rfl⟩, rfl⟩

/-- A join of facts is above both of them and below everything above both. -/
private theorem join_bounds
    {first second result : Option Frame}
    (joins : lattice.join first second = .ok result) :
    lattice.Below first result ∧
      lattice.Below second result ∧
        ∀ {upper},
          lattice.Below first upper →
          lattice.Below second upper →
          lattice.Below result upper := by
  cases first with
  | none =>
      obtain rfl : second = result := by
        simpa [lattice, joinFacts, checked, Except.mapError] using joins
      refine ⟨none_below second, ?_, fun _ below => below⟩
      cases second with
      | none =>
          exact none_below none
      | some frame =>
          exact below_some_iff.mpr ⟨frame, rfl, .refl frame⟩
  | some firstFrame =>
      have selfBelow : lattice.Below (some firstFrame) (some firstFrame) :=
        below_some_iff.mpr ⟨firstFrame, rfl, .refl firstFrame⟩
      cases second with
      | none =>
          obtain rfl : some firstFrame = result := by
            simpa [lattice, joinFacts, checked, Except.mapError] using joins
          exact ⟨selfBelow, none_below _, fun below _ => below⟩
      | some secondFrame =>
          obtain ⟨shape, rfl⟩ := join_some_eq_ok.mp joins
          refine ⟨?_, ?_, ?_⟩
          · exact below_some_iff.mpr
              ⟨_, rfl, Below.joined_left shape⟩
          · exact below_some_iff.mpr
              ⟨_, rfl, Below.joined_right shape⟩
          · intro upper firstBelow secondBelow
            obtain ⟨upperFrame, rfl, firstUnder⟩ :=
              below_some_iff.mp firstBelow
            obtain ⟨_, sameUpper, secondUnder⟩ :=
              below_some_iff.mp secondBelow
            cases sameUpper
            exact below_some_iff.mpr
              ⟨upperFrame, rfl, firstUnder.joined_below secondUnder⟩

/-- Frames with a least fact for points not reached yet form a lawful lattice. -/
theorem lattice_lawful : lattice.Lawful where
  refl fact := by
    cases fact with
    | none =>
        exact none_below none
    | some frame =>
        exact below_some_iff.mpr ⟨frame, rfl, .refl frame⟩
  trans := by
    intro first second third earlier later
    cases first with
    | none =>
        exact none_below third
    | some firstFrame =>
        obtain ⟨secondFrame, rfl, firstBelow⟩ := below_some_iff.mp earlier
        obtain ⟨thirdFrame, rfl, secondBelow⟩ := below_some_iff.mp later
        exact below_some_iff.mpr
          ⟨thirdFrame, rfl, firstBelow.trans secondBelow⟩
  antisymm := by
    intro first second upwards downwards
    cases first with
    | none =>
        exact (below_none_iff.mp downwards).symm
    | some firstFrame =>
        obtain ⟨secondFrame, rfl, firstBelow⟩ := below_some_iff.mp upwards
        obtain ⟨_, same, secondBelow⟩ := below_some_iff.mp downwards
        cases same
        rw [firstBelow.antisymm secondBelow]
  bottom_below := none_below
  below_join_left joins := (join_bounds joins).1
  below_join_right joins := (join_bounds joins).2.1
  join_below joins firstBelow secondBelow :=
    (join_bounds joins).2.2 firstBelow secondBelow
  same_iff := by
    simp [lattice]

/-- Two facts that have an upper bound have a join. -/
theorem join_ok_of_below
    {first second upper : Option Frame}
    (firstBelow : lattice.Below first upper)
    (secondBelow : lattice.Below second upper) :
    ∃ result, lattice.join first second = .ok result := by
  cases first with
  | none =>
      exact ⟨second, rfl⟩
  | some firstFrame =>
      cases second with
      | none =>
          exact ⟨some firstFrame, rfl⟩
      | some secondFrame =>
          obtain ⟨upperFrame, rfl, firstUnder⟩ :=
            below_some_iff.mp firstBelow
          obtain ⟨_, sameUpper, secondUnder⟩ :=
            below_some_iff.mp secondBelow
          cases sameUpper
          exact
            ⟨_, join_some_eq_ok.mpr
              ⟨firstUnder.shape.trans secondUnder.shape.symm, rfl⟩⟩

end MethodFrames

end KeyAudit
