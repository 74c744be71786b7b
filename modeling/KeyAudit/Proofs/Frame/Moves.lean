import KeyAudit.Proofs.Frame.Plan

namespace KeyAudit

/-!
# What moves do to slots and words

A move gives a frame exactly when the slots and the stack have the parts that it
needs, and it then changes these parts and leaves the others.
-/

namespace Frame

theorem pop_eq_ok
    {frame rest : Frame}
    {count : Nat}
    {taken : List Value} :
    frame.pop count = .ok (rest, taken) ↔
      ∃ below,
        frame.stack = below ++ taken ∧
          taken.length = count ∧ rest = ⟨frame.locals, below⟩ := by
  unfold pop depth
  constructor
  · intro popped
    split at popped
    · cases popped
    · cases popped
      refine ⟨_, (List.take_append_drop _ _).symm, ?_, rfl⟩
      rw [List.length_drop]
      omega
  · rintro ⟨below, shape, rfl, rfl⟩
    have enough : ¬frame.stack.length < taken.length := by
      simp [shape]
    rw [if_neg enough]
    simp [shape]

/-- A list with a part of a given length at a given position is three lists. -/
private theorem split_at
    {Item : Type}
    (items : List Item)
    {position count : Nat}
    (inside : position + count ≤ items.length) :
    ∃ lower middle upper,
      items = lower ++ middle ++ upper ∧
        lower.length = position ∧
          middle.length = count ∧
            lower = items.take position ∧
              middle = (items.drop position).take count ∧
                upper = items.drop (position + count) := by
  refine ⟨_, _, _, ?_, ?_, ?_, rfl, rfl, rfl⟩
  · rw [← List.drop_drop, List.append_assoc, List.take_append_drop,
      List.take_append_drop]
  · rw [List.length_take]
    omega
  · rw [List.length_take, List.length_drop]
    omega

theorem load_eq_ok
    {frame : Frame}
    {slot count : Nat}
    {value : List Value} :
    frame.load slot count = .ok value ↔
      ∃ lower upper,
        frame.locals = lower ++ value ++ upper ∧
          lower.length = slot ∧ value.length = count := by
  unfold load
  rw [checkSlots_eq]
  constructor
  · intro loaded
    split at loaded
    · cases loaded
    · rename_i inside
      cases loaded
      obtain ⟨lower, middle, upper, shape, atSlot, width, _, rfl, _⟩ :=
        split_at frame.locals (Nat.le_of_not_lt inside)
      exact ⟨lower, upper, shape, atSlot, width⟩
  · rintro ⟨lower, upper, shape, rfl, rfl⟩
    have inside :
        ¬frame.locals.length < lower.length + value.length := by
      simp [shape]
    rw [if_neg inside]
    simp [shape, bind, Except.bind, pure, Except.pure]

theorem store_eq_ok
    {frame next : Frame}
    {slot : Nat}
    {value : List Value} :
    frame.store slot value = .ok next ↔
      ∃ lower old upper,
        frame.locals = lower ++ old ++ upper ∧
          lower.length = slot ∧
            old.length = value.length ∧
              next = ⟨lower ++ value ++ upper, frame.stack⟩ := by
  unfold store
  rw [checkSlots_eq]
  constructor
  · intro stored
    split at stored
    · cases stored
    · rename_i inside
      cases stored
      obtain ⟨lower, old, upper, shape, atSlot, width, rfl, _, rfl⟩ :=
        split_at frame.locals (Nat.le_of_not_lt inside)
      exact ⟨_, old, _, shape, atSlot, width, rfl⟩
  · rintro ⟨lower, old, upper, shape, rfl, width, rfl⟩
    have inside :
        ¬frame.locals.length < lower.length + value.length := by
      simp [shape, width]
    rw [if_neg inside, shape]
    simp [← width, bind, Except.bind, pure, Except.pure]

/-- The value of a given word by the words that were taken. -/
def Given.value (taken : List Value) : Given → Value
  | .literal text => .literal text
  | .unknown => .unknown
  | .taken position => taken.getD position .unknown

namespace Move

theorem restack_eq_ok
    {takes : Nat}
    {gives : List Given}
    {frame next : Frame} :
    (restack takes gives).perform frame = .ok next ↔
      ∃ below taken,
        frame.stack = below ++ taken ∧
          taken.length = takes ∧
            next = ⟨frame.locals, below ++ gives.map (Given.value taken)⟩ := by
  have sources
      {below taken : List Value}
      (shape : frame.stack = below ++ taken)
      (count : taken.length = takes) :
      gives.map (fun given =>
          (given.source (frame.stack.length - takes)).value frame) =
        gives.map (Given.value taken) := by
    apply List.map_congr_left
    intro given _
    cases given <;>
      simp [Given.source, Given.value, Source.value, read, shape, ← count,
        List.getElem?_append_right]
  rw [← pop_eq_restack, Outcome.map_eq_ok]
  constructor
  · rintro ⟨⟨rest, taken⟩, popped, rfl⟩
    obtain ⟨below, shape, count, rfl⟩ := pop_eq_ok.mp popped
    exact ⟨below, taken, shape, count, by rw [sources shape count]; rfl⟩
  · rintro ⟨below, taken, shape, count, rfl⟩
    refine ⟨_, pop_eq_ok.mpr ⟨below, shape, count, rfl⟩, ?_⟩
    rw [sources shape count]
    rfl

theorem load_eq_ok
    {slot count : Nat}
    {frame next : Frame} :
    (load slot count).perform frame = .ok next ↔
      ∃ lower value upper,
        frame.locals = lower ++ value ++ upper ∧
          lower.length = slot ∧
            value.length = count ∧
              next = ⟨frame.locals, frame.stack ++ value⟩ := by
  rw [← load_eq_perform, Outcome.map_eq_ok]
  constructor
  · rintro ⟨value, loaded, rfl⟩
    obtain ⟨lower, upper, shape, atSlot, width⟩ :=
      Frame.load_eq_ok.mp loaded
    exact ⟨lower, value, upper, shape, atSlot, width, rfl⟩
  · rintro ⟨lower, value, upper, shape, atSlot, width, rfl⟩
    exact
      ⟨value, Frame.load_eq_ok.mpr ⟨lower, upper, shape, atSlot, width⟩,
        rfl⟩

theorem store_eq_ok
    {slot count : Nat}
    {frame next : Frame} :
    (store slot count).perform frame = .ok next ↔
      ∃ lower old upper below value,
        frame.locals = lower ++ old ++ upper ∧
          lower.length = slot ∧
            old.length = count ∧
              frame.stack = below ++ value ∧
                value.length = count ∧
                  next = ⟨lower ++ value ++ upper, below⟩ := by
  rw [← store_eq_perform, Outcome.bind_eq_ok]
  constructor
  · rintro ⟨⟨rest, value⟩, popped, stored⟩
    obtain ⟨below, stackShape, width, rfl⟩ := pop_eq_ok.mp popped
    obtain ⟨lower, old, upper, shape, atSlot, oldWidth, rfl⟩ :=
      Frame.store_eq_ok.mp stored
    exact
      ⟨lower, old, upper, below, value, shape, atSlot,
        oldWidth.trans width, stackShape, width, rfl⟩
  · rintro ⟨lower, old, upper, below, value, shape, atSlot, oldWidth,
      stackShape, width, rfl⟩
    refine ⟨_, pop_eq_ok.mpr ⟨below, stackShape, width, rfl⟩, ?_⟩
    exact Frame.store_eq_ok.mpr
      ⟨lower, old, upper, shape, atSlot, oldWidth.trans width.symm, rfl⟩

theorem forget_eq_ok
    {slot : Nat}
    {frame next : Frame} :
    (forget slot).perform frame = .ok next ↔
      ∃ lower old upper,
        frame.locals = lower ++ old :: upper ∧
          lower.length = slot ∧
            next = ⟨lower ++ .unknown :: upper, frame.stack⟩ := by
  rw [← forget_eq_perform, Frame.store_eq_ok]
  constructor
  · rintro ⟨lower, old, upper, shape, atSlot, width, rfl⟩
    obtain ⟨value, rfl⟩ := List.length_eq_one_iff.mp width
    exact ⟨lower, value, upper, by simpa using shape, atSlot, by simp⟩
  · rintro ⟨lower, old, upper, shape, atSlot, rfl⟩
    exact
      ⟨lower, [old], upper, by simpa using shape, atSlot, rfl, by simp⟩

theorem inspect_eq_ok
    {slot : Nat}
    {frame next : Frame} :
    (inspect slot).perform frame = .ok next ↔
      ∃ lower value upper,
        frame.locals = lower ++ value :: upper ∧
          lower.length = slot ∧ next = frame := by
  rw [← inspect_eq_perform, Outcome.map_eq_ok]
  constructor
  · rintro ⟨loadedValue, loaded, rfl⟩
    obtain ⟨lower, upper, shape, atSlot, width⟩ :=
      Frame.load_eq_ok.mp loaded
    obtain ⟨value, rfl⟩ := List.length_eq_one_iff.mp width
    exact ⟨lower, value, upper, by simpa using shape, atSlot, rfl⟩
  · rintro ⟨lower, value, upper, shape, atSlot, rfl⟩
    exact
      ⟨[value],
        Frame.load_eq_ok.mpr
          ⟨lower, upper, by simpa using shape, atSlot, rfl⟩,
        rfl⟩

end Move

end Frame

end KeyAudit
