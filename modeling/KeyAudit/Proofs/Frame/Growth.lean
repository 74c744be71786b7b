import KeyAudit.Proofs.Code.Decoded
import KeyAudit.Proofs.Frame.Effect

namespace KeyAudit

/-!
# How frames grow

No instruction leaves more than two words more on the stack than it found.  A
join of frames never changes their shape, and a join that differs from a frame
knows fewer literals.
-/

theorem FieldType.words_le_two
    (type : FieldType) :
    type.words ≤ 2 := by
  unfold FieldType.words
  split <;> decide

theorem MethodType.resultWords_le_two
    (type : MethodType) :
    type.resultWords ≤ 2 := by
  unfold MethodType.resultWords
  split
  · decide
  · exact FieldType.words_le_two _

theorem Loadable.words_le_two
    (constant : Loadable) :
    constant.words ≤ 2 := by
  unfold Loadable.words
  split
  · decide
  · decide
  · split <;> decide
  · decide

/-- Whether the numbers of a row let the stack grow by two words at most. -/
def Opcode.isModest (opcode : Opcode) : Bool := decide
  (opcode.words ≤ 2 ∧
    opcode.pushes.getD 0 ≤ opcode.pops.getD 0 + 2 ∧
      (opcode.rearrangement?.all fun (count, kept) =>
        decide (kept.length ≤ count + 2)) = true)

theorem Opcode.table_isModest : table.all isModest = true := by
  decide +kernel

namespace Frame

/-- The number of words that a move adds to the stack. -/
def Move.growth : Move → Nat
  | .restack takes gives => gives.length - takes
  | .load _ count => count
  | _ => 0

theorem Move.plan_stack_length
    {move : Move}
    {locals depth : Nat}
    {plan : Plan}
    (planned : move.plan locals depth = .ok plan) :
    plan.stack.length ≤ depth + move.growth := by
  cases move <;>
    simp only [Move.plan] at planned <;>
    split at planned <;>
    try split at planned
  all_goals
    cases planned <;> simp [slots, words, Move.growth]
  all_goals omega

theorem Move.exchange_growth
    (pops pushes : Nat) :
    (Move.exchange pops pushes).growth = pushes - pops := by
  simp [Move.exchange, Move.growth]

theorem Move.ofField_growth
    (code : Nat)
    (type : FieldType) :
    (Move.ofField code type).growth ≤ 2 := by
  have atMostTwo := type.words_le_two
  unfold Move.ofField
  split <;> rw [Move.exchange_growth] <;> omega

theorem Move.ofCall_growth
    (receiver : Nat)
    (type : MethodType) :
    (Move.ofCall receiver type).growth ≤ 2 := by
  rw [Move.ofCall, Move.exchange_growth]
  exact Nat.le_trans (Nat.sub_le ..) type.resultWords_le_two

theorem Move.ofRearrangement_growth
    (count : Nat)
    (kept : List Nat) :
    (Move.ofRearrangement count kept).growth ≤ kept.length - count := by
  have fewer := List.length_filter_le (fun position => decide (position < count)) kept
  simp only [Move.ofRearrangement, Move.growth, List.length_map]
  omega

end Frame

open KeyAudit.Frame

/-- The move of a decoded instruction adds at most two words to the stack. -/
theorem Instruction.Fits.growth
    {instruction : Instruction}
    (fits : instruction.Fits)
    {move : Move}
    (moves : instruction.move = .ok move) :
    move.growth ≤ 2 := by
  obtain ⟨words, fixed, rearranged⟩ :=
    of_decide_eq_true (List.all_eq_true.mp Opcode.table_isModest _ fits.row)
  have fixedGrowth :
      (Move.exchange (instruction.opcode.pops.getD 0)
        (instruction.opcode.pushes.getD 0)).growth ≤ 2 := by
    rw [Move.exchange_growth]
    omega
  unfold Instruction.move at moves
  dsimp only at moves
  split at moves
  · cases moves
    exact Nat.le_succ 1
  · rename_i constant _ _ _
    cases moves
    rw [Move.exchange_growth]
    exact constant.words_le_two
  · cases moves
    exact words
  · cases moves
    exact Nat.zero_le 2
  · cases moves
    exact Nat.zero_le 2
  · cases moves
    exact Nat.zero_le 2
  · split at moves
    · rename_i count kept found
      cases moves
      have longer : kept.length ≤ count + 2 := by
        simpa [found] using rearranged
      exact Nat.le_trans (Move.ofRearrangement_growth count kept) (by omega)
    · cases moves
      exact fixedGrowth
  · obtain ⟨type, _, rfl⟩ := Outcome.map_eq_ok.mp moves
    exact Move.ofField_growth ..
  · obtain ⟨type, _, rfl⟩ := Outcome.map_eq_ok.mp moves
    exact Move.ofCall_growth ..
  · cases moves
    rw [Move.exchange_growth]
    omega
  · cases moves
    exact fixedGrowth

namespace Frame

/-- A decoded instruction adds at most two words to the stack. -/
theorem after_depth
    {instruction : Instruction}
    (fits : instruction.Fits)
    {frame next : Frame}
    (stepped : frame.after instruction = .ok next) :
    next.depth ≤ frame.depth + 2 := by
  obtain ⟨plan, planned, rfl⟩ := after_eq_ok.mp stepped
  obtain ⟨move, moves, planned⟩ := Instruction.plan_eq_ok.mp planned
  have grows := Move.plan_stack_length planned
  have modest := fits.growth moves
  simp only [depth, Plan.apply, List.length_map]
  omega

end Frame

namespace Value

/-- The number of literals in a list of values. -/
def literals (values : List Value) : Nat :=
  values.countP fun value => value ≠ .unknown

theorem literals_cons
    (value : Value)
    (values : List Value) :
    literals (value :: values) =
      literals values + if value = .unknown then 0 else 1 := by
  unfold literals
  rw [List.countP_cons]
  cases value <;> rfl

/-- A join either changes nothing or forgets a literal. -/
theorem join_eq_or
    (first second : Value) :
    join first second = first ∨
      join first second = .unknown ∧ first ≠ .unknown := by
  unfold join
  split
  · exact Or.inl rfl
  · by_cases isUnknown : first = .unknown
    · exact Or.inl isUnknown.symm
    · exact Or.inr ⟨rfl, isUnknown⟩

/-- A join position by position either changes nothing or forgets literals. -/
theorem literals_joinAll
    {first second : List Value}
    (sameLength : first.length = second.length) :
    joinAll first second = first ∨
      literals (joinAll first second) < literals first := by
  induction first generalizing second with
  | nil =>
      exact Or.inl rfl
  | cons value rest inductionHypothesis =>
      cases second with
      | nil =>
          cases sameLength
      | cons other others =>
          have shape :
              joinAll (value :: rest) (other :: others) =
                join value other :: joinAll rest others :=
            rfl
          rw [shape, literals_cons, literals_cons]
          rcases join_eq_or value other with same | ⟨forgets, isLiteral⟩
          · rw [same]
            rcases inductionHypothesis (Nat.succ.inj sameLength)
              with sameRest | fewer
            · rw [sameRest]
              exact Or.inl rfl
            · exact Or.inr (Nat.add_lt_add_right fewer _)
          · right
            rw [forgets, if_pos rfl, if_neg isLiteral]
            rcases inductionHypothesis (Nat.succ.inj sameLength)
              with sameRest | fewer
            · rw [sameRest]
              exact Nat.lt_succ_self _
            · exact Nat.lt_succ_of_lt fewer

end Value

namespace Frame

/-- The number of literals that a frame knows. -/
def literals (frame : Frame) : Nat :=
  Value.literals frame.locals + Value.literals frame.stack

theorem literals_le
    (frame : Frame) :
    frame.literals ≤ frame.locals.length + frame.depth :=
  Nat.add_le_add List.countP_le_length List.countP_le_length

/-- A join that differs from a frame knows fewer literals. -/
theorem literals_joined
    {first second : Frame}
    (shape : SameShape first second)
    (different : joined first second ≠ first) :
    (joined first second).literals < first.literals := by
  unfold literals joined
  rcases Value.literals_joinAll shape.locals with sameLocals | fewerLocals
  · rcases Value.literals_joinAll shape.stack with sameStack | fewerStack
    · refine (different ?_).elim
      rw [joined, sameLocals, sameStack]
    · rw [sameLocals]
      exact Nat.add_lt_add_left fewerStack _
  · rcases Value.literals_joinAll shape.stack with sameStack | fewerStack
    · rw [sameStack]
      exact Nat.add_lt_add_right fewerLocals _
    · exact Nat.add_lt_add fewerLocals fewerStack

end Frame

end KeyAudit
