import KeyAudit.Proofs.Flow.DepthFirst
import Mathlib.Logic.Function.Iterate

namespace KeyAudit

/-!
# Depth-first search with a stack

The visits that are under way wait on a stack, the innermost one first, each with
the nodes behind its own that are still to come.  In a turn the innermost visit
goes on to the first of them that was not seen, or its node is left.  A visit on
top of any stack comes to what the recursive search comes to, so the loop leaves
the nodes in the same order.
-/

namespace Graph

/-- A search whose visits wait on a stack. -/
structure StackSearch where
  seen : List Nat
  /-- The nodes that are visited, the innermost one first, and what is still to come. -/
  stack : List (Nat × List Nat)
  /-- The nodes left, the last one first. -/
  left : List Nat
  deriving Repr, DecidableEq

namespace StackSearch

/-- The search that has entered the entry. -/
def start (graph : Graph) : StackSearch :=
  ⟨[0], [(0, graph.next 0)], []⟩

/-- One turn of the loop; nothing happens without a visit. -/
def turn (graph : Graph) (search : StackSearch) : StackSearch :=
  match search.stack with
  | [] => search
  | (node, behind) :: stack =>
      match behind.dropWhile search.seen.contains with
      | [] => ⟨search.seen, stack, node :: search.left⟩
      | next :: rest =>
          ⟨next :: search.seen, (next, graph.next next) :: (node, rest) :: stack, search.left⟩

variable {graph : Graph}
variable {seen left behind : List Nat} {stack : List (Nat × List Nat)}
variable {node next : Nat}

theorem turn_nil :
    turn graph ⟨seen, [], left⟩ = ⟨seen, [], left⟩ :=
  rfl

/-- Nodes that were seen are passed over. -/
theorem turn_seen
    (isSeen : next ∈ seen) :
    turn graph ⟨seen, (node, next :: behind) :: stack, left⟩ =
      turn graph ⟨seen, (node, behind) :: stack, left⟩ := by
  simp [turn, isSeen]

/-- A node that was not seen is entered. -/
theorem turn_enter
    (isNew : next ∉ seen) :
    turn graph ⟨seen, (node, next :: behind) :: stack, left⟩ =
      ⟨next :: seen, (next, graph.next next) :: (node, behind) :: stack, left⟩ := by
  simp [turn, isNew]

/--
A number of turns lead from one search to another, one to enter and one to leave
each node, without the turn that entered the first one.
-/
def Completes (graph : Graph) (earlier later : StackSearch) : Prop :=
  ∃ turns,
    (turn graph)^[turns] earlier = later ∧
      turns + 2 * earlier.left.length + 1 = 2 * later.left.length

theorem turns_nil
    (turns : Nat) :
    (turn graph)^[turns] ⟨seen, [], left⟩ = ⟨seen, [], left⟩ :=
  Function.iterate_fixed turn_nil turns

/-- A visit goes through all that is to come, if each node is visited as in the recursion. -/
theorem completes_foldl
    {bound : Nat}
    (closed : graph.Closed)
    (each :
      ∀ {search : Search} {node : Nat},
        Search.Ready graph bound [node] search →
        node ∉ search.seen →
        ∀ stack,
          Completes graph
            ⟨node :: search.seen, (node, graph.next node) :: stack, search.left⟩
            ⟨(visit graph bound search node).seen, stack,
              (visit graph bound search node).left⟩)
    {search : Search}
    (ready : Search.Ready graph bound behind search) :
    Completes graph
      ⟨search.seen, (node, behind) :: stack, search.left⟩
      ⟨(behind.foldl (visit graph bound) search).seen, stack,
        node :: (behind.foldl (visit graph bound) search).left⟩ := by
  induction behind generalizing search with
  | nil =>
      exact ⟨1, rfl, by simp; omega⟩
  | cons next rest inductionHypothesis =>
      have atFirst := Search.explores_visit closed ready.first
      obtain ⟨later, isLater, countLater⟩ :=
        inductionHypothesis (ready.rest atFirst)
      by_cases isSeen : next ∈ search.seen
      · -- The turn that comes next passes over the node and does more.
        rw [Search.visit_of_seen isSeen] at isLater countLater
        rw [List.foldl_cons, Search.visit_of_seen isSeen]
        obtain ⟨turns, rfl⟩ : ∃ turns, later = turns + 1 :=
          ⟨later - 1, by omega⟩
        refine ⟨turns + 1, ?_, countLater⟩
        rw [Function.iterate_succ_apply, turn_seen isSeen,
          ← Function.iterate_succ_apply]
        exact isLater
      · obtain ⟨turns, isVisit, count⟩ :=
          each ready.first isSeen ((node, rest) :: stack)
        refine ⟨later + (turns + 1), ?_, ?_⟩
        · rw [Function.iterate_add_apply, Function.iterate_succ_apply,
            turn_enter isSeen, isVisit]
          exact isLater
        · rw [List.foldl_cons]
          dsimp only at count countLater ⊢
          omega

/-- A visit on top of a stack comes to what the recursion comes to. -/
theorem completes_visit
    {bound : Nat}
    (closed : graph.Closed)
    {search : Search}
    (ready : Search.Ready graph bound [node] search)
    (isNew : node ∉ search.seen)
    (stack : List (Nat × List Nat)) :
    Completes graph
      ⟨node :: search.seen, (node, graph.next node) :: stack, search.left⟩
      ⟨(visit graph bound search node).seen, stack,
        (visit graph bound search node).left⟩ := by
  induction bound generalizing search node stack with
  | zero =>
      exact (isNew (ready.seen_of_zero List.mem_cons_self)).elim
  | succ bound inductionHypothesis =>
      rw [Search.visit_of_new isNew]
      exact completes_foldl closed inductionHypothesis (ready.enter closed isNew)

/--
The loop ends after at most two turns for each node, and then it has left the
nodes in the order of the recursive search.
-/
theorem turns_start
    (closed : graph.Closed)
    (nonempty : 0 < graph.size)
    {turns : Nat}
    (enough : 2 * graph.size ≤ turns) :
    (turn graph)^[turns] (start graph) =
      ⟨(visit graph graph.size ⟨[], []⟩ 0).seen, [], graph.reversePostorder⟩ := by
  obtain ⟨needed, ends, count⟩ :=
    completes_visit closed (ready_entry nonempty) List.not_mem_nil []
  have sound := (explores_entry closed nonempty).sound
  have amongNodes : graph.reversePostorder ⊆ List.range graph.size := by
    intro node isLeft
    exact List.mem_range.mpr (sound.inside (sound.left_seen isLeft))
  have fewLeft := (sound.left_once.subperm amongNodes).length_le
  rw [List.length_range] at fewLeft
  dsimp only at count
  obtain ⟨further, rfl⟩ : ∃ further, turns = further + needed :=
    ⟨turns - needed, by omega⟩
  rw [Function.iterate_add_apply]
  exact (congrArg _ ends).trans (turns_nil further)

end StackSearch

end Graph

end KeyAudit
