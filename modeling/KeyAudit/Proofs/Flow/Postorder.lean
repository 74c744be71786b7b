import KeyAudit.Proofs.Flow.StackSearch
import Mathlib.Data.Set.Function

namespace KeyAudit

/-!
# Reverse post-order

A node has its position among the nodes in reverse post-order as rank.  The ranks
number the nodes that can be reached, and only an edge that closes a cycle goes
backwards.
-/

namespace Graph

variable {graph : Graph}

/-- Every node that was seen was left in the end. -/
theorem mem_reversePostorder_iff_seen
    (closed : graph.Closed)
    (nonempty : 0 < graph.size)
    {node : Nat} :
    node ∈ graph.reversePostorder ↔
      node ∈ (visit graph graph.size ⟨[], []⟩ 0).seen := by
  have explores := explores_entry closed nonempty
  constructor
  · exact explores.sound.left_seen
  · intro isSeen
    by_contra notLeft
    have stillActive := explores.active.mp ⟨isSeen, notLeft⟩
    cases stillActive.1

/-- The order lists the nodes that can be reached. -/
theorem mem_reversePostorder
    (closed : graph.Closed)
    (nonempty : 0 < graph.size)
    {node : Nat} :
    node ∈ graph.reversePostorder ↔ graph.LeadsTo 0 node := by
  have explores := explores_entry closed nonempty
  have listed := @mem_reversePostorder_iff_seen graph closed nonempty
  constructor
  · intro member
    rcases explores.reached (listed.mp member) with
      fromNothing | ⟨start, isEntry, leads⟩
    · cases fromNothing
    · obtain rfl := List.mem_singleton.mp isEntry
      exact leads
  · intro leads
    have entryListed : 0 ∈ graph.reversePostorder :=
      listed.mpr (explores.covers (List.mem_singleton.mpr rfl))
    refine leads.keeps (· ∈ graph.reversePostorder) ?_ entryListed
    intro edge member isListed
    rw [listed]
    exact explores.sound.followed isListed
      (mem_next.mpr ⟨edge, member, rfl, rfl⟩)

/-- The entry is left last, so it comes first in the order. -/
theorem reversePostorder_head
    (nonempty : 0 < graph.size) :
    graph.reversePostorder[0]? = some 0 := by
  unfold reversePostorder
  obtain ⟨bound, isBound⟩ := Nat.exists_eq_succ_of_ne_zero nonempty.ne'
  rw [isBound]
  simp [visit]

/-- The rank of a node in reverse post-order. -/
def rank? (graph : Graph) (node : Nat) : Option Nat :=
  graph.ranking.lookup node

/-- In a list without repetitions, a lookup by item gives its position. -/
private theorem lookup_zipIdx
    {items : List Nat}
    (once : items.Nodup)
    (start : Nat)
    {item rank : Nat} :
    (items.zipIdx start).lookup item = some rank ↔
      ∃ position, items[position]? = some item ∧ rank = start + position := by
  induction items generalizing start with
  | nil =>
      simp
  | cons first rest inductionHypothesis =>
      obtain ⟨notInRest, restOnce⟩ := List.nodup_cons.mp once
      rw [List.zipIdx_cons, List.lookup_cons]
      by_cases isFirst : item = first
      · subst item
        simp only [beq_self_eq_true, Option.some.injEq]
        constructor
        · rintro rfl
          exact ⟨0, by simp, rfl⟩
        · rintro ⟨position, present, rfl⟩
          cases position with
          | zero =>
              rfl
          | succ position =>
              exact (notInRest (List.mem_of_getElem? present)).elim
      · simp only [beq_false_of_ne isFirst]
        rw [inductionHypothesis restOnce]
        constructor
        · rintro ⟨position, present, rfl⟩
          exact ⟨position + 1, by simpa using present, by omega⟩
        · rintro ⟨position, present, rfl⟩
          cases position with
          | zero =>
              simp only [List.getElem?_cons_zero, Option.some.injEq] at present
              exact (isFirst present.symm).elim
          | succ position =>
              exact ⟨position, by simpa using present, by omega⟩

/-- A node has its position in reverse post-order as rank. -/
theorem rank?_eq_some
    (closed : graph.Closed)
    (nonempty : 0 < graph.size)
    {node rank : Nat} :
    graph.rank? node = some rank ↔
      graph.reversePostorder[rank]? = some node := by
  have once : graph.reversePostorder.Nodup :=
    (explores_entry closed nonempty).sound.left_once
  unfold rank? ranking
  rw [lookup_zipIdx once]
  simp

/-- One node has a lower rank than another. -/
def RanksBefore (graph : Graph) (first second : Nat) : Prop :=
  ∃ firstRank secondRank,
    graph.rank? first = some firstRank ∧
      graph.rank? second = some secondRank ∧
        firstRank < secondRank

/-- No path leads from a node that can be reached back to it, but for the empty one. -/
def Acyclic (graph : Graph) : Prop :=
  ∀ {node path},
    graph.LeadsTo 0 node →
    graph.Path node path node →
    path = []

/-- An edge between nodes that can be reached goes forward or closes a cycle. -/
theorem ranksBefore_or_back
    (closed : graph.Closed)
    (nonempty : 0 < graph.size)
    {edge : Edge}
    (member : edge ∈ graph.edges)
    (reached : graph.LeadsTo 0 edge.source) :
    graph.RanksBefore edge.source edge.target ∨
      graph.LeadsTo edge.target edge.source := by
  have forward : graph.Forward graph.reversePostorder :=
    (explores_entry closed nonempty).sound.forward
  obtain ⟨position, present⟩ :=
    List.mem_iff_getElem?.mp ((mem_reversePostorder closed nonempty).mpr reached)
  rcases forward.later_or_back present (mem_next.mpr ⟨edge, member, rfl, rfl⟩)
    with ⟨later, isLater, atLater⟩ | leadsBack
  · exact Or.inl
      ⟨position, later, (rank?_eq_some closed nonempty).mpr present,
        (rank?_eq_some closed nonempty).mpr atLater, isLater⟩
  · exact Or.inr leadsBack

/--
The loop with a stack ends, and its nodes in reverse order have the ranks.  The
ranks number the nodes that can be reached from 0 on, the entry first.  An edge
between them goes forward unless a path leads back, so without a cycle the ranks
are a topological order.
-/
theorem ranking_numbers_reachable
    (closed : graph.Closed)
    (nonempty : 0 < graph.size) :
    (∀ turns,
        2 * graph.size ≤ turns →
          ∃ seen left,
            (StackSearch.turn graph)^[turns] (.start graph) =
                ⟨seen, [], left⟩ ∧
              graph.ranking = left.zipIdx) ∧
      (∀ node, graph.rank? node ≠ none ↔ graph.LeadsTo 0 node) ∧
      Set.BijOn graph.rank? {node | graph.LeadsTo 0 node}
        (some '' {rank | rank < graph.ranking.length}) ∧
      graph.rank? 0 = some 0 ∧
      (∀ edge ∈ graph.edges,
        graph.LeadsTo 0 edge.source →
          graph.RanksBefore edge.source edge.target ∨
            graph.LeadsTo edge.target edge.source) ∧
      (graph.Acyclic →
        ∀ edge ∈ graph.edges,
          graph.LeadsTo 0 edge.source →
            graph.RanksBefore edge.source edge.target) := by
  have ranked := @rank?_eq_some graph closed nonempty
  have listed := @mem_reversePostorder graph closed nonempty
  have ranks_of_reached
      {node : Nat}
      (reached : graph.LeadsTo 0 node) :
      ∃ rank, graph.rank? node = some rank := by
    obtain ⟨rank, present⟩ := List.mem_iff_getElem?.mp (listed.mpr reached)
    exact ⟨rank, ranked.mpr present⟩
  have edges := @ranksBefore_or_back graph closed nonempty
  refine ⟨?_, ?_, ⟨?_, ?_, ?_⟩, ?_, fun edge => edges, ?_⟩
  · intro turns enough
    exact ⟨_, _, StackSearch.turns_start closed nonempty enough, rfl⟩
  · intro node
    rw [Option.ne_none_iff_exists']
    constructor
    · rintro ⟨rank, isRank⟩
      exact listed.mp (List.mem_of_getElem? (ranked.mp isRank))
    · exact ranks_of_reached
  · intro node reached
    obtain ⟨rank, isRank⟩ := ranks_of_reached reached
    obtain ⟨inside, _⟩ := List.getElem?_eq_some_iff.mp (ranked.mp isRank)
    exact ⟨rank, by simpa [ranking] using inside, isRank.symm⟩
  · intro first firstReached second _ sameRank
    obtain ⟨rank, isRank⟩ := ranks_of_reached firstReached
    have atFirst := ranked.mp isRank
    have atSecond := ranked.mp (sameRank.symm.trans isRank)
    exact Option.some.inj (atFirst.symm.trans atSecond)
  · rintro _ ⟨rank, isBelow, rfl⟩
    have inside : rank < graph.reversePostorder.length := by
      simpa [ranking] using isBelow
    have present := List.getElem?_eq_getElem inside
    exact
      ⟨graph.reversePostorder[rank],
        listed.mp (List.mem_of_getElem? present), ranked.mpr present⟩
  · exact ranked.mpr (reversePostorder_head nonempty)
  · intro acyclic edge member reached
    rcases edges member reached with isBefore | ⟨back, isBack⟩
    · exact isBefore
    · -- The edge and the path back make a cycle.
      have cycle : graph.Path edge.source (edge :: back) edge.source :=
        .cons member isBack
      cases acyclic reached cycle

/-- A loop with two edges to its second node, beside a node that nothing reaches. -/
def twoWayLoop : Graph :=
  ⟨5, [⟨0, 2, .branchTaken⟩, ⟨0, 1, .fallThrough⟩, ⟨1, 2, .fallThrough⟩,
    ⟨1, 2, .branchTaken⟩, ⟨2, 2, .jump⟩, ⟨2, 3, .fallThrough⟩,
    ⟨3, 1, .jump⟩, ⟨4, 3, .fallThrough⟩]⟩

/-- The search enters the loop at its second node, so one edge of the loop goes back. -/
theorem ranking_numbers_twoWayLoop :
    twoWayLoop.Closed ∧
      twoWayLoop.ranking = [(0, 0), (2, 1), (3, 2), (1, 3)] ∧
        ¬twoWayLoop.LeadsTo 0 4 ∧
          twoWayLoop.LeadsTo 2 1 ∧
            ¬twoWayLoop.Acyclic := by
  have closed : twoWayLoop.Closed := by decide
  have order : twoWayLoop.ranking = [(0, 0), (2, 1), (3, 2), (1, 3)] := by decide
  obtain ⟨_, ranked, _, _, edges, acyclic⟩ :=
    ranking_numbers_reachable closed (by decide)
  have reached : twoWayLoop.LeadsTo 0 1 := by
    rw [← ranked, rank?, order]
    decide
  have goesBack : ¬twoWayLoop.RanksBefore 1 2 := by
    rintro ⟨first, second, atFirst, atSecond, isBefore⟩
    rw [rank?, order] at atFirst atSecond
    cases atFirst
    cases atSecond
    revert isBefore
    decide
  refine ⟨closed, order, ?_, ?_, ?_⟩
  · rw [← ranked, rank?, order]
    decide
  · have leads := edges ⟨1, 2, .fallThrough⟩ (by decide) reached
    exact leads.resolve_left goesBack
  · intro noCycle
    exact goesBack (acyclic noCycle ⟨1, 2, .fallThrough⟩ (by decide) reached)

end Graph

end KeyAudit
