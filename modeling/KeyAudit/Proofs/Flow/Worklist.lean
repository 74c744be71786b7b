import KeyAudit.Flow.Worklist
import Mathlib.Data.List.Basic
import Mathlib.Order.Lattice

namespace KeyAudit

/-!
# The pending nodes of a worklist

Which nodes are pending does not depend on the order in which they are taken: a
push adds its node, and taking a node removes an occurrence of it.  A worklist
that takes nodes by rank keeps them sorted, so that it gives back the least one.
-/

namespace Worklist

variable {Node : Type}

section Pushed

variable [LT Node] [DecidableLT Node]

/-- An entry that is inserted is added once, somewhere. -/
theorem insertRanked_perm
    (entry : Int × Node)
    (pending : List (Int × Node)) :
    (insertRanked entry pending).Perm (entry :: pending) := by
  induction pending with
  | nil =>
      exact .refl _
  | cons first rest inductionHypothesis =>
      unfold insertRanked
      split
      · exact .refl _
      · exact (inductionHypothesis.cons first).trans (.swap ..)

variable [DecidableEq Node]

/-- A push of a node that is not pending adds it once, somewhere. -/
theorem nodes_push_perm
    {worklist : Worklist Node}
    {pushed : Node}
    (notPending : pushed ∉ worklist.nodes) :
    (worklist.push pushed).nodes.Perm (pushed :: worklist.nodes) := by
  unfold push
  rw [if_neg (by simpa using notPending)]
  cases order : worklist.order with
  | ranked =>
      exact (insertRanked_perm _ _).map Prod.snd
  | firstIn =>
      exact List.perm_append_singleton _ _ |>.map Prod.snd
  | lastIn =>
      exact .refl _

/-- The pending node that waits longest comes first, so a new one comes last. -/
theorem nodes_push_firstIn
    {worklist : Worklist Node}
    {pushed : Node}
    (isQueue : worklist.order = .firstIn)
    (notPending : pushed ∉ worklist.nodes) :
    (worklist.push pushed).nodes = worklist.nodes ++ [pushed] := by
  unfold push
  rw [if_neg (by simpa using notPending), isQueue]
  simp [nodes]

/-- The pending node that came last comes first. -/
theorem nodes_push_lastIn
    {worklist : Worklist Node}
    {pushed : Node}
    (isStack : worklist.order = .lastIn)
    (notPending : pushed ∉ worklist.nodes) :
    (worklist.push pushed).nodes = pushed :: worklist.nodes := by
  unfold push
  rw [if_neg (by simpa using notPending), isStack]
  simp [nodes]

theorem push_of_pending
    {worklist : Worklist Node}
    {pushed : Node}
    (isPending : pushed ∈ worklist.nodes) :
    worklist.push pushed = worklist := by
  unfold push
  rw [if_pos (by simpa using isPending)]

/-- The pending nodes after a push are the pushed one and those before it. -/
theorem mem_nodes_push
    (worklist : Worklist Node)
    (pushed node : Node) :
    node ∈ (worklist.push pushed).nodes ↔
      node = pushed ∨ node ∈ worklist.nodes := by
  by_cases isPending : pushed ∈ worklist.nodes
  · rw [push_of_pending isPending]
    constructor
    · exact Or.inr
    · rintro (rfl | member)
      · exact isPending
      · exact member
  · rw [(nodes_push_perm isPending).mem_iff, List.mem_cons]

/-- A push makes its node pending at most once more, and no other node. -/
theorem count_nodes_push
    (worklist : Worklist Node)
    (pushed node : Node) :
    (worklist.push pushed).nodes.count node ≤
      worklist.nodes.count node + if pushed == node then 1 else 0 := by
  by_cases isPending : pushed ∈ worklist.nodes
  · rw [push_of_pending isPending]
    exact Nat.le_add_right ..
  · have counted := (nodes_push_perm isPending).count_eq node
    rw [List.count_cons] at counted
    exact Nat.le_of_eq counted

/-- A push changes neither the order nor the ranks. -/
theorem push_setup
    (worklist : Worklist Node)
    (pushed : Node) :
    (worklist.push pushed).order = worklist.order ∧
      (worklist.push pushed).ranking = worklist.ranking := by
  unfold push
  split
  · exact ⟨rfl, rfl⟩
  · exact ⟨rfl, rfl⟩

end Pushed

/-- The first pending entry is taken. -/
theorem pending_of_pop?
    {worklist rest : Worklist Node}
    {node : Node}
    (popped : worklist.pop? = some (node, rest)) :
    ∃ rank, worklist.pending = (rank, node) :: rest.pending := by
  unfold pop? at popped
  split at popped
  · cases popped
  · rename_i shape
    cases popped
    exact ⟨_, shape⟩

/-- Taking a node leaves the other pending nodes. -/
theorem nodes_of_pop?
    {worklist rest : Worklist Node}
    {node : Node}
    (popped : worklist.pop? = some (node, rest)) :
    worklist.nodes = node :: rest.nodes := by
  obtain ⟨rank, shape⟩ := pending_of_pop? popped
  rw [nodes, shape]
  rfl

/-- A worklist from which no node can be taken is empty. -/
theorem isEmpty_of_pop?_eq_none
    {worklist : Worklist Node}
    (nothingPending : worklist.pop? = none) :
    worklist.isEmpty = true := by
  unfold pop? at nothingPending
  split at nothingPending
  · rename_i noPending
    simp [isEmpty, noPending]
  · cases nothingPending

/-- No node can be taken from an empty worklist. -/
theorem pop?_of_isEmpty
    {worklist : Worklist Node}
    (isEmpty : worklist.isEmpty = true) :
    worklist.pop? = none := by
  have noPending : worklist.pending = [] := by
    simpa [Worklist.isEmpty] using isEmpty
  unfold pop?
  rw [noPending]

/-- An empty worklist has no pending node. -/
theorem nodes_eq_nil_of_isEmpty
    {worklist : Worklist Node}
    (isEmpty : worklist.isEmpty = true) :
    worklist.nodes = [] := by
  have noPending : worklist.pending = [] := by
    simpa [Worklist.isEmpty] using isEmpty
  simp [nodes, noPending]

theorem nodes_ne_nil_of_not_isEmpty
    {worklist : Worklist Node}
    (notEmpty : worklist.isEmpty = false) :
    worklist.nodes ≠ [] := by
  intro noNodes
  have noPending : worklist.pending = [] := List.map_eq_nil_iff.mp noNodes
  rw [isEmpty, noPending] at notEmpty
  cases notEmpty

/-- Taking a node changes neither the order nor the ranks. -/
theorem pop?_setup
    {worklist rest : Worklist Node}
    {node : Node}
    (popped : worklist.pop? = some (node, rest)) :
    rest.order = worklist.order ∧ rest.ranking = worklist.ranking := by
  unfold pop? at popped
  split at popped
  · cases popped
  · cases popped
    exact ⟨rfl, rfl⟩

section Ranked

variable [LinearOrder Node]

theorem precedes_iff
    {first second : Int × Node} :
    precedes first second = true ↔
      first.1 < second.1 ∨ first.1 = second.1 ∧ first.2 < second.2 := by
  simp [precedes]

theorem precedes_trans
    {first second third : Int × Node}
    (earlier : precedes first second = true)
    (later : precedes second third = true) :
    precedes first third = true := by
  rw [precedes_iff] at *
  rcases earlier with lower | ⟨sameRank, lower⟩
  · rcases later with higher | ⟨sameRank, _⟩
    · exact Or.inl (Int.lt_trans lower higher)
    · exact Or.inl (sameRank ▸ lower)
  · rcases later with higher | ⟨sameHigher, higher⟩
    · exact Or.inl (sameRank ▸ higher)
    · exact Or.inr ⟨sameRank.trans sameHigher, lt_trans lower higher⟩

/-- Of two entries of different nodes one precedes the other. -/
theorem precedes_of_not
    {first second : Int × Node}
    (different : first.2 ≠ second.2)
    (notBefore : ¬precedes first second = true) :
    precedes second first = true := by
  rw [precedes_iff] at *
  rcases Int.lt_trichotomy first.1 second.1 with lower | sameRank | higher
  · exact (notBefore (Or.inl lower)).elim
  · rcases lt_or_gt_of_ne different with lower | higher
    · exact (notBefore (Or.inr ⟨sameRank, lower⟩)).elim
    · exact Or.inr ⟨sameRank.symm, higher⟩
  · exact Or.inl higher

/-- An entry of a new node goes where it keeps the entries in order. -/
theorem insertRanked_pairwise
    {entry : Int × Node}
    {pending : List (Int × Node)}
    (isNew : ∀ other ∈ pending, other.2 ≠ entry.2)
    (inOrder :
      pending.Pairwise fun first second => precedes first second = true) :
    (insertRanked entry pending).Pairwise
      fun first second => precedes first second = true := by
  induction pending with
  | nil =>
      exact List.pairwise_singleton ..
  | cons first rest inductionHypothesis =>
      obtain ⟨firstBefore, restInOrder⟩ := List.pairwise_cons.mp inOrder
      unfold insertRanked
      split
      · rename_i entryBefore
        refine List.pairwise_cons.mpr ⟨?_, inOrder⟩
        intro other member
        rcases List.mem_cons.mp member with rfl | inRest
        · exact entryBefore
        · exact precedes_trans entryBefore (firstBefore other inRest)
      · rename_i notBefore
        have firstFirst : precedes first entry = true :=
          precedes_of_not (isNew first List.mem_cons_self).symm notBefore
        refine List.pairwise_cons.mpr ⟨?_, ?_⟩
        · intro other member
          rcases List.mem_cons.mp ((insertRanked_perm entry rest).mem_iff.mp member)
            with rfl | inRest
          · exact firstFirst
          · exact firstBefore other inRest
        · apply inductionHypothesis _ restInOrder
          intro other inRest
          exact isNew other (List.mem_cons_of_mem first inRest)

/-- Each pending entry has the rank of its node and precedes those after it. -/
structure Sorted (worklist : Worklist Node) : Prop where
  ranked : worklist.order = .ranked
  rank_eq : ∀ entry ∈ worklist.pending, entry.1 = worklist.rank entry.2
  inOrder :
    worklist.pending.Pairwise
      fun first second => precedes first second = true

namespace Sorted

variable {worklist : Worklist Node}

theorem empty
    (ranking : Ranking Node) :
    (Worklist.empty .ranked ranking).Sorted where
  ranked := rfl
  rank_eq _ member := (List.not_mem_nil member).elim
  inOrder := .nil

theorem push
    (sorted : worklist.Sorted)
    (node : Node) :
    (worklist.push node).Sorted := by
  by_cases isPending : node ∈ worklist.nodes
  · rw [push_of_pending isPending]
    exact sorted
  · have pushed :
        worklist.push node =
          { worklist with
            pending :=
              insertRanked (worklist.rank node, node) worklist.pending } := by
      unfold Worklist.push
      rw [if_neg (by simpa using isPending), sorted.ranked]
    rw [pushed]
    refine ⟨sorted.ranked, ?_, ?_⟩
    · intro entry member
      rcases List.mem_cons.mp ((insertRanked_perm _ _).mem_iff.mp member)
        with rfl | older
      · rfl
      · exact sorted.rank_eq entry older
    · apply insertRanked_pairwise _ sorted.inOrder
      intro other member isNode
      exact isPending (List.mem_map.mpr ⟨other, member, isNode⟩)

/-- The node that is taken has the least rank, and the least number among equals. -/
theorem pop?
    (sorted : worklist.Sorted)
    {node : Node}
    {rest : Worklist Node}
    (popped : worklist.pop? = some (node, rest)) :
    rest.Sorted ∧
      ∀ other ∈ rest.nodes,
        worklist.rank node < worklist.rank other ∨
          worklist.rank node = worklist.rank other ∧ node < other := by
  unfold Worklist.pop? at popped
  split at popped
  · cases popped
  · rename_i rank first pending shape
    cases popped
    have inOrder := sorted.inOrder
    have rankEq := sorted.rank_eq
    rw [shape] at inOrder rankEq
    obtain ⟨isLeast, restInOrder⟩ := List.pairwise_cons.mp inOrder
    refine ⟨⟨sorted.ranked, ?_, restInOrder⟩, ?_⟩
    · intro entry member
      exact rankEq entry (List.mem_cons_of_mem _ member)
    · intro other member
      obtain ⟨entry, inRest, rfl⟩ := List.mem_map.mp member
      have least := precedes_iff.mp (isLeast entry inRest)
      rw [rankEq entry (List.mem_cons_of_mem _ inRest)] at least
      have ofNode : rank = worklist.rank node :=
        rankEq (rank, node) List.mem_cons_self
      rw [← ofNode]
      exact least

end Sorted

end Ranked

end Worklist

end KeyAudit
