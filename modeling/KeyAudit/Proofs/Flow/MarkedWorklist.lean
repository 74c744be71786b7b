import KeyAudit.Proofs.Flow.Heap
import KeyAudit.Proofs.Flow.History
import Mathlib.Data.Finset.Basic
import Mathlib.Data.Prod.Lex

namespace KeyAudit

/-!
# Worklists with a set of marks

The pending nodes are marked in a set, so that a push need not search for its
node, and a heap or a queue holds them in order beside it.  Every run keeps the
two in step, comes to the same events as a worklist with one list, and leaves the
same nodes in the same order.
-/

open Worklist (Action Event Form IsPending Tracks)

/-- A set of marks, and the heap or the queue of the marked nodes. -/
structure MarkedWorklist (Node : Type) where
  order : VisitOrder
  ranking : Ranking Node
  marks : Finset Node
  heap : List (Int ×ₗ Node)
  queue : List Node

namespace MarkedWorklist

variable {Node : Type}

/-- A worklist without marks. -/
def empty (order : VisitOrder) (ranking : Ranking Node) : MarkedWorklist Node :=
  ⟨order, ranking, ∅, [], []⟩

/-- The nodes of the heap or of the queue. -/
def nodes (worklist : MarkedWorklist Node) : List Node :=
  if worklist.order = .ranked then
    worklist.heap.map fun entry => (ofLex entry).2
  else
    worklist.queue

section Definitions

variable [LinearOrder Node]

/-- A node with its rank, which is the number of ranked nodes if it has none. -/
def entry (worklist : MarkedWorklist Node) (node : Node) : Int ×ₗ Node :=
  toLex ((worklist.ranking.lookup node).getD worklist.ranking.length, node)

/-- Mark a node and add it to the heap or the queue, unless it is marked. -/
def push (worklist : MarkedWorklist Node) (node : Node) : MarkedWorklist Node :=
  if node ∈ worklist.marks then
    worklist
  else
    let marks := insert node worklist.marks
    if worklist.order = .ranked then
      { worklist with marks, heap := Heap.push worklist.heap (worklist.entry node) }
    else
      { worklist with marks, queue := worklist.queue ++ [node] }

/-- Take a node from the heap or from an end of the queue, whatever is marked. -/
def take? (worklist : MarkedWorklist Node) : Option (Node × MarkedWorklist Node) :=
  match worklist.order with
  | .ranked =>
      (Heap.pop? worklist.heap).map fun (entry, heap) =>
        ((ofLex entry).2, { worklist with heap })
  | .firstIn =>
      worklist.queue.head?.map fun node =>
        (node, { worklist with queue := worklist.queue.tail })
  | .lastIn =>
      worklist.queue.getLast?.map fun node =>
        (node, { worklist with queue := worklist.queue.dropLast })

/-- Take a node and remove its mark. -/
def pop? (worklist : MarkedWorklist Node) : Option (Node × MarkedWorklist Node) :=
  worklist.take?.map fun (node, rest) =>
    (node, { rest with marks := rest.marks.erase node })

/-- Whether no node is marked, whatever the heap and the queue hold. -/
def isEmpty (worklist : MarkedWorklist Node) : Bool :=
  decide (worklist.marks = ∅)

/-- Do what is asked of a worklist. -/
def act (worklist : MarkedWorklist Node) :
    Action Node → Event Node × MarkedWorklist Node
  | .push node => (.pushed node, worklist.push node)
  | .pop =>
      match worklist.pop? with
      | none => (.refused, worklist)
      | some (node, rest) => (.popped node, rest)

/-- Worklists that mark their nodes beside a heap or a queue. -/
def form : Form Node (MarkedWorklist Node) :=
  ⟨nodes, isEmpty, act⟩

/-- Exactly the nodes of the heap or of the queue are marked, and each is there once. -/
structure InStep (worklist : MarkedWorklist Node) : Prop where
  marked : ∀ node, node ∈ worklist.marks ↔ node ∈ worklist.nodes
  once : worklist.nodes.Nodup
  /-- The heap is one, and its entries have the ranks of their nodes. -/
  ordered : Heap.Ordered worklist.heap
  ranked : ∀ entry ∈ worklist.heap, entry = worklist.entry (ofLex entry).2
  /-- Of heap and queue only one is in use. -/
  heapOnly : worklist.order = .ranked → worklist.queue = []
  queueOnly : worklist.order ≠ .ranked → worklist.heap = []

end Definitions

/--
A worklist with one list tells the order of the nodes: it lists the heap sorted,
the queue from its front, or the queue from its end.
-/
structure Represents
    (marked : MarkedWorklist Node)
    (worklist : Worklist Node) : Prop where
  order : marked.order = worklist.order
  ranking : marked.ranking = worklist.ranking
  sorted :
    worklist.order = .ranked →
      marked.heap.Perm (worklist.pending.map toLex)
  queued : worklist.order = .firstIn → marked.queue = worklist.nodes
  stacked : worklist.order = .lastIn → marked.queue.reverse = worklist.nodes

variable [LinearOrder Node]
variable {marked : MarkedWorklist Node}

section Pushes

variable {node : Node}

theorem push_of_marked
    (isMarked : node ∈ marked.marks) :
    marked.push node = marked :=
  if_pos isMarked

theorem push_ranked
    (byRank : marked.order = .ranked)
    (notMarked : node ∉ marked.marks) :
    marked.push node =
      { marked with
        marks := insert node marked.marks
        heap := Heap.push marked.heap (marked.entry node) } := by
  rw [push, if_neg notMarked]
  exact if_pos byRank

theorem push_queue
    (inQueue : marked.order ≠ .ranked)
    (notMarked : node ∉ marked.marks) :
    marked.push node =
      { marked with
        marks := insert node marked.marks
        queue := marked.queue ++ [node] } := by
  rw [push, if_neg notMarked]
  exact if_neg inQueue

/-- A push of a node that is not marked adds it once. -/
theorem nodes_push_perm
    (notMarked : node ∉ marked.marks) :
    (marked.push node).nodes.Perm (node :: marked.nodes) := by
  by_cases byRank : marked.order = .ranked
  · rw [push_ranked byRank notMarked]
    simp only [nodes, byRank, if_true]
    exact (Heap.push_perm marked.heap (marked.entry node)).map _
  · rw [push_queue byRank notMarked]
    simp only [nodes, byRank, if_false]
    exact List.perm_append_singleton node marked.queue

theorem InStep.push
    (inStep : marked.InStep)
    (node : Node) :
    (marked.push node).InStep := by
  by_cases isMarked : node ∈ marked.marks
  · rwa [push_of_marked isMarked]
  · have held := nodes_push_perm isMarked
    have marks :
        ∀ other,
          other ∈ insert node marked.marks ↔
            other ∈ (marked.push node).nodes := by
      intro other
      rw [held.mem_iff, Finset.mem_insert, List.mem_cons, inStep.marked]
    have once : (marked.push node).nodes.Nodup := by
      rw [held.nodup_iff, List.nodup_cons, ← inStep.marked]
      exact ⟨isMarked, inStep.once⟩
    by_cases byRank : marked.order = .ranked
    · rw [push_ranked byRank isMarked] at marks once ⊢
      refine
        ⟨marks, once, inStep.ordered.push _, ?_, inStep.heapOnly,
          fun inQueue => (inQueue byRank).elim⟩
      intro entry member
      rcases List.mem_cons.mp ((Heap.push_perm _ _).mem_iff.mp member)
        with rfl | older
      · rfl
      · exact inStep.ranked entry older
    · rw [push_queue byRank isMarked] at marks once ⊢
      exact
        ⟨marks, once, inStep.ordered, inStep.ranked,
          fun ranked => (byRank ranked).elim, inStep.queueOnly⟩

end Pushes

section Pops

variable {node : Node} {rest : MarkedWorklist Node}

/-- A node comes from the heap, from the front of the queue or from its end. -/
theorem take?_cases
    (taken : marked.take? = some (node, rest)) :
    (∃ entry heap,
      marked.order = .ranked ∧
        Heap.pop? marked.heap = some (entry, heap) ∧
          node = (ofLex entry).2 ∧ rest = { marked with heap }) ∨
      (∃ queue,
        marked.order = .firstIn ∧
          marked.queue = node :: queue ∧ rest = { marked with queue }) ∨
        ∃ queue,
          marked.order = .lastIn ∧
            marked.queue = queue ++ [node] ∧ rest = { marked with queue } := by
  unfold take? at taken
  split at taken
  · rename_i byRank
    obtain ⟨⟨entry, heap⟩, popped, same⟩ := Option.map_eq_some_iff.mp taken
    cases same
    exact Or.inl ⟨entry, heap, byRank, popped, rfl, rfl⟩
  · rename_i isQueue
    obtain ⟨first, isFirst, same⟩ := Option.map_eq_some_iff.mp taken
    cases same
    exact Or.inr (Or.inl ⟨_, isQueue, List.eq_cons_of_mem_head? isFirst, rfl⟩)
  · rename_i isStack
    obtain ⟨last, isLast, same⟩ := Option.map_eq_some_iff.mp taken
    cases same
    exact Or.inr (Or.inr
      ⟨_, isStack, (List.dropLast_append_getLast? _ isLast).symm, rfl⟩)

/-- No node can be taken exactly if none is held. -/
theorem take?_eq_none :
    marked.take? = none ↔ marked.nodes = [] := by
  unfold take? nodes
  cases kind : marked.order with
  | ranked =>
      rw [if_pos rfl, Option.map_eq_none_iff, Heap.pop?_eq_none,
        List.map_eq_nil_iff]
  | firstIn =>
      rw [if_neg nofun, Option.map_eq_none_iff, List.head?_eq_none_iff]
  | lastIn =>
      rw [if_neg nofun, Option.map_eq_none_iff, List.getLast?_eq_none_iff]

/-- Taking a node leaves the others, and all marks. -/
theorem nodes_take?_perm
    (taken : marked.take? = some (node, rest)) :
    marked.nodes.Perm (node :: rest.nodes) := by
  rcases take?_cases taken with
    ⟨entry, heap, byRank, popped, rfl, rfl⟩ | ⟨queue, isQueue, shape, rfl⟩ |
      ⟨queue, isStack, shape, rfl⟩
  · simp only [nodes, byRank, if_true]
    exact (Heap.pop?_perm popped).map _
  · simp [nodes, isQueue, shape]
  · simp only [nodes, isStack, shape]
    exact List.perm_append_singleton node queue

theorem pop?_eq_some
    {last : MarkedWorklist Node} :
    marked.pop? = some (node, last) ↔
      ∃ rest,
        marked.take? = some (node, rest) ∧
          last = { rest with marks := rest.marks.erase node } := by
  unfold pop?
  rw [Option.map_eq_some_iff]
  constructor
  · rintro ⟨⟨other, rest⟩, taken, same⟩
    cases same
    exact ⟨rest, taken, rfl⟩
  · rintro ⟨rest, taken, rfl⟩
    exact ⟨(node, rest), taken, rfl⟩

theorem pop?_eq_none :
    marked.pop? = none ↔ marked.nodes = [] := by
  rw [pop?, Option.map_eq_none_iff, take?_eq_none]

theorem InStep.pop?
    (inStep : marked.InStep)
    (popped : marked.pop? = some (node, rest)) :
    rest.InStep ∧ marked.nodes.Perm (node :: rest.nodes) := by
  obtain ⟨others, taken, rfl⟩ := pop?_eq_some.mp popped
  have held := nodes_take?_perm taken
  obtain ⟨notThere, once⟩ :=
    List.nodup_cons.mp (held.nodup_iff.mp inStep.once)
  have marks (sameMarks : others.marks = marked.marks) :
      ∀ other, other ∈ others.marks.erase node ↔ other ∈ others.nodes := by
    intro other
    rw [Finset.mem_erase, sameMarks, inStep.marked, held.mem_iff, List.mem_cons]
    constructor
    · rintro ⟨different, same | there⟩
      · exact (different same).elim
      · exact there
    · intro there
      refine ⟨?_, Or.inr there⟩
      rintro rfl
      exact notThere there
  refine ⟨?_, held⟩
  rcases take?_cases taken with
    ⟨entry, heap, byRank, fromHeap, rfl, rfl⟩ | ⟨queue, isQueue, shape, rfl⟩ |
      ⟨queue, isStack, shape, rfl⟩
  · refine
      ⟨marks rfl, once, (inStep.ordered.pop? fromHeap).1, ?_, inStep.heapOnly,
        fun inQueue => (inQueue byRank).elim⟩
    intro other member
    exact inStep.ranked other
      ((Heap.pop?_perm fromHeap).mem_iff.mpr (List.mem_cons_of_mem _ member))
  · refine
      ⟨marks rfl, once, inStep.ordered, inStep.ranked, ?_, inStep.queueOnly⟩
    intro byRank
    rw [byRank] at isQueue
    cases isQueue
  · refine
      ⟨marks rfl, once, inStep.ordered, inStep.ranked, ?_, inStep.queueOnly⟩
    intro byRank
    rw [byRank] at isStack
    cases isStack

end Pops

namespace InStep

theorem empty
    (order : VisitOrder)
    (ranking : Ranking Node) :
    (MarkedWorklist.empty order ranking).InStep where
  marked node := by
    simp [MarkedWorklist.empty, nodes]
  once := by
    simp [MarkedWorklist.empty, nodes]
  ordered := Heap.ordered_nil
  ranked _ member := (List.not_mem_nil member).elim
  heapOnly _ := rfl
  queueOnly _ := rfl

/-- Every action keeps the marks in step. -/
theorem act
    (inStep : marked.InStep)
    (action : Action Node) :
    (marked.act action).2.InStep := by
  cases action with
  | push node =>
      exact inStep.push node
  | pop =>
      unfold MarkedWorklist.act
      cases popped : marked.pop? with
      | none => exact inStep
      | some taken => exact (inStep.pop? popped).1

theorem isEmpty_iff
    (inStep : marked.InStep) :
    marked.isEmpty = true ↔ marked.nodes = [] := by
  rw [isEmpty, decide_eq_true_iff, Finset.eq_empty_iff_forall_notMem,
    List.eq_nil_iff_forall_not_mem]
  simp only [inStep.marked]

end InStep

namespace Represents

variable {worklist : Worklist Node} {history : List (Event Node)}

omit [LinearOrder Node] in
theorem empty
    (order : VisitOrder)
    (ranking : Ranking Node) :
    (MarkedWorklist.empty order ranking).Represents (.empty order ranking) where
  order := rfl
  ranking := rfl
  sorted _ := .nil
  queued _ := rfl
  stacked _ := rfl

omit [LinearOrder Node] in
/-- In one order only one of the three conditions says something. -/
theorem ofRanked
    (sameOrder : marked.order = worklist.order)
    (sameRanking : marked.ranking = worklist.ranking)
    (kind : worklist.order = .ranked)
    (sorted : marked.heap.Perm (worklist.pending.map toLex)) :
    marked.Represents worklist := by
  refine ⟨sameOrder, sameRanking, fun _ => sorted, ?_, ?_⟩ <;> rw [kind] <;> nofun

omit [LinearOrder Node] in
theorem ofFirstIn
    (sameOrder : marked.order = worklist.order)
    (sameRanking : marked.ranking = worklist.ranking)
    (kind : worklist.order = .firstIn)
    (queued : marked.queue = worklist.nodes) :
    marked.Represents worklist := by
  refine ⟨sameOrder, sameRanking, ?_, fun _ => queued, ?_⟩ <;> rw [kind] <;> nofun

omit [LinearOrder Node] in
theorem ofLastIn
    (sameOrder : marked.order = worklist.order)
    (sameRanking : marked.ranking = worklist.ranking)
    (kind : worklist.order = .lastIn)
    (stacked : marked.queue.reverse = worklist.nodes) :
    marked.Represents worklist := by
  refine ⟨sameOrder, sameRanking, ?_, ?_, fun _ => stacked⟩ <;> rw [kind] <;> nofun

omit [LinearOrder Node] in
/-- The two worklists hold the same nodes. -/
theorem nodes_perm
    (represents : marked.Represents worklist) :
    marked.nodes.Perm worklist.nodes := by
  unfold MarkedWorklist.nodes
  rw [represents.order]
  cases kind : worklist.order with
  | ranked =>
      have held := (represents.sorted kind).map fun entry => (ofLex entry).2
      rw [List.map_map] at held
      exact held
  | firstIn =>
      rw [if_neg nofun, represents.queued kind]
  | lastIn =>
      rw [if_neg nofun, ← represents.stacked kind]
      exact (List.reverse_perm _).symm

/-- A push of a node that is not pending adds it to both worklists alike. -/
theorem push
    (represents : marked.Represents worklist)
    {node : Node}
    (notMarked : node ∉ marked.marks)
    (notPending : node ∉ worklist.nodes) :
    (marked.push node).Represents (worklist.push node) := by
  obtain ⟨sameOrder, sameRanking⟩ := worklist.push_setup node
  by_cases byRank : worklist.order = .ranked
  · have pushed :
        (worklist.push node).pending =
          Worklist.insertRanked (worklist.rank node, node)
            worklist.pending := by
      rw [Worklist.push, if_neg (by simpa using notPending), byRank]
    have sameEntry :
        marked.entry node = toLex (worklist.rank node, node) := by
      rw [entry, Worklist.rank, represents.ranking]
    rw [push_ranked (represents.order.trans byRank) notMarked]
    refine
      ofRanked (represents.order.trans sameOrder.symm)
        (represents.ranking.trans sameRanking.symm) (sameOrder.trans byRank) ?_
    rw [pushed, sameEntry]
    exact (Heap.push_perm _ _).trans
      (((represents.sorted byRank).cons _).trans
        ((Worklist.insertRanked_perm _ _).map toLex).symm)
  · rw [push_queue (represents.order ▸ byRank) notMarked]
    refine
      ⟨represents.order.trans sameOrder.symm,
        represents.ranking.trans sameRanking.symm, ?_, ?_, ?_⟩
    · rw [sameOrder]
      exact fun ranked => (byRank ranked).elim
    · rw [sameOrder]
      intro isQueue
      rw [Worklist.nodes_push_firstIn isQueue notPending,
        ← represents.queued isQueue]
    · rw [sameOrder]
      intro isStack
      rw [Worklist.nodes_push_lastIn isStack notPending,
        ← represents.stacked isStack, List.reverse_append]
      rfl

/-- The root of the heap is the first of the sorted entries. -/
theorem root_eq
    (represents : marked.Represents worklist)
    (inStep : marked.InStep)
    (sorted : worklist.Sorted)
    {first : Int × Node}
    {pending : List (Int × Node)}
    (shape : worklist.pending = first :: pending)
    {root : Int ×ₗ Node}
    {heap : List (Int ×ₗ Node)}
    (popped : Heap.pop? marked.heap = some (root, heap)) :
    root = toLex first ∧ heap.Perm (pending.map toLex) := by
  have inOrder := sorted.inOrder
  rw [shape] at inOrder
  obtain ⟨firstBefore, _⟩ := List.pairwise_cons.mp inOrder
  have same : (root :: heap).Perm ((first :: pending).map toLex) := by
    rw [← shape]
    exact (Heap.pop?_perm popped).symm.trans (represents.sorted sorted.ranked)
  have atMost : root ≤ toLex first := by
    have member := same.mem_iff.mpr (List.mem_map_of_mem List.mem_cons_self)
    rcases List.mem_cons.mp member with isRoot | inHeap
    · exact le_of_eq isRoot.symm
    · exact (inStep.ordered.pop? popped).2 _ inHeap
  have atLeast : toLex first ≤ root := by
    obtain ⟨other, member, rfl⟩ :=
      List.mem_map.mp (same.mem_iff.mp List.mem_cons_self)
    rcases List.mem_cons.mp member with rfl | later
    · exact le_refl _
    · exact le_of_lt (Prod.Lex.toLex_lt_toLex.mpr
        (Worklist.precedes_iff.mp (firstBefore other later)))
  obtain rfl : root = toLex first := le_antisymm atMost atLeast
  exact ⟨rfl, same.cons_inv⟩

/-- A pop takes the same node from both worklists. -/
theorem pop?
    (represents : marked.Represents worklist)
    (inStep : marked.InStep)
    (tracks : Tracks history worklist)
    {node : Node}
    {rest : Worklist Node}
    (popped : worklist.pop? = some (node, rest)) :
    ∃ others,
      marked.pop? = some (node, others) ∧ others.Represents rest := by
  obtain ⟨sameOrder, sameRanking⟩ := Worklist.pop?_setup popped
  have shape := Worklist.nodes_of_pop? popped
  cases taken : marked.take? with
  | none =>
      have held := represents.nodes_perm
      rw [take?_eq_none.mp taken, shape] at held
      cases List.nil_perm.mp held
  | some both =>
      obtain ⟨other, others⟩ := both
      rcases take?_cases taken with
        ⟨entry, heap, byRank, fromHeap, rfl, rfl⟩ |
          ⟨queue, isQueue, queueShape, rfl⟩ |
            ⟨queue, isStack, queueShape, rfl⟩
      · have kind := represents.order.symm.trans byRank
        obtain ⟨rank, pendingShape⟩ := Worklist.pending_of_pop? popped
        obtain ⟨rfl, others⟩ :=
          represents.root_eq inStep (tracks.sorted kind) pendingShape fromHeap
        exact
          ⟨_, pop?_eq_some.mpr ⟨_, taken, rfl⟩,
            ofRanked (represents.order.trans sameOrder.symm)
              (represents.ranking.trans sameRanking.symm)
              (sameOrder.trans kind) others⟩
      · have kind := represents.order.symm.trans isQueue
        have listed := represents.queued kind
        rw [queueShape, shape] at listed
        obtain ⟨rfl, others⟩ := List.cons.inj listed
        exact
          ⟨_, pop?_eq_some.mpr ⟨_, taken, rfl⟩,
            ofFirstIn (represents.order.trans sameOrder.symm)
              (represents.ranking.trans sameRanking.symm)
              (sameOrder.trans kind) others⟩
      · have kind := represents.order.symm.trans isStack
        have listed := represents.stacked kind
        rw [queueShape, shape, List.reverse_append] at listed
        obtain ⟨rfl, others⟩ := List.cons.inj listed
        exact
          ⟨_, pop?_eq_some.mpr ⟨_, taken, rfl⟩,
            ofLastIn (represents.order.trans sameOrder.symm)
              (represents.ranking.trans sameRanking.symm)
              (sameOrder.trans kind) others⟩

/-- An action comes to the same event in both worklists, and they stay alike. -/
theorem act
    (represents : marked.Represents worklist)
    (inStep : marked.InStep)
    (tracks : Tracks history worklist)
    (action : Action Node) :
    (marked.act action).1 = (worklist.act action).1 ∧
      (marked.act action).2.Represents (worklist.act action).2 := by
  cases action with
  | push node =>
      have pendingIff : node ∈ marked.marks ↔ node ∈ worklist.nodes :=
        (inStep.marked node).trans represents.nodes_perm.mem_iff
      refine ⟨rfl, ?_⟩
      simp only [MarkedWorklist.act, Worklist.act]
      by_cases isMarked : node ∈ marked.marks
      · rw [push_of_marked isMarked,
          Worklist.push_of_pending (pendingIff.mp isMarked)]
        exact represents
      · exact represents.push isMarked (mt pendingIff.mpr isMarked)
  | pop =>
      cases popped : worklist.pop? with
      | none =>
          have nothing : marked.pop? = none := by
            rw [pop?_eq_none]
            have held := represents.nodes_perm
            rw [Worklist.nodes_eq_nil_of_isEmpty
              (Worklist.isEmpty_of_pop?_eq_none popped)] at held
            exact List.perm_nil.mp held
          simp only [MarkedWorklist.act, Worklist.act, nothing, popped]
          exact ⟨trivial, represents⟩
      | some taken =>
          obtain ⟨node, rest⟩ := taken
          obtain ⟨others, alike, next⟩ := represents.pop? inStep tracks popped
          simp only [MarkedWorklist.act, Worklist.act, alike, popped]
          exact ⟨trivial, next⟩

/-- A run comes to the same events in both worklists and keeps all of them in step. -/
theorem run
    (represents : marked.Represents worklist)
    (inStep : marked.InStep)
    (tracks : Tracks history worklist)
    (actions : List (Action Node)) :
    (form.run marked actions).1 = (Worklist.form.run worklist actions).1 ∧
      (form.run marked actions).2.Represents
          (Worklist.form.run worklist actions).2 ∧
        (form.run marked actions).2.InStep := by
  induction actions generalizing marked worklist history with
  | nil =>
      exact ⟨rfl, represents, inStep⟩
  | cons action actions inductionHypothesis =>
      obtain ⟨sameEvent, next⟩ := represents.act inStep tracks action
      obtain ⟨sameEvents, last⟩ :=
        inductionHypothesis next (inStep.act action) (tracks.act action)
      refine ⟨?_, last⟩
      exact List.cons_eq_cons.mpr ⟨sameEvent, sameEvents⟩

end Represents

/-- What a worklist with one list reflects, the marked one that it represents does. -/
theorem Represents.reflects
    {worklist : Worklist Node}
    {history : List (Event Node)}
    {order : VisitOrder}
    {ranking : Ranking Node}
    (represents : marked.Represents worklist)
    (inStep : marked.InStep)
    (tracks : Tracks history worklist)
    (reflects : Worklist.form.Reflects order ranking history worklist) :
    form.Reflects order ranking history marked := by
  have held (node : Node) :
      node ∈ marked.nodes ↔ IsPending history node :=
    represents.nodes_perm.mem_iff.trans (reflects.pending node)
  refine
    { once := inStep.once
      pending := held
      insertion := reflects.insertion
      isEmpty := ?_
      push_pending := ?_
      pop_refused := ?_
      pop_next := ?_ }
  · simp only [form, ← Bool.not_eq_true, inStep.isEmpty_iff,
      List.eq_nil_iff_forall_not_mem, held, not_forall, not_not]
  · intro node pending
    have isMarked := (inStep.marked node).mpr ((held node).mpr pending)
    simp only [form, MarkedWorklist.act, push_of_marked isMarked]
  · intro nonePending
    have nothing : marked.pop? = none := by
      rw [pop?_eq_none, List.eq_nil_iff_forall_not_mem]
      exact fun node member => nonePending node ((held node).mp member)
    simp only [form, MarkedWorklist.act, nothing]
  · intro somePending
    obtain ⟨node, rest, popped, isPending, isNext, others⟩ :=
      reflects.pop_next somePending
    obtain ⟨sameEvent, next⟩ := represents.act inStep tracks .pop
    change worklist.act .pop = (.popped node, rest) at popped
    rw [popped] at sameEvent next
    refine
      ⟨node, (marked.act .pop).2, Prod.ext sameEvent rfl, isPending, isNext,
        fun other => ?_⟩
    exact next.nodes_perm.mem_iff.trans (others other)

/--
After every sequence of pushes and pops, in every order and with all ranks, both
worklists are the set of pending nodes that the history tells: the one with one
list, and the one whose heap or queue is in step with its marks.  They come to the
same events and hold the nodes in the same order.
-/
theorem run_reflects_history
    (order : VisitOrder)
    (ranking : Ranking Node)
    (actions : List (Action Node)) :
    let listed := Worklist.form.run (.empty order ranking) actions
    let marked := form.run (empty order ranking) actions
    marked.2.InStep ∧
      form.Reflects order ranking marked.1 marked.2 ∧
      Worklist.form.Reflects order ranking listed.1 listed.2 ∧
      marked.1 = listed.1 ∧
      marked.2.Represents listed.2 := by
  intro listed marked
  have tracks := (Tracks.empty order ranking).run actions
  obtain ⟨sameEvents, represents, inStep⟩ :=
    (Represents.empty order ranking).run (.empty order ranking)
      (.empty order ranking) actions
  have reflects := Worklist.run_reflects order ranking actions
  refine ⟨inStep, ?_, reflects, sameEvents, represents⟩
  rw [sameEvents]
  exact represents.reflects inStep tracks reflects

end MarkedWorklist

end KeyAudit
