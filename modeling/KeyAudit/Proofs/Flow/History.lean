import KeyAudit.Proofs.Flow.Worklist
import Mathlib.Data.List.Induction
import Mathlib.Data.List.Nodup

namespace KeyAudit

/-!
# Worklists and their histories

The history of a worklist lists what was done to it.  It tells on its own which
nodes are pending, when each of them was inserted and which one is next.  Every
run of pushes and pops keeps the worklist in step with its history.
-/

namespace Worklist

variable {Node : Type}

/-- What can be asked of a worklist. -/
inductive Action (Node : Type) where
  | push (node : Node)
  | pop
  deriving Repr, DecidableEq

/-- What an action came to. -/
inductive Event (Node : Type) where
  | pushed (node : Node)
  | popped (node : Node)
  /-- A node was to be popped while none was pending. -/
  | refused
  deriving Repr, DecidableEq

/-- A node is pending when it was pushed and not popped since. -/
def IsPending (history : List (Event Node)) (node : Node) : Prop :=
  ∃ before after,
    history = before ++ .pushed node :: after ∧
      .popped node ∉ after

/--
A pending node was inserted when it was pushed while it was not pending.  Later
pushes do not count until the node is popped.
-/
def InsertedAt
    (history : List (Event Node))
    (node : Node)
    (time : Nat) : Prop :=
  ∃ before after,
    history = before ++ .pushed node :: after ∧
      before.length = time ∧
        ¬IsPending before node ∧
          .popped node ∉ after

/-- Of two pending nodes, the first one was inserted earlier. -/
def InsertedBefore
    (history : List (Event Node))
    (first second : Node) : Prop :=
  ∃ earlier later,
    InsertedAt history first earlier ∧
      InsertedAt history second later ∧
        earlier < later

/--
Which of two pending nodes is popped first: the one of lesser rank, and of equal
ranks the lesser node, where a node without a rank has the number of ranked nodes
as its rank; or the one that was inserted earlier; or the one inserted later.
-/
def GoesBefore
    [DecidableEq Node]
    [LT Node]
    (order : VisitOrder)
    (ranking : Ranking Node)
    (history : List (Event Node))
    (first second : Node) : Prop :=
  let rank (node : Node) : Int := (ranking.lookup node).getD ranking.length
  match order with
  | .ranked =>
      rank first < rank second ∨
        rank first = rank second ∧ first < second
  | .firstIn => InsertedBefore history first second
  | .lastIn => InsertedBefore history second first

/--
A form of worklists: the nodes that a state holds, whether it is empty, and what
an action makes of it.
-/
structure Form (Node State : Type) where
  nodes : State → List Node
  isEmpty : State → Bool
  act : State → Action Node → Event Node × State

/-- Do one action after the other: what they came to and the state at the end. -/
def Form.run
    {State : Type}
    (form : Form Node State)
    (state : State) :
    List (Action Node) → List (Event Node) × State
  | [] => ([], state)
  | action :: actions =>
      let (event, next) := form.act state action
      let (events, last) := form.run next actions
      (event :: events, last)

/--
A state is the set of nodes that its history leaves pending.  Each of them is
held once and was inserted at one time, a push of one of them changes nothing,
and a pop takes the one that goes before all others, or is refused when there is
none.
-/
structure Form.Reflects
    [DecidableEq Node]
    [LT Node]
    {State : Type}
    (form : Form Node State)
    (order : VisitOrder)
    (ranking : Ranking Node)
    (history : List (Event Node))
    (state : State) : Prop where
  once : (form.nodes state).Nodup
  pending : ∀ node, node ∈ form.nodes state ↔ IsPending history node
  insertion :
    ∀ node, IsPending history node → ∃! time, InsertedAt history node time
  isEmpty : form.isEmpty state = false ↔ ∃ node, IsPending history node
  push_pending :
    ∀ node,
      IsPending history node →
        form.act state (.push node) = (.pushed node, state)
  pop_refused :
    (∀ node, ¬IsPending history node) →
      form.act state .pop = (.refused, state)
  pop_next :
    (∃ node, IsPending history node) →
      ∃ node rest,
        form.act state .pop = (.popped node, rest) ∧
          IsPending history node ∧
            (∀ other,
              IsPending history other →
              other ≠ node →
                GoesBefore order ranking history node other) ∧
              ∀ other,
                other ∈ form.nodes rest ↔
                  IsPending history other ∧ other ≠ node

section Histories

variable {history : List (Event Node)} {event : Event Node} {node : Node}

/-- A place in a history that grew is its last event or a place before. -/
theorem snoc_eq_split
    {before after : List (Event Node)}
    {place : Event Node} :
    history ++ [event] = before ++ place :: after ↔
      history = before ∧ event = place ∧ after = [] ∨
        ∃ rest, history = before ++ place :: rest ∧ after = rest ++ [event] := by
  constructor
  · intro shape
    rcases List.eq_nil_or_concat after with rfl | ⟨rest, last, rfl⟩
    · obtain ⟨sameHistory, samePlace⟩ := List.append_inj' shape rfl
      exact Or.inl ⟨sameHistory, List.singleton_inj.mp samePlace, rfl⟩
    · have longer :
          history ++ [event] = (before ++ place :: rest) ++ [last] := by
        simpa using shape
      obtain ⟨sameHistory, sameLast⟩ := List.append_inj' longer rfl
      rw [List.singleton_inj.mp sameLast]
      exact Or.inr ⟨rest, sameHistory, List.concat_eq_append⟩
  · rintro (⟨rfl, rfl, rfl⟩ | ⟨rest, rfl, rfl⟩)
    · rfl
    · simp

theorem not_isPending_nil : ¬IsPending [] node := by
  rintro ⟨before, after, shape, _⟩
  simp at shape

/-- A push makes its node pending, a pop ends that, and nothing else does either. -/
theorem isPending_snoc :
    IsPending (history ++ [event]) node ↔
      event = .pushed node ∨
        IsPending history node ∧ event ≠ .popped node := by
  constructor
  · rintro ⟨before, after, shape, notPopped⟩
    rcases snoc_eq_split.mp shape with
      ⟨_, isPush, _⟩ | ⟨rest, earlier, rfl⟩
    · exact Or.inl isPush
    · rw [List.mem_append, not_or, List.mem_singleton] at notPopped
      exact Or.inr
        ⟨⟨before, rest, earlier, notPopped.1⟩, Ne.symm notPopped.2⟩
  · rintro (rfl | ⟨⟨before, after, rfl, notPopped⟩, notPop⟩)
    · exact ⟨history, [], rfl, List.not_mem_nil⟩
    · refine ⟨before, after ++ [event], by simp, ?_⟩
      rw [List.mem_append, not_or, List.mem_singleton]
      exact ⟨notPopped, notPop.symm⟩

theorem InsertedAt.isPending
    {time : Nat}
    (inserted : InsertedAt history node time) :
    IsPending history node := by
  obtain ⟨before, after, shape, _, _, notPopped⟩ := inserted
  exact ⟨before, after, shape, notPopped⟩

/-- Only the push of a node that is not pending inserts it, and a pop removes it. -/
theorem insertedAt_snoc
    {time : Nat} :
    InsertedAt (history ++ [event]) node time ↔
      event = .pushed node ∧ ¬IsPending history node ∧ time = history.length ∨
        InsertedAt history node time ∧ event ≠ .popped node := by
  constructor
  · rintro ⟨before, after, shape, atTime, notBefore, notPopped⟩
    rcases snoc_eq_split.mp shape with
      ⟨rfl, isPush, _⟩ | ⟨rest, earlier, rfl⟩
    · exact Or.inl ⟨isPush, notBefore, atTime.symm⟩
    · rw [List.mem_append, not_or, List.mem_singleton] at notPopped
      exact Or.inr
        ⟨⟨before, rest, earlier, atTime, notBefore, notPopped.1⟩,
          Ne.symm notPopped.2⟩
  · rintro (⟨rfl, notBefore, rfl⟩ | ⟨inserted, notPop⟩)
    · exact ⟨history, [], rfl, rfl, notBefore, List.not_mem_nil⟩
    · obtain ⟨before, after, rfl, atTime, notBefore, notPopped⟩ := inserted
      refine
        ⟨before, after ++ [event], by simp, atTime, notBefore, ?_⟩
      rw [List.mem_append, not_or, List.mem_singleton]
      exact ⟨notPopped, notPop.symm⟩

theorem InsertedAt.lt_length
    {time : Nat}
    (inserted : InsertedAt history node time) :
    time < history.length := by
  obtain ⟨before, after, rfl, rfl, _⟩ := inserted
  simp

/-- A pending node was inserted at one time. -/
theorem IsPending.insertedAt
    (pending : IsPending history node) :
    ∃! time, InsertedAt history node time := by
  induction history using List.reverseRecOn with
  | nil =>
      exact (not_isPending_nil pending).elim
  | append_singleton earlier event inductionHypothesis =>
      by_cases wasPending : IsPending earlier node
      · -- The node was inserted before, so the last event did not insert it.
        obtain ⟨time, inserted, unique⟩ := inductionHypothesis wasPending
        have notPop : event ≠ .popped node := by
          rintro rfl
          rcases isPending_snoc.mp pending with isPush | ⟨_, notPop⟩
          · cases isPush
          · exact notPop rfl
        refine ⟨time, insertedAt_snoc.mpr (Or.inr ⟨inserted, notPop⟩), ?_⟩
        intro other otherInserted
        rcases insertedAt_snoc.mp otherInserted with
          ⟨_, notPending, _⟩ | ⟨before, _⟩
        · exact (notPending wasPending).elim
        · exact unique other before
      · have isPush : event = .pushed node := by
          rcases isPending_snoc.mp pending with isPush | ⟨stillPending, _⟩
          · exact isPush
          · exact (wasPending stillPending).elim
        refine
          ⟨earlier.length,
            insertedAt_snoc.mpr (Or.inl ⟨isPush, wasPending, rfl⟩), ?_⟩
        intro other otherInserted
        rcases insertedAt_snoc.mp otherInserted with
          ⟨_, _, atEnd⟩ | ⟨before, _⟩
        · exact atEnd
        · exact (wasPending before.isPending).elim

/-- Events that pop neither of two nodes leave the order of their insertions. -/
theorem InsertedBefore.snoc
    {first second : Node}
    (before : InsertedBefore history first second)
    (keepsFirst : event ≠ .popped first)
    (keepsSecond : event ≠ .popped second) :
    InsertedBefore (history ++ [event]) first second := by
  obtain ⟨earlier, later, firstInserted, secondInserted, ordered⟩ := before
  exact
    ⟨earlier, later,
      insertedAt_snoc.mpr (Or.inr ⟨firstInserted, keepsFirst⟩),
      insertedAt_snoc.mpr (Or.inr ⟨secondInserted, keepsSecond⟩),
      ordered⟩

/-- Nodes that an event does not pop stay in the order of their insertions. -/
theorem pairwise_insertedBefore_snoc
    {nodes : List Node}
    (inOrder : nodes.Pairwise (InsertedBefore history))
    (kept : ∀ node ∈ nodes, event ≠ .popped node) :
    nodes.Pairwise (InsertedBefore (history ++ [event])) :=
  inOrder.imp_of_mem fun firstMember secondMember before =>
    before.snoc (kept _ firstMember) (kept _ secondMember)

/-- A node that becomes pending was inserted after all pending ones. -/
theorem insertedBefore_pushed
    {pushed : Node}
    (pending : IsPending history node)
    (notPending : ¬IsPending history pushed) :
    InsertedBefore (history ++ [.pushed pushed]) node pushed := by
  obtain ⟨time, inserted, _⟩ := pending.insertedAt
  exact
    ⟨time, history.length,
      insertedAt_snoc.mpr (Or.inr ⟨inserted, nofun⟩),
      insertedAt_snoc.mpr (Or.inl ⟨rfl, notPending, rfl⟩),
      inserted.lt_length⟩

end Histories

section Runs

variable [LinearOrder Node]

/-- Do what is asked of a worklist. -/
def act (worklist : Worklist Node) : Action Node → Event Node × Worklist Node
  | .push node => (.pushed node, worklist.push node)
  | .pop =>
      match worklist.pop? with
      | none => (.refused, worklist)
      | some (node, rest) => (.popped node, rest)

/-- Worklists that hold their nodes in one list. -/
def form : Form Node (Worklist Node) :=
  ⟨nodes, isEmpty, act⟩

/-- The pending nodes of a worklist are those of its history, in the order of its kind. -/
structure Tracks
    (history : List (Event Node))
    (worklist : Worklist Node) : Prop where
  once : worklist.nodes.Nodup
  pending : ∀ node, node ∈ worklist.nodes ↔ IsPending history node
  sorted : worklist.order = .ranked → worklist.Sorted
  queued :
    worklist.order = .firstIn →
      worklist.nodes.Pairwise (InsertedBefore history)
  stacked :
    worklist.order = .lastIn →
      worklist.nodes.reverse.Pairwise (InsertedBefore history)

namespace Tracks

variable {history : List (Event Node)} {worklist : Worklist Node}

theorem empty
    (order : VisitOrder)
    (ranking : Ranking Node) :
    Tracks [] (Worklist.empty order ranking) where
  once := .nil
  pending node := by
    simp [Worklist.empty, nodes, not_isPending_nil]
  sorted isRanked := by
    cases isRanked
    exact .empty ranking
  queued _ := .nil
  stacked _ := .nil

/-- A refused pop leaves everything as it was. -/
theorem refused
    (tracks : Tracks history worklist) :
    Tracks (history ++ [.refused]) worklist where
  once := tracks.once
  pending node := by
    simp [isPending_snoc, tracks.pending]
  sorted := tracks.sorted
  queued isQueue :=
    pairwise_insertedBefore_snoc (tracks.queued isQueue) nofun
  stacked isStack :=
    pairwise_insertedBefore_snoc (tracks.stacked isStack) nofun

/-- A push of a pending node leaves the worklist as it was. -/
theorem push_pending
    (tracks : Tracks history worklist)
    {pushed : Node}
    (isPending : IsPending history pushed) :
    Tracks (history ++ [.pushed pushed]) worklist where
  once := tracks.once
  pending node := by
    rw [tracks.pending, isPending_snoc]
    constructor
    · intro pending
      exact Or.inr ⟨pending, nofun⟩
    · rintro (isPush | ⟨pending, _⟩)
      · cases isPush
        exact isPending
      · exact pending
  sorted := tracks.sorted
  queued isQueue :=
    pairwise_insertedBefore_snoc (tracks.queued isQueue) nofun
  stacked isStack :=
    pairwise_insertedBefore_snoc (tracks.stacked isStack) nofun

/-- A push of a node that is not pending inserts it after all others. -/
theorem push_new
    (tracks : Tracks history worklist)
    {pushed : Node}
    (notPending : ¬IsPending history pushed) :
    Tracks (history ++ [.pushed pushed]) (worklist.push pushed) := by
  have notMember : pushed ∉ worklist.nodes := by
    rwa [tracks.pending]
  have appended
      {nodes : List Node}
      (inOrder : nodes.Pairwise (InsertedBefore history))
      (held : ∀ node ∈ nodes, node ∈ worklist.nodes) :
      (nodes ++ [pushed]).Pairwise
        (InsertedBefore (history ++ [.pushed pushed])) := by
    refine List.pairwise_append.mpr
      ⟨pairwise_insertedBefore_snoc inOrder nofun,
        List.pairwise_singleton _ _, ?_⟩
    intro node member last isLast
    rw [List.mem_singleton.mp isLast]
    exact insertedBefore_pushed
      ((tracks.pending node).mp (held node member)) notPending
  obtain ⟨sameOrder, _⟩ := worklist.push_setup pushed
  refine ⟨?_, ?_, ?_, ?_, ?_⟩
  · rw [(nodes_push_perm notMember).nodup_iff, List.nodup_cons]
    exact ⟨notMember, tracks.once⟩
  · intro node
    rw [mem_nodes_push, isPending_snoc, tracks.pending]
    simp [eq_comm]
  · intro isRanked
    exact (tracks.sorted (sameOrder ▸ isRanked)).push pushed
  · intro isQueue
    rw [sameOrder] at isQueue
    rw [nodes_push_firstIn isQueue notMember]
    exact appended (tracks.queued isQueue) fun _ member => member
  · intro isStack
    rw [sameOrder] at isStack
    rw [nodes_push_lastIn isStack notMember, List.reverse_cons]
    exact appended (tracks.stacked isStack) fun _ => List.mem_reverse.mp

/-- A pop leaves all pending nodes but its own. -/
theorem mem_rest
    (tracks : Tracks history worklist)
    {node : Node}
    {rest : Worklist Node}
    (popped : worklist.pop? = some (node, rest))
    (other : Node) :
    other ∈ rest.nodes ↔ IsPending history other ∧ other ≠ node := by
  have shape := nodes_of_pop? popped
  have once := tracks.once
  rw [shape, List.nodup_cons] at once
  rw [← tracks.pending, shape, List.mem_cons]
  constructor
  · intro member
    refine ⟨Or.inr member, ?_⟩
    rintro rfl
    exact once.1 member
  · rintro ⟨isNode | member, different⟩
    · exact (different isNode).elim
    · exact member

/-- A pop takes its node away and leaves the others in their order. -/
theorem pop
    (tracks : Tracks history worklist)
    {node : Node}
    {rest : Worklist Node}
    (popped : worklist.pop? = some (node, rest)) :
    Tracks (history ++ [.popped node]) rest := by
  have shape := nodes_of_pop? popped
  obtain ⟨sameOrder, _⟩ := pop?_setup popped
  have others :
      ∀ other ∈ rest.nodes, Event.popped node ≠ .popped other := by
    rintro other member same
    cases same
    exact ((tracks.mem_rest popped node).mp member).2 rfl
  refine ⟨?_, ?_, ?_, ?_, ?_⟩
  · have once := tracks.once
    rw [shape, List.nodup_cons] at once
    exact once.2
  · intro other
    rw [isPending_snoc, tracks.mem_rest popped]
    simp [eq_comm]
  · intro isRanked
    exact ((tracks.sorted (sameOrder ▸ isRanked)).pop? popped).1
  · intro isQueue
    have inOrder := tracks.queued (sameOrder ▸ isQueue)
    rw [shape, List.pairwise_cons] at inOrder
    exact pairwise_insertedBefore_snoc inOrder.2 others
  · intro isStack
    have inOrder := tracks.stacked (sameOrder ▸ isStack)
    rw [shape, List.reverse_cons, List.pairwise_append] at inOrder
    exact pairwise_insertedBefore_snoc inOrder.1
      fun other member => others other (List.mem_reverse.mp member)

/-- Every action keeps a worklist in step with its history. -/
theorem act
    (tracks : Tracks history worklist)
    (action : Action Node) :
    Tracks
      (history ++ [(worklist.act action).1])
      (worklist.act action).2 := by
  cases action with
  | push node =>
      by_cases isPending : IsPending history node
      · have unchanged :=
          push_of_pending ((tracks.pending node).mpr isPending)
        simp only [Worklist.act, unchanged]
        exact tracks.push_pending isPending
      · exact tracks.push_new isPending
  | pop =>
      cases popped : worklist.pop? with
      | none =>
          simp only [Worklist.act, popped]
          exact tracks.refused
      | some taken =>
          simp only [Worklist.act, popped]
          exact tracks.pop popped

/-- Every run keeps a worklist in step with its history. -/
theorem run
    (tracks : Tracks history worklist)
    (actions : List (Action Node)) :
    Tracks
      (history ++ (form.run worklist actions).1)
      (form.run worklist actions).2 := by
  induction actions generalizing history worklist with
  | nil =>
      simpa [Form.run] using tracks
  | cons action actions inductionHypothesis =>
      have next := inductionHypothesis (tracks.act action)
      rw [List.append_assoc] at next
      exact next

/-- The node that is popped goes before all others. -/
theorem goesBefore_of_pop?
    (tracks : Tracks history worklist)
    {node : Node}
    {rest : Worklist Node}
    (popped : worklist.pop? = some (node, rest)) :
    ∀ other ∈ rest.nodes,
      GoesBefore worklist.order worklist.ranking history node other := by
  have shape := nodes_of_pop? popped
  cases kind : worklist.order with
  | ranked =>
      exact ((tracks.sorted kind).pop? popped).2
  | firstIn =>
      have inOrder := tracks.queued kind
      rw [shape, List.pairwise_cons] at inOrder
      exact inOrder.1
  | lastIn =>
      have inOrder := tracks.stacked kind
      rw [shape, List.reverse_cons, List.pairwise_append] at inOrder
      intro other member
      exact inOrder.2.2 other (List.mem_reverse.mpr member) node
        (List.mem_singleton_self node)

theorem isEmpty_iff
    (tracks : Tracks history worklist) :
    worklist.isEmpty = true ↔ ∀ node, ¬IsPending history node := by
  constructor
  · intro isEmpty node pending
    have member := (tracks.pending node).mpr pending
    rw [nodes_eq_nil_of_isEmpty isEmpty] at member
    exact List.not_mem_nil member
  · intro nonePending
    by_contra notEmpty
    obtain ⟨node, member⟩ :=
      List.exists_mem_of_ne_nil _
        (nodes_ne_nil_of_not_isEmpty (Bool.eq_false_iff.mpr notEmpty))
    exact nonePending node ((tracks.pending node).mp member)

end Tracks

/-- An action changes neither the order nor the ranks. -/
theorem act_setup
    (worklist : Worklist Node)
    (action : Action Node) :
    (worklist.act action).2.order = worklist.order ∧
      (worklist.act action).2.ranking = worklist.ranking := by
  cases action with
  | push node =>
      exact worklist.push_setup node
  | pop =>
      cases popped : worklist.pop? with
      | none =>
          simp only [act, popped, and_self]
      | some taken =>
          simp only [act, popped]
          exact pop?_setup popped

/-- A run changes neither the order nor the ranks. -/
theorem run_setup
    (worklist : Worklist Node)
    (actions : List (Action Node)) :
    (form.run worklist actions).2.order = worklist.order ∧
      (form.run worklist actions).2.ranking = worklist.ranking := by
  induction actions generalizing worklist with
  | nil =>
      exact ⟨rfl, rfl⟩
  | cons action actions inductionHypothesis =>
      obtain ⟨sameOrder, sameRanking⟩ := worklist.act_setup action
      obtain ⟨lastOrder, lastRanking⟩ :=
        inductionHypothesis (worklist.act action).2
      exact
        ⟨lastOrder.trans sameOrder, lastRanking.trans sameRanking⟩

/-- A worklist in step with its history reflects it. -/
theorem Tracks.reflects
    {history : List (Event Node)}
    {worklist : Worklist Node}
    (tracks : Tracks history worklist) :
    form.Reflects worklist.order worklist.ranking history worklist := by
  refine
    { once := tracks.once
      pending := tracks.pending
      insertion := fun _ pending => pending.insertedAt
      isEmpty := ?_
      push_pending := ?_
      pop_refused := ?_
      pop_next := ?_ }
  · rw [← Bool.not_eq_true, form, tracks.isEmpty_iff]
    simp
  · intro node pending
    simp only [form, Worklist.act,
      push_of_pending ((tracks.pending node).mpr pending)]
  · intro nonePending
    simp only [form, Worklist.act,
      pop?_of_isEmpty (tracks.isEmpty_iff.mpr nonePending)]
  · rintro ⟨waiting, waits⟩
    cases popped : worklist.pop? with
    | none =>
        have nonePending :=
          tracks.isEmpty_iff.mp (isEmpty_of_pop?_eq_none popped)
        exact (nonePending waiting waits).elim
    | some taken =>
        obtain ⟨node, rest⟩ := taken
        refine
          ⟨node, rest, by simp only [form, Worklist.act, popped], ?_, ?_,
            tracks.mem_rest popped⟩
        · rw [← tracks.pending, nodes_of_pop? popped]
          exact List.mem_cons_self
        · intro other pending different
          exact tracks.goesBefore_of_pop? popped other
            ((tracks.mem_rest popped other).mpr ⟨pending, different⟩)

/--
After every sequence of pushes and pops, in every order and with all ranks, the
worklist is the set of pending nodes that its history tells.
-/
theorem run_reflects
    (order : VisitOrder)
    (ranking : Ranking Node)
    (actions : List (Action Node)) :
    form.Reflects order ranking
      (form.run (empty order ranking) actions).1
      (form.run (empty order ranking) actions).2 := by
  have tracks := (Tracks.empty order ranking).run actions
  obtain ⟨sameOrder, sameRanking⟩ := (empty order ranking).run_setup actions
  have reflects := tracks.reflects
  rw [sameOrder, sameRanking, List.nil_append] at reflects
  exact reflects

end Runs

end Worklist

end KeyAudit
