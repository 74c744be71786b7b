import KeyAudit.Proofs.Flow.Path
import Mathlib.Data.List.Nodup
import Mathlib.Data.List.Perm.Subperm

namespace KeyAudit

/-!
# Depth-first search

A depth-first search leaves a node after all nodes behind it.  A node that was
seen and not left yet is active, and every active node leads to the node that is
visited.  So an edge to a node that was left before goes forward in the order,
and any other edge goes to an active node, from which a path leads back.
-/

namespace Graph

variable {graph : Graph}

theorem mem_next
    {node other : Nat} :
    other ∈ graph.next node ↔
      ∃ edge ∈ graph.edges, edge.source = node ∧ edge.target = other := by
  simp [next, List.mem_eraseDups, mem_outgoing, and_assoc]

/-- A node leads to the nodes one edge further. -/
theorem LeadsTo.next
    {node other : Nat}
    (isNext : other ∈ graph.next node) :
    graph.LeadsTo node other := by
  obtain ⟨edge, member, rfl, rfl⟩ := mem_next.mp isNext
  exact .edge member

/-- Each node comes before the nodes one edge further, unless they lead back to it. -/
inductive Forward (graph : Graph) : List Nat → Prop where
  | nil :
      Forward graph []
  | cons
      {node : Nat}
      {rest : List Nat}
      (ahead :
        ∀ {other},
          other ∈ graph.next node →
          other ∈ rest ∨ graph.LeadsTo other node)
      (later : Forward graph rest) :
      Forward graph (node :: rest)

/-- In a forward list an edge goes to a later position or closes a cycle. -/
theorem Forward.later_or_back
    {order : List Nat}
    (forward : graph.Forward order)
    {position node other : Nat}
    (present : order[position]? = some node)
    (isNext : other ∈ graph.next node) :
    (∃ later, position < later ∧ order[later]? = some other) ∨
      graph.LeadsTo other node := by
  induction forward generalizing position with
  | nil =>
      simp at present
  | cons ahead later inductionHypothesis =>
      cases position with
      | zero =>
          simp only [List.getElem?_cons_zero, Option.some.injEq] at present
          subst present
          rcases ahead isNext with inRest | leadsBack
          · obtain ⟨index, atIndex⟩ := List.mem_iff_getElem?.mp inRest
            exact Or.inl ⟨index + 1, Nat.succ_pos index, atIndex⟩
          · exact Or.inr leadsBack
      | succ position =>
          rcases inductionHypothesis present with
            ⟨index, isLater, atIndex⟩ | leadsBack
          · exact Or.inl ⟨index + 1, Nat.succ_lt_succ isLater, atIndex⟩
          · exact Or.inr leadsBack

namespace Search

/-- A node is active while it is seen and not left. -/
def Active (search : Search) (node : Nat) : Prop :=
  node ∈ search.seen ∧ node ∉ search.left

/-- What holds of a search at any time. -/
structure Sound (graph : Graph) (search : Search) : Prop where
  inside : ∀ {node}, node ∈ search.seen → node < graph.size
  seen_once : search.seen.Nodup
  left_seen : ∀ {node}, node ∈ search.left → node ∈ search.seen
  left_once : search.left.Nodup
  followed :
    ∀ {node other},
      node ∈ search.left →
      other ∈ graph.next node →
      other ∈ search.seen
  forward : graph.Forward search.left

/-- A search may go on at nodes: the bound is enough, and active nodes lead there. -/
structure Ready
    (graph : Graph)
    (bound : Nat)
    (nodes : List Nat)
    (search : Search) : Prop where
  sound : search.Sound graph
  enough : graph.size ≤ bound + search.seen.length
  inside : ∀ {node}, node ∈ nodes → node < graph.size
  leads :
    ∀ {active node},
      search.Active active →
      node ∈ nodes →
      graph.LeadsTo active node

/-- A search has seen nodes and what is behind them, and the same nodes are active. -/
structure Explores
    (graph : Graph)
    (nodes : List Nat)
    (earlier later : Search) : Prop where
  sound : later.Sound graph
  kept : ∀ {node}, node ∈ earlier.seen → node ∈ later.seen
  covers : ∀ {node}, node ∈ nodes → node ∈ later.seen
  active : ∀ {node}, later.Active node ↔ earlier.Active node
  reached :
    ∀ {node},
      node ∈ later.seen →
      node ∈ earlier.seen ∨
        ∃ start ∈ nodes, graph.LeadsTo start node

/-- A search at nodes that were all seen before changes nothing. -/
theorem Explores.of_seen
    {nodes : List Nat}
    {search : Search}
    (sound : search.Sound graph)
    (allSeen : ∀ {node}, node ∈ nodes → node ∈ search.seen) :
    Explores graph nodes search search where
  sound := sound
  kept member := member
  covers := allSeen
  active := Iff.rfl
  reached member := Or.inl member

/-- Seen nodes are never forgotten, so a later search has seen as many. -/
theorem Explores.seen_length
    {nodes : List Nat}
    {earlier later : Search}
    (explores : Explores graph nodes earlier later)
    (sound : earlier.Sound graph) :
    earlier.seen.length ≤ later.seen.length :=
  (sound.seen_once.subperm fun _ member => explores.kept member).length_le

/-- A search without any bound left has seen all nodes. -/
theorem Ready.seen_of_zero
    {nodes : List Nat}
    {search : Search}
    (ready : Ready graph 0 nodes search)
    {node : Nat}
    (member : node ∈ nodes) :
    node ∈ search.seen := by
  have amongNodes : search.seen ⊆ List.range graph.size := by
    intro other isSeen
    exact List.mem_range.mpr (ready.sound.inside isSeen)
  have asMany : (List.range graph.size).length ≤ search.seen.length := by
    simpa using ready.enough
  have allNodes : search.seen.Perm (List.range graph.size) :=
    (ready.sound.seen_once.subperm amongNodes).perm_of_length_le asMany
  exact allNodes.mem_iff.mpr (List.mem_range.mpr (ready.inside member))

/-- A search may go on at the first of several nodes. -/
theorem Ready.first
    {bound first : Nat}
    {rest : List Nat}
    {search : Search}
    (ready : Ready graph bound (first :: rest) search) :
    Ready graph bound [first] search := by
  refine
    { sound := ready.sound
      enough := ready.enough
      inside := ?_
      leads := ?_ }
  · intro node member
    obtain rfl := List.mem_singleton.mp member
    exact ready.inside List.mem_cons_self
  · intro active node isActive member
    obtain rfl := List.mem_singleton.mp member
    exact ready.leads isActive List.mem_cons_self

/-- A search that explored the first of several nodes may go on at the others. -/
theorem Ready.rest
    {bound first : Nat}
    {rest : List Nat}
    {search after : Search}
    (ready : Ready graph bound (first :: rest) search)
    (explores : Explores graph [first] search after) :
    Ready graph bound rest after where
  sound := explores.sound
  enough := Nat.le_trans ready.enough
    (Nat.add_le_add_left (explores.seen_length ready.sound) bound)
  inside member := ready.inside (List.mem_cons_of_mem first member)
  leads isActive member :=
    ready.leads (explores.active.mp isActive) (List.mem_cons_of_mem first member)

/-- Searching node by node explores all of them if each search explores its node. -/
theorem explores_foldl
    {bound : Nat}
    (each :
      ∀ {search node},
        Ready graph bound [node] search →
        Explores graph [node] search (visit graph bound search node))
    {nodes : List Nat}
    {search : Search}
    (ready : Ready graph bound nodes search) :
    Explores graph nodes search
      (nodes.foldl (visit graph bound) search) := by
  induction nodes generalizing search with
  | nil =>
      apply Explores.of_seen ready.sound
      intro node member
      cases member
  | cons first rest inductionHypothesis =>
      have atFirst := each ready.first
      have behind :
          Explores graph rest (visit graph bound search first)
            ((first :: rest).foldl (visit graph bound) search) :=
        inductionHypothesis (ready.rest atFirst)
      refine
        { sound := behind.sound
          kept := fun member => behind.kept (atFirst.kept member)
          covers := ?_
          active := behind.active.trans atFirst.active
          reached := ?_ }
      · intro node member
        rcases List.mem_cons.mp member with rfl | inRest
        · exact behind.kept (atFirst.covers (List.mem_singleton.mpr rfl))
        · exact behind.covers inRest
      · intro node isSeen
        rcases behind.reached isSeen with inMiddle | ⟨start, inRest, leads⟩
        · rcases atFirst.reached inMiddle with old | ⟨start, isFirst, leads⟩
          · exact Or.inl old
          · obtain rfl := List.mem_singleton.mp isFirst
            exact Or.inr ⟨start, List.mem_cons_self, leads⟩
        · exact Or.inr ⟨start, List.mem_cons_of_mem first inRest, leads⟩

section Visit

variable {bound node : Nat}
variable {search : Search}

/-- A search that has just entered a node may go on at the nodes behind it. -/
theorem Ready.enter
    (closed : graph.Closed)
    (ready : Ready graph (bound + 1) [node] search)
    (isNew : node ∉ search.seen) :
    Ready graph bound (graph.next node)
      { search with seen := node :: search.seen } := by
  have sound := ready.sound
  refine
    { sound := ?_
      enough := ?_
      inside := ?_
      leads := ?_ }
  · refine
      { inside := ?_
        seen_once := List.nodup_cons.mpr ⟨isNew, sound.seen_once⟩
        left_seen := fun member =>
          List.mem_cons_of_mem node (sound.left_seen member)
        left_once := sound.left_once
        followed := fun member isNext =>
          List.mem_cons_of_mem node (sound.followed member isNext)
        forward := sound.forward }
    intro other isSeen
    rcases List.mem_cons.mp isSeen with rfl | old
    · exact ready.inside (List.mem_singleton.mpr rfl)
    · exact sound.inside old
  · have enough := ready.enough
    simp only [List.length_cons]
    omega
  · intro other isNext
    obtain ⟨edge, member, _, rfl⟩ := mem_next.mp isNext
    exact closed edge member
  · intro active other isActive isNext
    apply LeadsTo.trans _ (.next isNext)
    rcases List.mem_cons.mp isActive.1 with rfl | old
    · exact .refl active
    · exact ready.leads ⟨old, isActive.2⟩ (List.mem_singleton.mpr rfl)

/-- A node that was entered is active until it is left. -/
theorem Explores.active_node
    (sound : search.Sound graph)
    (isNew : node ∉ search.seen)
    {after : Search}
    (explores :
      Explores graph (graph.next node)
        { search with seen := node :: search.seen } after) :
    after.Active node := by
  rw [explores.active]
  exact ⟨List.mem_cons_self, fun isLeft => isNew (sound.left_seen isLeft)⟩

/-- A search leaves a node once everything behind it was explored. -/
theorem Explores.leave
    (ready : Ready graph (bound + 1) [node] search)
    (isNew : node ∉ search.seen)
    {after : Search}
    (explores :
      Explores graph (graph.next node)
        { search with seen := node :: search.seen } after) :
    Explores graph [node] search
      { after with left := node :: after.left } := by
  have isActive := explores.active_node ready.sound isNew
  refine
    { sound := ?_
      kept := fun member =>
        explores.kept (List.mem_cons_of_mem node member)
      covers := ?_
      active := ?_
      reached := ?_ }
  · refine
      { inside := explores.sound.inside
        seen_once := explores.sound.seen_once
        left_seen := ?_
        left_once :=
          List.nodup_cons.mpr ⟨isActive.2, explores.sound.left_once⟩
        followed := ?_
        forward := .cons ?_ explores.sound.forward }
    · intro other isLeft
      rcases List.mem_cons.mp isLeft with rfl | old
      · exact isActive.1
      · exact explores.sound.left_seen old
    · intro first other isLeft isNext
      rcases List.mem_cons.mp isLeft with rfl | old
      · exact explores.covers isNext
      · exact explores.sound.followed old isNext
    · intro other isNext
      by_cases isLeft : other ∈ after.left
      · exact Or.inl isLeft
      · -- A node that was seen and not left is active, so it leads here.
        right
        have otherActive :=
          explores.active.mp ⟨explores.covers isNext, isLeft⟩
        rcases List.mem_cons.mp otherActive.1 with rfl | old
        · exact .refl other
        · exact ready.leads ⟨old, otherActive.2⟩
            (List.mem_singleton.mpr rfl)
  · intro other member
    obtain rfl := List.mem_singleton.mp member
    exact isActive.1
  · intro other
    by_cases isNode : other = node
    · subst other
      constructor
      · intro finished
        exact (finished.2 List.mem_cons_self).elim
      · intro earlier
        exact (isNew earlier.1).elim
    · have sameActive :
          Active { after with left := node :: after.left } other ↔
            after.Active other := by
        simp [Active, isNode]
      rw [sameActive, explores.active]
      simp [Active, isNode]
  · intro other isSeen
    rcases explores.reached isSeen with entered | ⟨start, isNext, leads⟩
    · rcases List.mem_cons.mp entered with rfl | old
      · exact Or.inr ⟨other, List.mem_singleton.mpr rfl, .refl other⟩
      · exact Or.inl old
    · exact Or.inr
        ⟨node, List.mem_singleton.mpr rfl, (LeadsTo.next isNext).trans leads⟩

/-- A visit of a node that was seen changes nothing. -/
theorem visit_of_seen
    (isSeen : node ∈ search.seen) :
    visit graph bound search node = search := by
  cases bound with
  | zero => rfl
  | succ bound => simp [visit, isSeen]

/-- A visit enters a new node, goes on behind it and leaves it. -/
theorem visit_of_new
    (isNew : node ∉ search.seen) :
    visit graph (bound + 1) search node =
      { (graph.next node).foldl (visit graph bound)
          { search with seen := node :: search.seen } with
        left :=
          node ::
            ((graph.next node).foldl (visit graph bound)
              { search with seen := node :: search.seen }).left } := by
  simp [visit, isNew]

/-- A visit explores its node. -/
theorem explores_visit
    (closed : graph.Closed)
    (ready : Ready graph bound [node] search) :
    Explores graph [node] search (visit graph bound search node) := by
  induction bound generalizing search node with
  | zero =>
      exact Explores.of_seen ready.sound ready.seen_of_zero
  | succ bound inductionHypothesis =>
      by_cases isSeen : node ∈ search.seen
      · rw [visit_of_seen isSeen]
        apply Explores.of_seen ready.sound
        intro other member
        obtain rfl := List.mem_singleton.mp member
        exact isSeen
      · rw [visit_of_new isSeen]
        exact Explores.leave ready isSeen
          (explores_foldl inductionHypothesis (ready.enter closed isSeen))

end Visit

end Search

/-- A search of a whole graph may begin at its entry. -/
theorem ready_entry
    (nonempty : 0 < graph.size) :
    Search.Ready graph graph.size [0] ⟨[], []⟩ := by
  refine
    { sound := ?_
      enough := Nat.le_add_right _ _
      inside := ?_
      leads := ?_ }
  · exact
      { inside := fun member => by cases member
        seen_once := List.nodup_nil
        left_seen := fun member => member
        left_once := List.nodup_nil
        followed := fun member => by cases member
        forward := .nil }
  · intro node member
    obtain rfl := List.mem_singleton.mp member
    exact nonempty
  · intro active node isActive
    cases isActive.1

/-- A search of a whole graph explores its entry, and no node stays active. -/
theorem explores_entry
    (closed : graph.Closed)
    (nonempty : 0 < graph.size) :
    Search.Explores graph [0] ⟨[], []⟩
      (visit graph graph.size ⟨[], []⟩ 0) :=
  Search.explores_visit closed (ready_entry nonempty)

end Graph

end KeyAudit
