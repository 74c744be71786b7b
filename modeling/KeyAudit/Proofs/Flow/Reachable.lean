import KeyAudit.Proofs.Flow.Postorder
import Mathlib.Logic.Relation

namespace KeyAudit

/-!
# Sweeping a graph

A sweep takes nodes that are waiting, passes over those that it has visited, and
makes the targets of the edges of a new node wait.  A node may wait more than
once.  Every edge is followed at most once, so a sweep takes at most one node
more than there are edges, whichever of the waiting nodes it takes first.  When
no node waits, it has visited the nodes to which its start leads.
-/

namespace Graph

variable {graph : Graph}

/-- How many nodes a sweep has taken, which nodes wait and which it has visited. -/
structure Sweep where
  taken : Nat
  waiting : List Nat
  visited : List Nat

namespace Sweep

/-- Before a sweep its start alone waits. -/
def begin (start : Nat) : Sweep :=
  ⟨0, [start], []⟩

/-- A sweep takes one of the waiting nodes. -/
inductive Round (graph : Graph) : Sweep → Sweep → Prop where
  | again
      {taken node : Nat}
      {waiting rest visited : List Nat}
      (chosen : waiting.Perm (node :: rest))
      (isOld : node ∈ visited) :
      Round graph ⟨taken, waiting, visited⟩ ⟨taken + 1, rest, visited⟩
  | enter
      {taken node : Nat}
      {waiting rest visited : List Nat}
      (chosen : waiting.Perm (node :: rest))
      (isNew : node ∉ visited) :
      Round graph ⟨taken, waiting, visited⟩
        ⟨taken + 1, (graph.outgoing node).map Edge.target ++ rest,
          node :: visited⟩

/-- A sweep goes on for any number of rounds. -/
abbrev Rounds (graph : Graph) : Sweep → Sweep → Prop :=
  Relation.ReflTransGen (Round graph)

/-- A sweep goes on while a node waits. -/
theorem exists_round
    {sweep : Sweep}
    (goesOn : sweep.waiting ≠ []) :
    ∃ next, Round graph sweep next := by
  obtain ⟨taken, waiting, visited⟩ := sweep
  obtain ⟨node, rest, rfl⟩ := List.exists_cons_of_ne_nil goesOn
  by_cases isOld : node ∈ visited
  · exact ⟨_, .again (.refl _) isOld⟩
  · exact ⟨_, .enter (.refl _) isOld⟩

/-- A sweep knows the nodes that wait and those that it has visited. -/
def Knows (sweep : Sweep) (node : Nat) : Prop :=
  node ∈ sweep.waiting ∨ node ∈ sweep.visited

section Rounds

variable {taken node : Nat}
variable {waiting rest visited : List Nat}

/-- Taking a node again makes no difference to what is known. -/
theorem knows_again
    (chosen : waiting.Perm (node :: rest))
    (isOld : node ∈ visited)
    {other : Nat} :
    Knows ⟨taken + 1, rest, visited⟩ other ↔
      Knows ⟨taken, waiting, visited⟩ other := by
  unfold Knows
  rw [chosen.mem_iff, List.mem_cons]
  grind

/-- After a new node was taken, the targets of its edges are known too. -/
theorem knows_enter
    (chosen : waiting.Perm (node :: rest))
    {other : Nat} :
    Knows
        ⟨taken + 1, (graph.outgoing node).map Edge.target ++ rest,
          node :: visited⟩
        other ↔
      Knows ⟨taken, waiting, visited⟩ other ∨
        ∃ edge ∈ graph.edges, edge.source = node ∧ edge.target = other := by
  have target :
      other ∈ (graph.outgoing node).map Edge.target ↔
        ∃ edge ∈ graph.edges, edge.source = node ∧ edge.target = other := by
    simp [mem_outgoing, and_assoc]
  unfold Knows
  rw [chosen.mem_iff, List.mem_append, target, List.mem_cons, List.mem_cons]
  grind

/-- The number of edges that leave other nodes than some visited ones. -/
def unfollowed (graph : Graph) (visited : List Nat) : Nat :=
  graph.edges.countP fun edge => edge.source ∉ visited

/-- The edges of a new node are followed when it is visited. -/
theorem unfollowed_cons
    (graph : Graph)
    (isNew : node ∉ visited) :
    (graph.outgoing node).length + unfollowed graph (node :: visited) =
      unfollowed graph visited := by
  unfold unfollowed outgoing
  rw [← List.countP_eq_length_filter]
  induction graph.edges with
  | nil =>
      rfl
  | cons edge edges inductionHypothesis =>
      rw [List.countP_cons, List.countP_cons, List.countP_cons,
        ← inductionHypothesis]
      by_cases leaves : edge.source = node
      · simp [leaves, isNew]
        omega
      · simp [leaves]
        omega

end Rounds

/--
What holds of a sweep after any round.  Each node that was taken or waits is the
start or the target of an edge that was followed.
-/
structure Sound (graph : Graph) (start : Nat) (sweep : Sweep) : Prop where
  visited_once : sweep.visited.Nodup
  started : sweep.Knows start
  leads : ∀ {node}, sweep.Knows node → graph.LeadsTo start node
  followed :
    ∀ {edge},
      edge ∈ graph.edges →
      edge.source ∈ sweep.visited →
      sweep.Knows edge.target
  balance :
    sweep.taken + sweep.waiting.length + unfollowed graph sweep.visited =
      graph.edges.length + 1

theorem begin_sound
    (graph : Graph)
    (start : Nat) :
    (begin start).Sound graph start where
  visited_once := List.nodup_nil
  started := Or.inl List.mem_cons_self
  leads := by
    rintro node (waits | isVisited)
    · obtain rfl := List.mem_singleton.mp waits
      exact .refl node
    · cases isVisited
  followed := fun _ isVisited => by cases isVisited
  balance := by
    have all : unfollowed graph [] = graph.edges.length := by
      simp [unfollowed]
    change 0 + 1 + unfollowed graph [] = _
    rw [all]
    omega

/-- A round forgets no node and follows the edges of a new one. -/
theorem Round.sound
    {start : Nat}
    {earlier later : Sweep}
    (round : Round graph earlier later)
    (sound : earlier.Sound graph start) :
    later.Sound graph start := by
  have balance := sound.balance
  cases round with
  | again chosen isOld =>
      refine
        { visited_once := sound.visited_once
          started := (knows_again chosen isOld).mpr sound.started
          leads := fun knows => sound.leads ((knows_again chosen isOld).mp knows)
          followed := fun member isVisited =>
            (knows_again chosen isOld).mpr (sound.followed member isVisited)
          balance := ?_ }
      have length := chosen.length_eq
      simp only [List.length_cons] at length balance ⊢
      omega
  | enter chosen isNew =>
      refine
        { visited_once := List.nodup_cons.mpr ⟨isNew, sound.visited_once⟩
          started := (knows_enter chosen).mpr (Or.inl sound.started)
          leads := ?_
          followed := ?_
          balance := ?_ }
      · intro other knows
        rcases (knows_enter chosen).mp knows with
          before | ⟨edge, member, rfl, rfl⟩
        · exact sound.leads before
        · have isWaiting := chosen.mem_iff.mpr List.mem_cons_self
          exact (sound.leads (Or.inl isWaiting)).trans (.edge member)
      · intro edge member isVisited
        rw [knows_enter chosen]
        rcases List.mem_cons.mp isVisited with isNode | older
        · exact Or.inr ⟨edge, member, isNode, rfl⟩
        · exact Or.inl (sound.followed member older)
      · have follows := unfollowed_cons graph isNew
        have length := chosen.length_eq
        simp only [List.length_cons, List.length_append, List.length_map]
          at length balance ⊢
        omega

/-- A sweep stays sound for any number of rounds. -/
theorem Rounds.sound
    {start : Nat}
    {sweep : Sweep}
    (rounds : Rounds graph (begin start) sweep) :
    sweep.Sound graph start := by
  induction rounds with
  | refl =>
      exact begin_sound graph start
  | tail _ round inductionHypothesis =>
      exact round.sound inductionHypothesis

/-- When no node waits, the nodes to which the start leads have been visited. -/
theorem Sound.mem_visited
    {start : Nat}
    {sweep : Sweep}
    (sound : sweep.Sound graph start)
    (ended : sweep.waiting = [])
    {node : Nat} :
    node ∈ sweep.visited ↔ graph.LeadsTo start node := by
  have knows {other : Nat} : sweep.Knows other ↔ other ∈ sweep.visited := by
    simp [Knows, ended]
  constructor
  · exact fun isVisited => sound.leads (knows.mpr isVisited)
  · intro leads
    refine leads.keeps (· ∈ sweep.visited) ?_ (knows.mp sound.started)
    exact fun edge member isVisited => knows.mp (sound.followed member isVisited)

end Sweep

/-- A bounded sweep goes through rounds until no node waits or the bound is reached. -/
theorem rounds_sweep
    (graph : Graph)
    (bound taken : Nat)
    (waiting visited : List Nat) :
    ∃ later left,
      Sweep.Rounds graph ⟨taken, waiting, visited⟩
          ⟨later, left, graph.sweep bound waiting visited⟩ ∧
        (left = [] ∨ later = taken + bound) := by
  induction bound generalizing taken waiting visited with
  | zero =>
      exact ⟨taken, waiting, .refl, Or.inr rfl⟩
  | succ bound inductionHypothesis =>
      cases waiting with
      | nil =>
          exact ⟨taken, [], .refl, Or.inl rfl⟩
      | cons node rest =>
          have goesOn {next : Sweep}
              (round :
                Sweep.Round graph ⟨taken, node :: rest, visited⟩ next)
              (isNext : next.taken = taken + 1) :
              ∃ later left,
                Sweep.Rounds graph ⟨taken, node :: rest, visited⟩
                    ⟨later, left,
                      graph.sweep bound next.waiting next.visited⟩ ∧
                  (left = [] ∨ later = taken + (bound + 1)) := by
            obtain ⟨later, left, rounds, ends⟩ :=
              inductionHypothesis next.taken next.waiting next.visited
            refine ⟨later, left, .head round rounds, ends.imp_right ?_⟩
            intro atBound
            omega
          unfold sweep
          by_cases isOld : node ∈ visited
          · rw [if_pos (by simpa using isOld)]
            exact goesOn (.again (.refl _) isOld) rfl
          · rw [if_neg (by simpa using isOld)]
            exact goesOn (.enter (.refl _) isOld) rfl

/-- The sweep for the reachable nodes goes on until no node waits. -/
theorem sweep_ends
    (graph : Graph)
    (start : Nat) :
    ∃ taken,
      Sweep.Rounds graph (.begin start)
        ⟨taken, [], graph.sweep (graph.edges.length + 1) [start] []⟩ := by
  obtain ⟨later, left, rounds, ends⟩ :=
    graph.rounds_sweep (graph.edges.length + 1) 0 [start] []
  have balance := (Sweep.Rounds.sound rounds).balance
  have isEmpty : left = [] := by
    rcases ends with isEmpty | atBound
    · exact isEmpty
    · -- At the bound the balance leaves no room for a waiting node.
      apply List.eq_nil_of_length_eq_zero
      simp only at balance
      omega
  subst isEmpty
  exact ⟨later, rounds⟩

/-- The nodes that are found are those to which the start leads. -/
theorem mem_reachable
    {start node : Nat} :
    node ∈ graph.reachable start ↔ graph.LeadsTo start node := by
  obtain ⟨_, rounds⟩ := graph.sweep_ends start
  rw [reachable, List.mem_mergeSort]
  exact (Sweep.Rounds.sound rounds).mem_visited rfl

/-- The nodes are listed in ascending order, each once. -/
theorem reachable_ascending
    (graph : Graph)
    (start : Nat) :
    (graph.reachable start).Pairwise (· < ·) := by
  obtain ⟨_, rounds⟩ := graph.sweep_ends start
  have once : (graph.reachable start).Nodup :=
    (List.mergeSort_perm _ _).nodup_iff.mpr
      (Sweep.Rounds.sound rounds).visited_once
  have ordered :
      (graph.reachable start).Pairwise fun first second =>
        decide (first ≤ second) = true := by
    apply List.pairwise_mergeSort
    · intro first second third
      simpa using Nat.le_trans
    · intro first second
      simpa using Nat.le_total first second
  exact (ordered.and once).imp fun both =>
    Nat.lt_of_le_of_ne (of_decide_eq_true both.1) both.2

/-- A sweep in whatever order ends with the nodes that are found. -/
theorem visited_perm_reachable
    {start : Nat}
    {sweep : Sweep}
    (rounds : Sweep.Rounds graph (.begin start) sweep)
    (ended : sweep.waiting = []) :
    sweep.visited.Perm (graph.reachable start) := by
  have sound := Sweep.Rounds.sound rounds
  refine (List.perm_ext_iff_of_nodup sound.visited_once ?_).mpr ?_
  · exact (graph.reachable_ascending start).imp Nat.ne_of_lt
  · intro node
    rw [sound.mem_visited ended, mem_reachable]

/-- A sweep takes a bounded number of nodes, and goes on until it has found all. -/
theorem sweep_terminates
    {start : Nat}
    {sweep : Sweep}
    (rounds : Sweep.Rounds graph (.begin start) sweep) :
    sweep.taken ≤ graph.edges.length + 1 ∧
      (sweep.waiting ≠ [] → ∃ next, Sweep.Round graph sweep next) ∧
        (sweep.waiting = [] →
          sweep.visited.Perm (graph.reachable start)) := by
  have balance := (Sweep.Rounds.sound rounds).balance
  refine ⟨?_, Sweep.exists_round, visited_perm_reachable rounds⟩
  omega

/-- A start that is a node is looked for under its own number. -/
theorem reachableFrom?_of_lt
    {start : Nat}
    (isNode : start < graph.size) :
    graph.reachableFrom? start =
      some ((graph.reachable start).map Int.ofNat) := by
  have natural : ¬(start : Int) < 0 := by
    omega
  have found : position? graph.size start = some start := by
    simp only [position?, natural, if_false]
    rw [if_pos (by omega), Int.toNat_natCast]
  simp [reachableFrom?, found]

/-- The ranked nodes are those that a sweep from the entry finds. -/
theorem mem_reachable_iff_ranked
    (closed : graph.Closed)
    (nonempty : 0 < graph.size)
    {node : Nat} :
    node ∈ graph.reachable 0 ↔ node ∈ graph.ranking.map Prod.fst := by
  rw [mem_reachable, ranking, List.zipIdx_map_fst,
    mem_reversePostorder closed nonempty]

end Graph

end KeyAudit
