import Mathlib.Data.List.Basic
import Mathlib.Order.Lattice

namespace KeyAudit

/-!
# Binary heaps

A heap is a list in which no item is less than the one above it, where the two
items below a place stand at twice the place.  An item that is pushed rises from
the end towards the root.  When the root is popped, a hole goes down to a leaf,
always to the lesser item below it, and the last item rises from there.
-/

namespace Heap

variable {Item : Type}

/-- The place above a place; the root is above itself. -/
def above (place : Nat) : Nat :=
  (place - 1) / 2

theorem above_lt
    {place : Nat}
    (notRoot : 0 < place) :
    above place < place := by
  unfold above
  omega

/-- The places below a place. -/
theorem above_eq_iff
    {place other : Nat}
    (notRoot : 0 < place) :
    above place = other ↔ place = 2 * other + 1 ∨ place = 2 * other + 2 := by
  unfold above
  omega

section Definitions

variable [LT Item] [DecidableLT Item]

/-- Put an item into a hole, or into a place above it where it is in order. -/
def rise (item : Item) (heap : List Item) (hole : Nat) : List Item :=
  match heap[above hole]? with
  | none => heap.set hole item
  | some parent =>
      if _rises : 0 < hole ∧ item < parent then
        rise item (heap.set hole parent) (above hole)
      else
        heap.set hole item
termination_by hole
decreasing_by exact above_lt _rises.1

/-- The lesser of the items below a place, and its place. -/
def lesserBelow? (heap : List Item) (place : Nat) : Option (Nat × Item) :=
  match heap[2 * place + 1]?, heap[2 * place + 2]? with
  | none, _ => none
  | some left, none => some (2 * place + 1, left)
  | some left, some right =>
      if left < right then some (2 * place + 1, left) else some (2 * place + 2, right)

theorem lesserBelow?_place
    {heap : List Item}
    {hole place : Nat}
    {item : Item}
    (found : lesserBelow? heap hole = some (place, item)) :
    (place = 2 * hole + 1 ∨ place = 2 * hole + 2) ∧
      heap[place]? = some item := by
  unfold lesserBelow? at found
  split at found
  · cases found
  · rename_i left isLeft _
    cases found
    exact ⟨Or.inl rfl, isLeft⟩
  · rename_i left right isLeft isRight
    split at found
    · cases found
      exact ⟨Or.inl rfl, isLeft⟩
    · cases found
      exact ⟨Or.inr rfl, isRight⟩

/-- Move a hole down to a leaf, and let an item rise from there. -/
def sink (item : Item) (heap : List Item) (hole : Nat) : List Item :=
  match _lesser : lesserBelow? heap hole with
  | none => rise item heap hole
  | some (place, below) => sink item (heap.set hole below) place
termination_by heap.length - hole
decreasing_by
  obtain ⟨isBelow, isItem⟩ := lesserBelow?_place _lesser
  obtain ⟨inside, _⟩ := List.getElem?_eq_some_iff.mp isItem
  rw [List.length_set]
  omega

/-- Add an item. -/
def push (heap : List Item) (item : Item) : List Item :=
  rise item (heap ++ [item]) heap.length

/-- Take the root, if there is one; the last item takes part in filling its place. -/
def pop? (heap : List Item) : Option (Item × List Item) :=
  match heap.getLast?, heap.dropLast with
  | none, _ => none
  | some last, [] => some (last, [])
  | some last, root :: rest => some (root, sink last (root :: rest) 0)

end Definitions

section Contents

/-- A hole that moves to another place leaves the item of that place behind. -/
theorem set_set_perm
    {heap : List Item}
    {hole place : Nat}
    {item moved : Item}
    (different : hole ≠ place)
    (inside : hole < heap.length)
    (isMoved : heap[place]? = some moved) :
    ((heap.set hole moved).set place item).Perm (heap.set hole item) := by
  obtain ⟨placeInside, rfl⟩ := List.getElem?_eq_some_iff.mp isMoved
  have holeInSet : hole < (heap.set hole item).length := by
    rwa [List.length_set]
  have placeInSet : place < (heap.set hole item).length := by
    rwa [List.length_set]
  simpa [List.getElem_set, different] using
    List.set_set_perm holeInSet placeInSet

variable [LT Item] [DecidableLT Item]
variable {heap : List Item} {hole : Nat} {item : Item}

/-- An item that rises is added in the hole's stead. -/
theorem rise_perm
    (inside : hole < heap.length) :
    (rise item heap hole).Perm (heap.set hole item) := by
  fun_induction rise item heap hole with
  | case1 => exact .refl _
  | case2 heap hole parent isParent rises inductionHypothesis =>
      have lower := above_lt rises.1
      refine (inductionHypothesis ?_).trans ?_
      · rw [List.length_set]
        omega
      · exact set_set_perm (by omega) inside isParent
  | case3 => exact .refl _

/-- An item that rises from a leaf is added in the hole's stead. -/
theorem sink_perm
    (inside : hole < heap.length) :
    (sink item heap hole).Perm (heap.set hole item) := by
  fun_induction sink item heap hole with
  | case1 => exact rise_perm inside
  | case2 heap hole place below lesser inductionHypothesis =>
      obtain ⟨isBelow, isItem⟩ := lesserBelow?_place lesser
      obtain ⟨placeInside, _⟩ := List.getElem?_eq_some_iff.mp isItem
      refine (inductionHypothesis ?_).trans ?_
      · rwa [List.length_set]
      · exact set_set_perm (by omega) inside isItem

/-- A push adds its item. -/
theorem push_perm
    (heap : List Item)
    (item : Item) :
    (push heap item).Perm (item :: heap) := by
  refine (rise_perm (by simp)).trans ?_
  rw [List.set_append_right _ _ (Nat.le_refl _), Nat.sub_self]
  exact List.perm_append_singleton item heap

/-- A pop from two or more items moves the last one. -/
theorem pop?_concat
    (root last : Item)
    (rest : List Item) :
    pop? (root :: rest ++ [last]) =
      some (root, sink last (root :: rest) 0) := by
  unfold pop?
  rw [List.getLast?_concat, List.dropLast_concat]

/-- Only an empty heap has no root. -/
theorem pop?_eq_none :
    pop? heap = none ↔ heap = [] := by
  constructor
  · intro nothing
    rcases List.eq_nil_or_concat heap with rfl | ⟨others, last, rfl⟩
    · rfl
    · cases others with
      | nil => cases nothing
      | cons root rest =>
          rw [List.concat_eq_append, pop?_concat] at nothing
          cases nothing
  · rintro rfl
    rfl

/-- A pop takes the first item, and the others come from the rest. -/
theorem pop?_cases
    {root : Item}
    {rest : List Item}
    (popped : pop? heap = some (root, rest)) :
    heap = [root] ∧ rest = [] ∨
      ∃ others last,
        heap = root :: others ++ [last] ∧
          rest = sink last (root :: others) 0 := by
  rcases List.eq_nil_or_concat heap with rfl | ⟨others, last, rfl⟩
  · cases popped
  · cases others with
    | nil =>
        cases popped
        exact Or.inl ⟨rfl, rfl⟩
    | cons first others =>
        rw [List.concat_eq_append, pop?_concat] at popped
        cases popped
        exact Or.inr ⟨others, last, List.concat_eq_append, rfl⟩

/-- A pop takes its item away and leaves the others. -/
theorem pop?_perm
    {root : Item}
    {rest : List Item}
    (popped : pop? heap = some (root, rest)) :
    heap.Perm (root :: rest) := by
  rcases pop?_cases popped with ⟨rfl, rfl⟩ | ⟨others, last, rfl, rfl⟩
  · exact .refl _
  · have sunk : (sink last (root :: others) 0).Perm (last :: others) :=
      sink_perm (by simp)
    exact ((List.perm_append_singleton last others).trans sunk.symm).cons root

end Contents

section Order

variable [LinearOrder Item]

/-- No item is less than the one above it. -/
def Ordered (heap : List Item) : Prop :=
  ∀ place item parent,
    0 < place →
    heap[place]? = some item →
    heap[above place]? = some parent →
      parent ≤ item

/-- The items apart from a hole are in order, also across the hole. -/
structure OrderedAround (heap : List Item) (hole : Nat) : Prop where
  apart :
    ∀ place item parent,
      0 < place →
      place ≠ hole →
      above place ≠ hole →
      heap[place]? = some item →
      heap[above place]? = some parent →
        parent ≤ item
  across :
    ∀ place item parent,
      0 < hole →
      0 < place →
      above place = hole →
      heap[place]? = some item →
      heap[above hole]? = some parent →
        parent ≤ item

/-- An item is not greater than those below a hole. -/
def IsBound (item : Item) (heap : List Item) (hole : Nat) : Prop :=
  ∀ place other,
    0 < place →
    above place = hole →
    heap[place]? = some other →
      item ≤ other

variable {heap : List Item} {hole : Nat} {item parent : Item}

theorem Ordered.around_root
    (ordered : Ordered heap) :
    OrderedAround heap 0 where
  apart place item parent notRoot _ _ isItem isParent :=
    ordered place item parent notRoot isItem isParent
  across _ _ _ impossible := (Nat.lt_irrefl 0 impossible).elim

/-- The root is the least item. -/
theorem Ordered.root_le
    (ordered : Ordered heap)
    {root : Item}
    (isRoot : heap[0]? = some root)
    {place : Nat}
    (isItem : heap[place]? = some item) :
    root ≤ item := by
  induction place using Nat.strongRecOn generalizing item with
  | ind place inductionHypothesis =>
      rcases Nat.eq_zero_or_pos place with rfl | notRoot
      · rw [isRoot] at isItem
        cases isItem
        exact le_refl _
      · have lower := above_lt notRoot
        obtain ⟨inside, _⟩ := List.getElem?_eq_some_iff.mp isItem
        have isParent :=
          List.getElem?_eq_getElem (Nat.lt_trans lower inside)
        exact le_trans (inductionHypothesis _ lower isParent)
          (ordered place _ _ notRoot isItem isParent)

/-- A heap stays in order without its last item. -/
theorem Ordered.dropLast
    (ordered : Ordered (heap ++ [item])) :
    Ordered heap := by
  intro place other parent notRoot isItem isParent
  have kept
      {index : Nat}
      {found : Item}
      (isFound : heap[index]? = some found) :
      (heap ++ [item])[index]? = some found := by
    obtain ⟨inside, _⟩ := List.getElem?_eq_some_iff.mp isFound
    rwa [List.getElem?_append_left inside]
  exact ordered place other parent notRoot (kept isItem) (kept isParent)

/-- A hole at the end of a heap has nothing below it. -/
theorem Ordered.around_end
    (ordered : Ordered heap) :
    OrderedAround (heap ++ [item]) heap.length ∧
      IsBound item (heap ++ [item]) heap.length := by
  have nothingBelow
      {place : Nat}
      (notRoot : 0 < place)
      (isBelow : above place = heap.length) :
      (heap ++ [item])[place]? = none := by
    rcases (above_eq_iff notRoot).mp isBelow with rfl | rfl
    · exact List.getElem?_eq_none (by simp; omega)
    · exact List.getElem?_eq_none (by simp; omega)
  refine ⟨⟨?_, ?_⟩, ?_⟩
  · intro place other parent notRoot notEnd _ isItem isParent
    obtain ⟨inside, _⟩ := List.getElem?_eq_some_iff.mp isItem
    rw [List.length_append, List.length_singleton] at inside
    have lower := above_lt notRoot
    rw [List.getElem?_append_left (by omega)] at isItem isParent
    exact ordered place other parent notRoot isItem isParent
  · intro place other parent _ notRoot isBelow isItem _
    rw [nothingBelow notRoot isBelow] at isItem
    cases isItem
  · intro place other notRoot isBelow isItem
    rw [nothingBelow notRoot isBelow] at isItem
    cases isItem

/-- A lesser item may rise past the item above its hole. -/
theorem OrderedAround.rises
    (around : OrderedAround heap hole)
    (notRoot : 0 < hole)
    (isParent : heap[above hole]? = some parent)
    (less : item < parent) :
    OrderedAround (heap.set hole parent) (above hole) ∧
      IsBound item (heap.set hole parent) (above hole) := by
  have lower := above_lt notRoot
  -- Whatever else stands below the new hole stood below the moved item before.
  have beside
      {place : Nat}
      {other : Item}
      (placeNotRoot : 0 < place)
      (isBelow : above place = above hole)
      (isOther : (heap.set hole parent)[place]? = some other) :
      parent ≤ other := by
    rw [List.getElem?_set] at isOther
    split at isOther
    · split at isOther
      · cases isOther
        exact le_refl _
      · cases isOther
    · rename_i different
      exact around.apart place other parent placeNotRoot (Ne.symm different)
        (by omega) isOther (isBelow ▸ isParent)
  refine ⟨⟨?_, ?_⟩, ?_⟩
  · intro place other grand placeNotRoot _ notBelow isOther isGrand
    have different : place ≠ hole := by
      rintro rfl
      exact notBelow rfl
    rw [List.getElem?_set_ne (Ne.symm different)] at isOther
    rw [List.getElem?_set] at isGrand
    split at isGrand
    · rename_i isHole
      split at isGrand
      · cases isGrand
        exact around.across place other parent notRoot placeNotRoot
          isHole.symm isOther isParent
      · cases isGrand
    · rename_i notHole
      exact around.apart place other grand placeNotRoot different
        (Ne.symm notHole) isOther isGrand
  · intro place other grand holeNotRoot placeNotRoot isBelow isOther isGrand
    have higher := above_lt holeNotRoot
    rw [List.getElem?_set_ne (by omega)] at isGrand
    have parentInOrder : grand ≤ parent :=
      around.apart (above hole) parent grand holeNotRoot (by omega)
        (by omega) isParent isGrand
    exact le_trans parentInOrder (beside placeNotRoot isBelow isOther)
  · intro place other placeNotRoot isBelow isOther
    exact le_trans (le_of_lt less) (beside placeNotRoot isBelow isOther)

/-- An item that is in order with those around a hole may fill it. -/
theorem OrderedAround.fill
    (around : OrderedAround heap hole)
    (bound : IsBound item heap hole)
    (inOrder :
      0 < hole → ∀ parent, heap[above hole]? = some parent → parent ≤ item) :
    Ordered (heap.set hole item) := by
  intro place other parent notRoot isOther isParent
  have lower := above_lt notRoot
  rw [List.getElem?_set] at isOther isParent
  split at isOther
  · rename_i isHole
    subst isHole
    rw [if_neg (by omega)] at isParent
    split at isOther
    · cases isOther
      exact inOrder notRoot parent isParent
    · cases isOther
  · rename_i different
    split at isParent
    · rename_i isHole
      split at isParent
      · cases isParent
        exact bound place other notRoot isHole.symm isOther
      · cases isParent
    · rename_i notBelow
      exact around.apart place other parent notRoot (Ne.symm different)
        (Ne.symm notBelow) isOther isParent

/-- An item that rises stops where it is in order. -/
theorem OrderedAround.ordered_rise
    (around : OrderedAround heap hole)
    (bound : IsBound item heap hole) :
    Ordered (rise item heap hole) := by
  fun_induction rise item heap hole with
  | case1 heap hole noParent =>
      refine around.fill bound ?_
      intro _ parent isParent
      rw [noParent] at isParent
      cases isParent
  | case2 heap hole parent isParent rises inductionHypothesis =>
      obtain ⟨nextAround, nextBound⟩ :=
        around.rises rises.1 isParent rises.2
      exact inductionHypothesis nextAround nextBound
  | case3 heap hole parent isParent stops =>
      refine around.fill bound ?_
      intro notRoot other isOther
      rw [isParent] at isOther
      cases isOther
      exact le_of_not_gt fun less => stops ⟨notRoot, less⟩

theorem lesserBelow?_le
    {place : Nat}
    (lesser : lesserBelow? heap hole = some (place, item)) :
    IsBound item heap hole := by
  intro other otherItem notRoot isBelow isOther
  have sides := (above_eq_iff notRoot).mp isBelow
  unfold lesserBelow? at lesser
  split at lesser
  · cases lesser
  · rename_i left isLeft noRight
    cases lesser
    rcases sides with rfl | rfl
    · rw [isLeft] at isOther
      cases isOther
      exact le_refl _
    · rw [noRight] at isOther
      cases isOther
  · rename_i left right isLeft isRight
    rcases sides with rfl | rfl
    · rw [isLeft] at isOther
      cases isOther
      split at lesser
      · cases lesser
        exact le_refl _
      · rename_i notLess
        cases lesser
        exact le_of_not_gt notLess
    · rw [isRight] at isOther
      cases isOther
      split at lesser
      · rename_i less
        cases lesser
        exact le_of_lt less
      · cases lesser
        exact le_refl _

/-- Nothing is below a leaf. -/
theorem isBound_of_leaf
    (leaf : lesserBelow? heap hole = none) :
    IsBound item heap hole := by
  intro place other notRoot isBelow isOther
  have noLeft : heap[2 * hole + 1]? = none := by
    unfold lesserBelow? at leaf
    split at leaf
    · assumption
    · cases leaf
    · split at leaf <;> cases leaf
  have short := List.getElem?_eq_none_iff.mp noLeft
  obtain ⟨inside, _⟩ := List.getElem?_eq_some_iff.mp isOther
  rcases (above_eq_iff notRoot).mp isBelow with rfl | rfl <;> omega

/-- A hole may go down to the lesser item below it. -/
theorem OrderedAround.sinks
    (around : OrderedAround heap hole)
    {place : Nat}
    (lesser : lesserBelow? heap hole = some (place, item)) :
    OrderedAround (heap.set hole item) place := by
  have isLeast := lesserBelow?_le lesser
  obtain ⟨isBelow, isItem⟩ := lesserBelow?_place lesser
  have notRoot : 0 < place := by omega
  have isAbove : above place = hole := (above_eq_iff notRoot).mpr isBelow
  refine ⟨?_, ?_⟩
  · intro other otherItem parent otherNotRoot different notBelow isOther
      isParent
    have lower := above_lt otherNotRoot
    rw [List.getElem?_set] at isOther isParent
    split at isOther
    · rename_i isHole
      subst isHole
      rw [if_neg (by omega)] at isParent
      split at isOther
      · cases isOther
        exact around.across place item parent otherNotRoot notRoot isAbove
          isItem isParent
      · cases isOther
    · rename_i notHole
      split at isParent
      · rename_i isHole
        split at isParent
        · cases isParent
          exact isLeast other otherItem otherNotRoot isHole.symm isOther
        · cases isParent
      · rename_i notUnder
        exact around.apart other otherItem parent otherNotRoot
          (Ne.symm notHole) (Ne.symm notUnder) isOther isParent
  · intro other otherItem parent _ otherNotRoot isUnder isOther isParent
    have lower := above_lt otherNotRoot
    rw [List.getElem?_set_ne (by omega)] at isOther
    rw [isAbove, List.getElem?_set] at isParent
    split at isParent
    · split at isParent
      · cases isParent
        exact around.apart other otherItem item otherNotRoot (by omega)
          (by omega) isOther (isUnder ▸ isItem)
      · cases isParent
    · rename_i impossible
      exact (impossible rfl).elim

/-- An item that rises from a leaf stops where it is in order. -/
theorem OrderedAround.ordered_sink
    (around : OrderedAround heap hole) :
    Ordered (sink item heap hole) := by
  fun_induction sink item heap hole with
  | case1 heap hole leaf =>
      exact around.ordered_rise (isBound_of_leaf leaf)
  | case2 heap hole place below lesser inductionHypothesis =>
      exact inductionHypothesis (around.sinks lesser)

theorem ordered_nil : Ordered ([] : List Item) :=
  nofun

/-- A push keeps a heap in order. -/
theorem Ordered.push
    (ordered : Ordered heap)
    (item : Item) :
    Ordered (Heap.push heap item) :=
  ordered.around_end.1.ordered_rise ordered.around_end.2

/-- A pop takes the least item and keeps the others in order. -/
theorem Ordered.pop?
    (ordered : Ordered heap)
    {root : Item}
    {rest : List Item}
    (popped : Heap.pop? heap = some (root, rest)) :
    Ordered rest ∧ ∀ item ∈ rest, root ≤ item := by
  have isLeast (isRoot : heap[0]? = some root) :
      ∀ item ∈ rest, root ≤ item := by
    intro item member
    have inHeap := (pop?_perm popped).mem_iff.mpr
      (List.mem_cons_of_mem root member)
    obtain ⟨place, isItem⟩ := List.mem_iff_getElem?.mp inHeap
    exact ordered.root_le isRoot isItem
  rcases pop?_cases popped with ⟨rfl, rfl⟩ | ⟨others, last, rfl, rfl⟩
  · exact ⟨ordered_nil, isLeast rfl⟩
  · exact ⟨ordered.dropLast.around_root.ordered_sink, isLeast rfl⟩

end Order

end Heap

end KeyAudit
