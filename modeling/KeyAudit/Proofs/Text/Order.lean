import KeyAudit.Proofs.Text.Sorted
import Mathlib.Data.List.Basic

namespace KeyAudit

/-!
# The order of texts

Texts and rows of texts are in a linear order.  So a sorted list does not depend
on the order before, and the sorted list of the texts of a set is determined by
the set.
-/

/-- A test that puts any two items in one order. -/
structure Linear {Item : Type} (le : Item → Item → Bool) : Prop where
  total : ∀ first second, (le first second || le second first) = true
  trans :
    ∀ {first second third},
      le first second = true →
      le second third = true →
      le first third = true
  antisymm :
    ∀ {first second},
      le first second = true →
      le second first = true →
      first = second

section Lexicographic

variable {Item : Type}
variable [DecidableEq Item]
variable {le : Item → Item → Bool}

theorem lexicographic_total
    (linear : Linear le)
    (first second : List Item) :
    (lexicographic le first second || lexicographic le second first) =
      true := by
  induction first generalizing second with
  | nil =>
      simp [lexicographic]
  | cons item first inductionHypothesis =>
      cases second with
      | nil =>
          simp [lexicographic]
      | cons other second =>
          by_cases same : item = other
          · simpa [lexicographic, same] using inductionHypothesis second
          · simpa [lexicographic, same, Ne.symm same] using
              linear.total item other

theorem lexicographic_trans
    (linear : Linear le)
    {first second third : List Item}
    (below : lexicographic le first second = true)
    (belowThird : lexicographic le second third = true) :
    lexicographic le first third = true := by
  induction first generalizing second third with
  | nil =>
      rfl
  | cons item first inductionHypothesis =>
      cases second with
      | nil =>
          cases below
      | cons other second =>
          cases third with
          | nil =>
              cases belowThird
          | cons last third =>
              unfold lexicographic at below belowThird ⊢
              by_cases same : item = other
              · subst other
                rw [if_pos rfl] at below
                split at belowThird
                · rw [if_pos ‹_›]
                  exact inductionHypothesis below belowThird
                · rwa [if_neg ‹_›]
              · rw [if_neg same] at below
                split at belowThird
                · subst last
                  rwa [if_neg same]
                · have beyond := linear.trans below belowThird
                  rw [if_neg]
                  · exact beyond
                  · rintro rfl
                    exact same (linear.antisymm below belowThird)

theorem lexicographic_antisymm
    (linear : Linear le)
    {first second : List Item}
    (below : lexicographic le first second = true)
    (above : lexicographic le second first = true) :
    first = second := by
  induction first generalizing second with
  | nil =>
      cases second with
      | nil => rfl
      | cons other second => cases above
  | cons item first inductionHypothesis =>
      cases second with
      | nil =>
          cases below
      | cons other second =>
          unfold lexicographic at below above
          by_cases same : item = other
          · subst other
            rw [if_pos rfl] at below above
            rw [inductionHypothesis below above]
          · rw [if_neg same] at below
            rw [if_neg (Ne.symm same)] at above
            exact (same (linear.antisymm below above)).elim

theorem Linear.lexicographic
    (linear : Linear le) :
    Linear (lexicographic le) where
  total := lexicographic_total linear
  trans := lexicographic_trans linear
  antisymm := lexicographic_antisymm linear

end Lexicographic

namespace Text

theorem le_linear : Linear Text.le := by
  refine Linear.lexicographic ⟨?_, ?_, ?_⟩
  · intro first second
    simpa using Nat.le_total first.val second.val
  · intro first second third below belowThird
    simp only [decide_eq_true_eq] at below belowThird ⊢
    exact Nat.le_trans below belowThird
  · intro first second below above
    simp only [decide_eq_true_eq] at below above
    exact Fin.ext (Nat.le_antisymm below above)

theorem rowLe_linear : Linear rowLe :=
  le_linear.lexicographic

end Text

/-- Sorting forgets the order before, if items in the same place are equal. -/
theorem mergeSort_eq_of_perm
    {Item : Type}
    {le : Item → Item → Bool}
    (total : ∀ first second, (le first second || le second first) = true)
    (trans :
      ∀ first second third,
        le first second = true →
        le second third = true →
        le first third = true)
    {items others : List Item}
    (antisymm :
      ∀ first ∈ items,
        ∀ second ∈ items,
          le first second = true →
          le second first = true →
          first = second)
    (perm : others.Perm items) :
    others.mergeSort le = items.mergeSort le := by
  have sortedPerm : (others.mergeSort le).Perm (items.mergeSort le) :=
    (List.mergeSort_perm others le).trans
      (perm.trans (List.mergeSort_perm items le).symm)
  refine sortedPerm.eq_of_pairwise ?_ (List.pairwise_mergeSort trans total _)
    (List.pairwise_mergeSort trans total _)
  intro first second isFirst isSecond
  exact antisymm first
    (perm.mem_iff.mp (List.mem_mergeSort.mp isFirst))
    second (List.mem_mergeSort.mp isSecond)

namespace Text

/-- One text comes before another and is not the same. -/
def Before (first second : Text) : Prop :=
  Text.le first second = true ∧ first ≠ second

theorem Before.of_le
    {first second third : Text}
    (before : Before first second)
    (below : Text.le second third = true) :
    Before first third := by
  refine ⟨le_linear.trans before.1 below, ?_⟩
  rintro rfl
  exact before.2 (le_linear.antisymm before.1 below)

theorem before_eraseReps_loop
    {first : Text}
    {rest kept : List Text}
    (ordered :
      (first :: rest).Pairwise fun one other => Text.le one other = true)
    (keptOrdered :
      (first :: kept).Pairwise fun one other => Before other one) :
    (List.eraseRepsBy.loop (· == ·) first rest kept).Pairwise Before := by
  induction rest generalizing first kept with
  | nil =>
      unfold List.eraseRepsBy.loop
      rwa [List.pairwise_reverse]
  | cons next rest inductionHypothesis =>
      obtain ⟨firstBelow, ordered⟩ := List.pairwise_cons.mp ordered
      unfold List.eraseRepsBy.loop
      split
      · rename_i same
        obtain rfl : first = next := by simpa using same
        exact inductionHypothesis ordered keptOrdered
      · rename_i differs
        have before : Before first next :=
          ⟨firstBelow next List.mem_cons_self, by simpa using differs⟩
        refine inductionHypothesis ordered
          (List.pairwise_cons.mpr ⟨?_, keptOrdered⟩)
        intro earlier isKept
        rcases List.mem_cons.mp isKept with rfl | isKept
        · exact before
        · exact ((List.pairwise_cons.mp keptOrdered).1 earlier isKept).of_le
            before.1

theorem before_sortedDistinct
    (texts : List Text) :
    (sortedDistinct texts).Pairwise Before := by
  have ordered :
      (sorted texts).Pairwise fun one other =>
        Text.le one other = true := by
    refine List.pairwise_mergeSort ?_ le_linear.total texts
    intro first second third
    exact le_linear.trans
  unfold sortedDistinct
  cases shape : sorted texts with
  | nil =>
      exact .nil
  | cons first rest =>
      rw [shape] at ordered
      exact before_eraseReps_loop ordered (List.pairwise_singleton _ _)

/-- Ordered lists with the same texts are the same. -/
theorem eq_of_ordered
    {texts others : List Text}
    (ordered : texts.Pairwise Before)
    (othersOrdered : others.Pairwise Before)
    (same : ∀ text, text ∈ texts ↔ text ∈ others) :
    texts = others := by
  have distinct
      {texts : List Text}
      (ordered : texts.Pairwise Before) :
      texts.Nodup :=
    ordered.imp fun before => before.2
  have perm : texts.Perm others :=
    (List.perm_ext_iff_of_nodup (distinct ordered)
      (distinct othersOrdered)).mpr same
  refine perm.eq_of_pairwise ?_ ordered othersOrdered
  intro first second _ _ before after
  exact le_linear.antisymm before.1 after.1

/-- The sorted list of the texts of a set is determined by the set. -/
theorem sortedDistinct_eq
    {texts others : List Text}
    (same : ∀ text, text ∈ texts ↔ text ∈ others) :
    sortedDistinct texts = sortedDistinct others := by
  refine eq_of_ordered (before_sortedDistinct texts)
    (before_sortedDistinct others) fun text => ?_
  rw [mem_sortedDistinct, mem_sortedDistinct, same]

theorem sortedDistinct_of_ordered
    {texts : List Text}
    (ordered : texts.Pairwise Before) :
    sortedDistinct texts = texts :=
  eq_of_ordered (before_sortedDistinct texts) ordered
    fun _ => mem_sortedDistinct

end Text

end KeyAudit
